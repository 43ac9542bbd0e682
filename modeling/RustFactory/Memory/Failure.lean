import RustFactory.Lib.Framing
import RustFactory.Memory.Agentic

/-!
# Memory: failed writes of the `agentic-memory` store

A write puts its partition in place before the vendor is asked to add the node.  When the vendor
fails and the namespace is new, the empty partition stays and counts against the tenant's
namespaces; in every other case a failed write leaves the store as it was.
-/

namespace RustFactory.Memory

open Lib

namespace Agentic

variable {γ ω : Type} {G : MemoryGraph γ ω}

/-- A node that is not added leaves the graph as it was. -/
def MemoryGraph.Atomic (G : MemoryGraph γ ω) : Prop :=
  ∀ env graph event graph', G.addNode env graph event = (.error (), graph') → graph' = graph

/-! ## Every partition has a graph -/

/-- The partitions of a tenant have graphs. -/
def TenantGraphs (tenant : Tenant γ) : Prop :=
  ∀ (scope : String) (partition : Partition γ), tenant[scope]? = some partition →
    partition.graph.isSome

def HasGraphs (tenants : Tenants γ) : Prop :=
  ∀ (tenantId : String) (tenant : Tenant γ), tenants[tenantId]? = some tenant → TenantGraphs tenant

theorem TenantGraphs.insert {tenant : Tenant γ} (h : TenantGraphs tenant) {scope : String}
    {partition : Partition γ} (hgraph : partition.graph.isSome) :
    TenantGraphs (tenant.insert scope partition) := by
  intro other held hheld
  rw [Std.ExtTreeMap.getElem?_insert] at hheld
  by_cases hscope : compare scope other = .eq
  · rw [if_pos hscope] at hheld
    rwa [← Option.some.inj hheld]
  · rw [if_neg hscope] at hheld
    exact h other held hheld

theorem TenantGraphs.erase {tenant : Tenant γ} (h : TenantGraphs tenant) (scope : String) :
    TenantGraphs (tenant.erase scope) := by
  intro other held hheld
  rw [Std.ExtTreeMap.getElem?_erase] at hheld
  by_cases hscope : compare scope other = .eq
  · rw [if_pos hscope] at hheld
    cases hheld
  · rw [if_neg hscope] at hheld
    exact h other held hheld

theorem HasGraphs.insert {tenants : Tenants γ} (h : HasGraphs tenants) {tenantId : String}
    {tenant : Tenant γ} (htenant : TenantGraphs tenant) :
    HasGraphs (tenants.insert tenantId tenant) := by
  intro other held hheld
  rw [Std.ExtTreeMap.getElem?_insert] at hheld
  by_cases hid : compare tenantId other = .eq
  · rw [if_pos hid] at hheld
    rwa [← Option.some.inj hheld]
  · rw [if_neg hid] at hheld
    exact h other held hheld

theorem HasGraphs.erase {tenants : Tenants γ} (h : HasGraphs tenants) (tenantId : String) :
    HasGraphs (tenants.erase tenantId) := by
  intro other held hheld
  rw [Std.ExtTreeMap.getElem?_erase] at hheld
  by_cases hid : compare tenantId other = .eq
  · rw [if_pos hid] at hheld
    cases hheld
  · rw [if_neg hid] at hheld
    exact h other held hheld

theorem HasGraphs.getD {tenants : Tenants γ} (h : HasGraphs tenants) (tenantId : String) :
    TenantGraphs (tenants.getD tenantId ∅) := by
  rw [Std.ExtTreeMap.getD_eq_getD_getElem?]
  cases htenant : tenants[tenantId]? with
  | none =>
    intro scope partition hpartition
    rw [Option.getD_none, Std.ExtTreeMap.getElem?_empty] at hpartition
    cases hpartition
  | some tenant => exact h tenantId tenant htenant

theorem graph_insertRecord (env : ω) (partition : Partition γ) (record : MemoryRecord) :
    (insertRecord G env partition record).2.graph.isSome := by
  rcases hadd : G.addNode env (graphMut G partition) (eventOf record) with ⟨added, graph⟩
  cases added with
  | error _ => rw [insertRecord_failed hadd]; rfl
  | ok id =>
    cases hkey : partition.ids[record.key.asStr]? with
    | none => rw [insertRecord_created hadd hkey]; rfl
    | some previous => rw [insertRecord_replaced hadd hkey]; rfl

theorem HasGraphs.put {tenants : Tenants γ} (h : HasGraphs tenants) (env : ω)
    (record : MemoryRecord) : HasGraphs (put G env tenants record).2 := by
  rw [put_eq]
  simp only
  cases validateRecord record >>= fun _ =>
      checkRoom (tenants.getD record.tenantId.asStr ∅) record with
  | error e => exact h
  | ok _ => exact h.insert ((h.getD _).insert (graph_insertRecord env _ record))

theorem HasGraphs.delete {tenants : Tenants γ} (h : HasGraphs tenants) (env : ω)
    (tenantId : TenantId) (scope : Namespace) (key : RecordKey) :
    HasGraphs (delete G env tenants tenantId scope key).2 := by
  unfold Agentic.delete
  cases htenant : tenants[tenantId.asStr]? with
  | none => exact h
  | some tenant =>
    have hgraphs := h tenantId.asStr tenant htenant
    cases hpartition : tenant[scope.asStr]? with
    | none => simp only [hpartition]; exact h
    | some partition =>
      cases hkey : partition.ids[key.asStr]? with
      | none => simp only [hpartition, hkey]; exact h
      | some id =>
        rcases hremove : G.removeNode env (graphMut G partition) id with ⟨removed, graph⟩
        cases removed with
        | error _ =>
          simp only [hpartition, hkey, hremove]
          exact h.insert (hgraphs.insert rfl)
        | ok _ =>
          simp only [hpartition, hkey, hremove]
          split_ifs
          · exact h.erase _
          · exact h.insert (hgraphs.erase _)
          · exact h.erase _
          · exact h.insert (hgraphs.insert rfl)

theorem hasGraphs_final (calls : List (Call ω)) : HasGraphs ((machine G).final ∅ calls) := by
  refine Machine.invariant_final (fun tenants call h => ?_) (fun tenantId tenant htenant => ?_) calls
  · cases call with
    | put env record => exact h.put env record
    | get tenantId scope key => exact h
    | query tenantId scope filter => exact h
    | delete env tenantId scope key => exact h.delete env tenantId scope key
  · rw [Std.ExtTreeMap.getElem?_empty] at htenant
    cases htenant

/-! ## Writes into new namespaces -/

section Fill

variable {tenants : Tenants γ} {record : MemoryRecord}

/-- A new namespace is refused exactly when the tenant has all it may have. -/
theorem checkRoom_new {tenant : Tenant γ} (hnew : tenant[record.namespace.asStr]? = none) :
    checkRoom tenant record =
      if maxTenantNamespaces ≤ tenant.size then .error .limitExceeded else .ok () := by
  unfold checkRoom
  simp only [hnew]
  unfold checkCapacity
  by_cases hsize : maxTenantNamespaces ≤ tenant.size
  · rw [if_pos hsize, if_pos (by simpa using hsize)]
  · rw [if_neg hsize, if_neg (by simpa using hsize)]
    rfl

/-- A write that reaches the vendor is not refused for want of room. -/
theorem insertRecord_ne_limitExceeded (env : ω) (partition : Partition γ) (record : MemoryRecord) :
    (insertRecord G env partition record).1 ≠ .error .limitExceeded := by
  rcases hadd : G.addNode env (graphMut G partition) (eventOf record) with ⟨added, graph⟩
  cases added with
  | error _ => rw [insertRecord_failed hadd]; exact nofun
  | ok id =>
    cases hkey : partition.ids[record.key.asStr]? with
    | none => rw [insertRecord_created hadd hkey]; exact nofun
    | some previous => rw [insertRecord_replaced hadd hkey]; exact nofun

/-- With room, the namespace is there after the write, whatever the vendor did. -/
theorem put_new (env : ω) (hvalid : validateRecord record = .ok ())
    (hnew : (tenants.getD record.tenantId.asStr ∅)[record.namespace.asStr]? = none)
    (hroom : (tenants.getD record.tenantId.asStr ∅).size < maxTenantNamespaces) :
    (put G env tenants record).1 ≠ .error .limitExceeded ∧
      ∃ partition, (put G env tenants record).2.getD record.tenantId.asStr ∅ =
        (tenants.getD record.tenantId.asStr ∅).insert record.namespace.asStr partition := by
  rw [put_eq]
  simp only [hvalid, ok_bind, checkRoom_new hnew, if_neg (Nat.not_le.mpr hroom)]
  exact ⟨insertRecord_ne_limitExceeded env _ record, _, Std.ExtTreeMap.getD_insert_self⟩

theorem put_full (env : ω) (hvalid : validateRecord record = .ok ())
    (hnew : (tenants.getD record.tenantId.asStr ∅)[record.namespace.asStr]? = none)
    (hfull : maxTenantNamespaces ≤ (tenants.getD record.tenantId.asStr ∅).size) :
    (put G env tenants record).1 = .error .limitExceeded := by
  rw [put_eq]
  simp only [hvalid, ok_bind, checkRoom_new hnew, if_pos hfull]

end Fill

/-- Writes into new namespaces that one store just has room for tell it from a store with one
namespace more. -/
theorem outputs_ne_of_size (tenantId : TenantId) (env : ω) {records : List MemoryRecord}
    (hne : records ≠ []) (hvalid : ∀ record ∈ records, validateRecord record = .ok ())
    (htenant : ∀ record ∈ records, record.tenantId = tenantId)
    (hdistinct : records.Pairwise fun a b => a.namespace.asStr ≠ b.namespace.asStr)
    {a b : Tenants γ}
    (ha : ∀ record ∈ records, (a.getD tenantId.asStr ∅)[record.namespace.asStr]? = none)
    (hb : ∀ record ∈ records, (b.getD tenantId.asStr ∅)[record.namespace.asStr]? = none)
    (hroom : (a.getD tenantId.asStr ∅).size + records.length = maxTenantNamespaces)
    (hmore : (b.getD tenantId.asStr ∅).size = (a.getD tenantId.asStr ∅).size + 1) :
    (machine G).outputs a (records.map (.put env)) ≠
      (machine G).outputs b (records.map (.put env)) := by
  induction records generalizing a b with
  | nil => exact absurd rfl hne
  | cons record records ih =>
    rw [List.forall_mem_cons] at hvalid htenant ha hb
    rw [List.pairwise_cons] at hdistinct
    rw [List.length_cons] at hroom
    obtain ⟨rfl, htenant⟩ := htenant
    obtain ⟨hfirst, partition, hnext⟩ := put_new (G := G) env hvalid.1 ha.1 (by omega)
    rw [List.map_cons]
    intro heq
    obtain ⟨hhead, htail⟩ := List.cons.inj heq
    by_cases hlast : records = []
    · -- The last write fits into the first store only.
      subst hlast
      rw [List.length_nil] at hroom
      have hfull := put_full (G := G) env hvalid.1 hb.1 (by omega)
      exact hfirst ((Answer.put.inj hhead).trans hfull)
    · have hlength := List.length_pos_iff.mpr hlast
      obtain ⟨-, partition', hnext'⟩ := put_new (G := G) env hvalid.1 hb.1 (by omega)
      have hsize : ∀ {tenant : Tenant γ} (held : Partition γ),
          tenant[record.namespace.asStr]? = none →
          (tenant.insert record.namespace.asStr held).size = tenant.size + 1 := by
        intro tenant held hnone
        rw [Std.ExtTreeMap.size_insert, if_neg]
        rw [Std.ExtTreeMap.contains_eq_isSome_getElem?, hnone]
        exact Bool.false_ne_true
      have hother : ∀ {tenant : Tenant γ} (held : Partition γ) {other : MemoryRecord},
          other ∈ records → tenant[other.namespace.asStr]? = none →
          (tenant.insert record.namespace.asStr held)[other.namespace.asStr]? = none := by
        intro tenant held other hmem hnone
        rw [Std.ExtTreeMap.getElem?_insert, if_neg, hnone]
        rw [compare_eq_iff_eq]
        exact hdistinct.1 other hmem
      refine ih hlast hvalid.2 htenant hdistinct.2 ?_ ?_ ?_ ?_ htail
      · intro other hmem
        change ((put G env a record).2.getD _ ∅)[_]? = none
        rw [hnext]
        exact hother partition hmem (ha.2 other hmem)
      · intro other hmem
        change ((put G env b record).2.getD _ ∅)[_]? = none
        rw [hnext']
        exact hother partition' hmem (hb.2 other hmem)
      · change ((put G env a record).2.getD _ ∅).size + _ = _
        rw [hnext, hsize partition ha.1]
        omega
      · change ((put G env b record).2.getD _ ∅).size = ((put G env a record).2.getD _ ∅).size + 1
        rw [hnext, hnext', hsize partition ha.1, hsize partition' hb.1]
        omega

/-! ## New names -/

theorem isLogicalId_decimal : ∀ i : Fin 128, isLogicalId (decimal i) := by decide +kernel

/-- More namespaces than two tenants may hold. -/
def candidates : List Namespace :=
  (List.finRange 128).map fun i : Fin 128 => ⟨decimal i, isLogicalId_decimal i⟩

theorem nodup_candidates : (candidates.map LogicalId.asStr).Nodup := by
  unfold candidates
  rw [List.map_map]
  refine List.Nodup.map (fun i j h => ?_) (List.nodup_finRange 128)
  exact Fin.ext (decimal_injective h)

/-- A tenant with at most the allowed namespaces leaves names for as many others. -/
theorem exists_new_namespaces (tenant : Tenant γ) (hsize : tenant.size ≤ maxTenantNamespaces)
    {n : ℕ} (hn : n ≤ maxTenantNamespaces) :
    ∃ scopes : List Namespace, scopes.length = n ∧
      scopes.Pairwise (fun a b => a.asStr ≠ b.asStr) ∧
      ∀ scope ∈ scopes, tenant[scope.asStr]? = none := by
  let taken : Namespace → Bool := fun scope => tenant.contains scope.asStr
  have htaken : (candidates.filter taken).length ≤ tenant.size := by
    rw [← List.length_map LogicalId.asStr, ← Std.ExtTreeMap.length_keys]
    refine (List.subperm_of_subset ?_ fun name hname => ?_).length_le
    · exact nodup_candidates.sublist (List.filter_sublist.map _)
    · obtain ⟨scope, hscope, rfl⟩ := List.mem_map.mp hname
      rw [Std.ExtTreeMap.mem_keys, ← Std.ExtTreeMap.contains_iff_mem]
      exact (List.mem_filter.mp hscope).2
  have hsplit := List.length_eq_length_filter_add (l := candidates) taken
  have hcandidates : candidates.length = 128 := by
    unfold candidates
    rw [List.length_map, List.length_finRange]
  refine ⟨(candidates.filter fun scope => !taken scope).take n, ?_, ?_, fun scope hscope => ?_⟩
  · rw [List.length_take]
    unfold maxTenantNamespaces at hsize hn
    omega
  · exact (List.pairwise_map.mp nodup_candidates).sublist
      ((List.take_sublist _ _).trans List.filter_sublist)
  · have hfree := (List.mem_filter.mp (List.mem_of_mem_take hscope)).2
    rw [Bool.not_eq_true', show taken scope = tenant.contains scope.asStr from rfl,
      Std.ExtTreeMap.contains_eq_isSome_getElem?] at hfree
    exact Option.not_isSome_iff_eq_none.mp (Bool.eq_false_iff.mp hfree)

/-! ## The trace of a failed write -/

/-- A namespace left behind by a write shows in later calls. -/
theorem outputs_ne_of_new_namespace (env : ω) {tenants tenants' : Tenants γ} {tenantId : TenantId}
    {scope : String} {partition : Partition γ}
    (hnew : (tenants.getD tenantId.asStr ∅)[scope]? = none)
    (hroom : (tenants.getD tenantId.asStr ∅).size < maxTenantNamespaces)
    (hleft : tenants'.getD tenantId.asStr ∅ = (tenants.getD tenantId.asStr ∅).insert scope partition) :
    ∃ later, (machine G).outputs tenants' later ≠ (machine G).outputs tenants later := by
  have hsize : ((tenants.getD tenantId.asStr ∅).insert scope partition).size =
      (tenants.getD tenantId.asStr ∅).size + 1 := by
    rw [Std.ExtTreeMap.size_insert, if_neg]
    rw [Std.ExtTreeMap.contains_eq_isSome_getElem?, hnew]
    exact Bool.false_ne_true
  obtain ⟨scopes, hlength, hdistinct, hfree⟩ := exists_new_namespaces
    ((tenants.getD tenantId.asStr ∅).insert scope partition) (by omega)
    (Nat.sub_le maxTenantNamespaces (tenants.getD tenantId.asStr ∅).size)
  let records := scopes.map fun scope => plainRecord tenantId scope "content"
  have hfree' : ∀ scope ∈ scopes, (tenants.getD tenantId.asStr ∅)[scope.asStr]? = none := by
    intro other hother
    have hnone := hfree other hother
    rw [Std.ExtTreeMap.getElem?_insert] at hnone
    by_cases hscope : compare scope other.asStr = .eq
    · rw [if_pos hscope] at hnone
      cases hnone
    · rwa [if_neg hscope] at hnone
  refine ⟨records.map (.put env), (outputs_ne_of_size tenantId env ?_ ?_ ?_ ?_ ?_ ?_ ?_ ?_).symm⟩
  · intro hnil
    have := congrArg List.length (List.map_eq_nil_iff.mp hnil)
    rw [hlength, List.length_nil] at this
    omega
  · intro record hrecord
    obtain ⟨other, -, rfl⟩ := List.mem_map.mp hrecord
    exact validateRecord_plainRecord _ _ (by decide +kernel) (by decide +kernel)
  · intro record hrecord
    obtain ⟨other, -, rfl⟩ := List.mem_map.mp hrecord
    rfl
  · rw [List.pairwise_map]
    exact hdistinct
  · intro record hrecord
    obtain ⟨other, hother, rfl⟩ := List.mem_map.mp hrecord
    exact hfree' other hother
  · intro record hrecord
    obtain ⟨other, hother, rfl⟩ := List.mem_map.mp hrecord
    rw [hleft]
    exact hfree other hother
  · rw [List.length_map, hlength]
    omega
  · rw [hleft, hsize]

/-- The write is refused before the vendor is asked, or its namespace is there already. -/
def NamespaceSettled (tenants : Tenants γ) (record : MemoryRecord) : Prop :=
  ¬(validateRecord record).isOk ∨
  ¬(checkRoom (tenants.getD record.tenantId.asStr ∅) record).isOk ∨
  record.namespace.asStr ∈ tenants.getD record.tenantId.asStr ∅

instance (tenants : Tenants γ) (record : MemoryRecord) :
    Decidable (NamespaceSettled tenants record) :=
  inferInstanceAs (Decidable (_ ∨ _ ∨ _))

/-- A failed write whose namespace is settled leaves the store as it was. -/
theorem put_unchanged (hatomic : G.Atomic) {tenants : Tenants γ} (hgraphs : HasGraphs tenants)
    {env : ω} {record : MemoryRecord} {e : MemoryError}
    (hfailed : (put G env tenants record).1 = .error e) (h : NamespaceSettled tenants record) :
    (put G env tenants record).2 = tenants := by
  rw [put_eq] at hfailed ⊢
  cases hchecks : (validateRecord record >>= fun _ =>
      checkRoom (tenants.getD record.tenantId.asStr ∅) record) with
  | error e' => simp only [hchecks]
  | ok _ =>
    obtain ⟨⟨⟩, hvalid, hroom⟩ := bind_eq_ok.mp hchecks
    simp only [hchecks] at hfailed ⊢
    obtain ⟨partition, hpartition⟩ : ∃ partition,
        (tenants.getD record.tenantId.asStr ∅)[record.namespace.asStr]? = some partition := by
      rcases h with h | h | h
      · exact absurd (by rw [hvalid]; rfl) h
      · exact absurd (by rw [hroom]; rfl) h
      · exact Option.isSome_iff_exists.mp (Std.ExtTreeMap.mem_iff_isSome_getElem?.mp h)
    obtain ⟨graph, hgraph⟩ := Option.isSome_iff_exists.mp
      (hgraphs.getD record.tenantId.asStr record.namespace.asStr partition hpartition)
    have hheld : (tenants.getD record.tenantId.asStr ∅).getD record.namespace.asStr default =
        partition := by
      rw [Std.ExtTreeMap.getD_eq_getD_getElem?, hpartition, Option.getD_some]
    obtain ⟨tenant, htenant⟩ : ∃ tenant, tenants[record.tenantId.asStr]? = some tenant := by
      cases htenant : tenants[record.tenantId.asStr]? with
      | some tenant => exact ⟨tenant, rfl⟩
      | none =>
        rw [Std.ExtTreeMap.getD_eq_getD_getElem?, htenant, Option.getD_none,
          Std.ExtTreeMap.getElem?_empty] at hpartition
        cases hpartition
    have hsame : insertRecord G env partition record = (.error .adapterFailure, partition) := by
      rcases hadd : G.addNode env (graphMut G partition) (eventOf record) with ⟨added, graph'⟩
      cases added with
      | error _ =>
        have hkept : graph' = graph := by
          rw [hatomic _ _ _ _ hadd]
          unfold graphMut
          rw [hgraph]
          rfl
        rw [insertRecord_failed hadd, hkept, ← hgraph]
      | ok id =>
        rw [hheld] at hfailed
        cases hkey : partition.ids[record.key.asStr]? with
        | none => rw [insertRecord_created hadd hkey] at hfailed; cases hfailed
        | some previous => rw [insertRecord_replaced hadd hkey] at hfailed; cases hfailed
    have hgetD : tenants.getD record.tenantId.asStr ∅ = tenant := by
      rw [Std.ExtTreeMap.getD_eq_getD_getElem?, htenant, Option.getD_some]
    rw [hheld, hsame]
    simp only [BTreeMap.insert_of_getElem?_some hpartition]
    rw [hgetD, BTreeMap.insert_of_getElem?_some htenant]

/-- In every reachable state, a failed write leaves no trace in any later calls exactly when it is
refused before the vendor is asked or its namespace is there already. -/
theorem failed_put_traceless_iff (hatomic : G.Atomic) (calls : List (Call ω)) {env : ω}
    {record : MemoryRecord} {e : MemoryError}
    (hfailed : (put G env ((machine G).final ∅ calls) record).1 = .error e) :
    (∀ later, (machine G).outputs (put G env ((machine G).final ∅ calls) record).2 later =
      (machine G).outputs ((machine G).final ∅ calls) later) ↔
    NamespaceSettled ((machine G).final ∅ calls) record := by
  constructor
  · intro htraceless
    by_contra h
    unfold NamespaceSettled at h
    push Not at h
    obtain ⟨hvalid, hroom, hnew⟩ := h
    obtain ⟨⟨⟩, hvalid⟩ := isOk_iff.mp hvalid
    obtain ⟨⟨⟩, hroom⟩ := isOk_iff.mp hroom
    rw [Std.ExtTreeMap.mem_iff_isSome_getElem?, Option.not_isSome_iff_eq_none] at hnew
    have hsize : (((machine G).final ∅ calls).getD record.tenantId.asStr ∅).size <
        maxTenantNamespaces := by
      rw [checkRoom_new hnew] at hroom
      by_contra hfull
      rw [if_pos (Nat.not_lt.mp hfull)] at hroom
      cases hroom
    obtain ⟨-, partition, hleft⟩ := put_new (G := G) env hvalid hnew hsize
    obtain ⟨later, hlater⟩ := outputs_ne_of_new_namespace (G := G) env hnew hsize hleft
    exact hlater (htraceless later)
  · intro h later
    rw [put_unchanged hatomic (hasGraphs_final calls) hfailed h]

theorem sequential_atomic {fails : ω → Bool} : (sequential fails).Atomic := by
  intro env graph event graph' h
  change (if fails env then (Except.error (), graph) else (.ok graph.next, graph.add event)) = _ at h
  by_cases hfails : fails env
  · rw [if_pos hfails] at h
    exact (Prod.mk.inj h).2.symm
  · rw [if_neg hfails] at h
    cases h

/-- A record of the tenant `acme` in the namespace `notes`. -/
def acmeRecord : MemoryRecord :=
  plainRecord ⟨"acme", .refl true⟩ ⟨"notes", .refl true⟩ "content"

/-- After a write to the namespace, a write that the vendor fails leaves no trace. -/
theorem failed_put_traceless_sample :
    let G := sequential fun env : Bool => env
    let tenants := (machine G).final ∅ [.put false acmeRecord]
    (put G true tenants acmeRecord).1 = .error .adapterFailure ∧
      ∀ later, (machine G).outputs (put G true tenants acmeRecord).2 later =
        (machine G).outputs tenants later := by
  have hfailed : (put (sequential fun env : Bool => env) true
      ((machine (sequential fun env : Bool => env)).final ∅ [.put false acmeRecord])
      acmeRecord).1 = .error .adapterFailure := by
    decide +kernel
  exact ⟨hfailed, (failed_put_traceless_iff sequential_atomic [.put false acmeRecord] hfailed).mpr
    (by decide +kernel)⟩

/-- In the empty store, a write that the vendor fails leaves its namespace behind, and later calls
show it. -/
theorem failed_put_leaves_namespace :
    let G := sequential fun env : Bool => env
    (put G true ∅ acmeRecord).1 = .error .adapterFailure ∧
      ((put G true ∅ acmeRecord).2.getD "acme" ∅).size = 1 ∧
      ¬∀ later, (machine G).outputs (put G true ∅ acmeRecord).2 later =
        (machine G).outputs ∅ later := by
  refine ⟨by decide +kernel, by decide +kernel, fun htraceless => ?_⟩
  have hempty : (∅ : Tenants SequentialGraph).getD acmeRecord.tenantId.asStr ∅ = ∅ :=
    Std.ExtTreeMap.getD_empty
  have hvalid : validateRecord acmeRecord = .ok () := by decide +kernel
  have hnew : ((∅ : Tenants SequentialGraph).getD acmeRecord.tenantId.asStr ∅)[
      acmeRecord.namespace.asStr]? = none := by
    rw [hempty, Std.ExtTreeMap.getElem?_empty]
  have hroom : ((∅ : Tenants SequentialGraph).getD acmeRecord.tenantId.asStr ∅).size <
      maxTenantNamespaces := by
    rw [hempty, Std.ExtTreeMap.size_empty]
    decide
  obtain ⟨-, partition, hleft⟩ := put_new (G := sequential fun env : Bool => env) true hvalid hnew
    hroom
  obtain ⟨later, hlater⟩ := outputs_ne_of_new_namespace (G := sequential fun env : Bool => env) true
    hnew hroom hleft
  exact hlater (htraceless later)

end Agentic

end RustFactory.Memory
