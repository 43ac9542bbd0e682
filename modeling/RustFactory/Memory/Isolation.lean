import RustFactory.Memory.Local

/-!
# Memory: tenants do not interfere

The in-process store is a product of stores with one tenant each: a call reads and writes the entry
of its own tenant and no other.  So what a tenant is answered depends on its own calls alone,
refusals at a capacity included.  No entry is ever left empty, and none grows past its ceiling.
-/

namespace RustFactory.Memory

open Lib

def Call.tenant {ω : Type} : Call ω → TenantId
  | .put _ record => record.tenantId
  | .get tenantId _ _ => tenantId
  | .query tenantId _ _ => tenantId
  | .delete _ tenantId _ _ => tenantId

namespace Local

/-! ## One tenant -/

/-- A write to what a tenant holds, if it holds anything. -/
def tenantPut (held : Option Tenant) (record : MemoryRecord) :
    Except MemoryError WriteOutcome × Option Tenant :=
  let tenant := held.getD ∅
  match validateRecord record >>= fun _ => checkRoom tenant record with
  | .error e => (.error e, held)
  | .ok _ =>
    let partition := tenant.getD record.namespace.asStr ∅
    (.ok (if partition.contains record.key.asStr then .replaced else .created),
      some (tenant.insert record.namespace.asStr (partition.insert record.key.asStr record)))

/-- The tenant without a key, emptied partitions reclaimed. -/
def withoutKey (tenant : Tenant) (scope key : String) (partition : Partition) : Tenant :=
  if (partition.erase key).isEmpty then tenant.erase scope
  else tenant.insert scope (partition.erase key)

/-- What a delete does to the tenant's own records. -/
def tenantDelete (held : Option Tenant) (scope key : String) :
    Except MemoryError Bool × Option Tenant :=
  match held with
  | none => (.ok false, none)
  | some tenant =>
    match tenant[scope]? with
    | none => (.ok false, some tenant)
    | some partition =>
      (.ok (partition.contains key),
        if (withoutKey tenant scope key partition).isEmpty then none
        else some (withoutKey tenant scope key partition))

/-- What a call does to the tenant's own records. -/
def tenantStep {ω : Type} (held : Option Tenant) : Call ω → Answer × Option Tenant
  | .put _ record => (.put (tenantPut held record).1, (tenantPut held record).2)
  | .get _ scope key =>
    (.get (.ok ((held.bind fun tenant => tenant[scope.asStr]?).bind
      fun partition => partition[key.asStr]?)), held)
  | .query _ scope filter =>
    (.query (validateQuery filter >>= fun _ =>
      match held.bind fun tenant => tenant[scope.asStr]? with
      | none => .ok []
      | some partition =>
        .ok (((partition.toList.map Prod.snd).filter filter.matches).take filter.limit)), held)
  | .delete _ _ scope key =>
    (.delete (tenantDelete held scope.asStr key.asStr).1,
      (tenantDelete held scope.asStr key.asStr).2)

/-! ## The store is a product of tenants -/

theorem put_eq_tenantPut (tenants : Tenants) (record : MemoryRecord) :
    (put tenants record).1 = (tenantPut tenants[record.tenantId.asStr]? record).1 ∧
    ∀ id : String, (put tenants record).2[id]? =
      if record.tenantId.asStr = id then (tenantPut tenants[record.tenantId.asStr]? record).2
      else tenants[id]? := by
  rw [put_eq]
  unfold tenantPut
  simp only [Std.ExtTreeMap.getD_eq_getD_getElem?]
  cases validateRecord record >>= fun _ =>
      checkRoom (tenants[record.tenantId.asStr]?.getD ∅) record with
  | error e =>
    refine ⟨rfl, fun id => ?_⟩
    by_cases hid : record.tenantId.asStr = id
    · rw [if_pos hid, hid]
    · rw [if_neg hid]
  | ok _ =>
    refine ⟨rfl, fun id => ?_⟩
    by_cases hid : record.tenantId.asStr = id
    · subst hid
      rw [if_pos rfl, Std.ExtTreeMap.getElem?_insert_self]
    · rw [if_neg hid, BTreeMap.getElem?_insert_of_ne hid]

theorem delete_eq_tenantDelete (tenants : Tenants) (tenantId : TenantId) (scope : Namespace)
    (key : RecordKey) :
    (delete tenants tenantId scope key).1 =
      (tenantDelete tenants[tenantId.asStr]? scope.asStr key.asStr).1 ∧
    ∀ id : String, (delete tenants tenantId scope key).2[id]? =
      if tenantId.asStr = id then (tenantDelete tenants[tenantId.asStr]? scope.asStr key.asStr).2
      else tenants[id]? := by
  unfold delete tenantDelete
  cases htenant : tenants[tenantId.asStr]? with
  | none =>
    refine ⟨rfl, fun id => ?_⟩
    by_cases hid : tenantId.asStr = id
    · rw [if_pos hid, ← hid]
      exact htenant
    · rw [if_neg hid]
  | some tenant =>
    simp only
    cases hpartition : tenant[scope.asStr]? with
    | none =>
      refine ⟨rfl, fun id => ?_⟩
      by_cases hid : tenantId.asStr = id
      · rw [if_pos hid, ← hid]
        exact htenant
      · rw [if_neg hid]
    | some partition =>
      refine ⟨rfl, fun id => ?_⟩
      change (if (withoutKey tenant scope.asStr key.asStr partition).isEmpty then
          tenants.erase tenantId.asStr
        else tenants.insert tenantId.asStr
          (withoutKey tenant scope.asStr key.asStr partition))[id]? = _
      by_cases hempty : (withoutKey tenant scope.asStr key.asStr partition).isEmpty
      · simp only [if_pos hempty]
        by_cases hid : tenantId.asStr = id
        · subst hid
          rw [if_pos rfl, Std.ExtTreeMap.getElem?_erase_self]
        · rw [if_neg hid, BTreeMap.getElem?_erase_of_ne hid]
      · simp only [if_neg hempty]
        by_cases hid : tenantId.asStr = id
        · subst hid
          rw [if_pos rfl, Std.ExtTreeMap.getElem?_insert_self]
        · rw [if_neg hid, BTreeMap.getElem?_insert_of_ne hid]

/-- A call is answered from the entry of its tenant and changes that entry alone. -/
theorem step_eq_tenantStep {ω : Type} (tenants : Tenants) (call : Call ω) :
    (step tenants call).1 = (tenantStep tenants[call.tenant.asStr]? call).1 ∧
    ∀ id : String, (step tenants call).2[id]? =
      if call.tenant.asStr = id then (tenantStep tenants[call.tenant.asStr]? call).2
      else tenants[id]? := by
  have hread : ∀ id' id : String, tenants[id]? = if id' = id then tenants[id']? else tenants[id]? := by
    intro id' id
    by_cases hid : id' = id
    · rw [if_pos hid, hid]
    · rw [if_neg hid]
  cases call with
  | put env record =>
    obtain ⟨hanswer, hentry⟩ := put_eq_tenantPut tenants record
    exact ⟨congrArg Answer.put hanswer, hentry⟩
  | get tenantId scope key => exact ⟨rfl, hread tenantId.asStr⟩
  | query tenantId scope filter => exact ⟨rfl, hread tenantId.asStr⟩
  | delete env tenantId scope key =>
    obtain ⟨hanswer, hentry⟩ := delete_eq_tenantDelete tenants tenantId scope key
    exact ⟨congrArg Answer.delete hanswer, hentry⟩

/-! ## Noninterference -/

/-- The calls of a tenant. -/
def callsOf {ω : Type} (tenantId : TenantId) (call : Call ω) : Bool := call.tenant == tenantId

/-- The answers to the calls of a tenant are those it would get alone. -/
theorem outputsOf_tenant {ω : Type} (tenantId : TenantId) (run : List (Call ω)) :
    (machine ω).outputsOf (callsOf tenantId) ∅ run =
      (machine ω).outputs ∅ (run.filter (callsOf tenantId)) := by
  refine Machine.outputsOf_eq_outputs
    (R := fun s t => s[tenantId.asStr]? = t[tenantId.asStr]?) ?_ ?_ rfl run
  · intro s t call hview hcall
    have htenant : call.tenant = tenantId := beq_iff_eq.mp hcall
    subst htenant
    obtain ⟨hs, hsnext⟩ := step_eq_tenantStep s call
    obtain ⟨ht, htnext⟩ := step_eq_tenantStep t call
    refine ⟨?_, ?_⟩
    · show (step s call).1 = (step t call).1
      rw [hs, ht, hview]
    · show (step s call).2[call.tenant.asStr]? = (step t call).2[call.tenant.asStr]?
      rw [hsnext, htnext, if_pos rfl, if_pos rfl, hview]
  · intro s t call hview hcall
    have hne : call.tenant.asStr ≠ tenantId.asStr := by
      intro hsame
      exact hcall (beq_iff_eq.mpr (LogicalId.asStr_injective hsame))
    show (step s call).2[tenantId.asStr]? = t[tenantId.asStr]?
    rw [(step_eq_tenantStep s call).2, if_neg hne, hview]

/-! ## Reachable states -/

/-- A partition holds something, not too much, and each record under its own names. -/
structure PartitionInv (tenantId scope : String) (partition : Partition) : Prop where
  nonempty : partition ≠ ∅
  size_le : partition.size ≤ maxPartitionRecords
  own : BTreeMap.Forall (fun key record => record.tenantId.asStr = tenantId ∧
    record.namespace.asStr = scope ∧ record.key.asStr = key) partition

/-- What is true of the records of a tenant. -/
structure TenantInv (tenantId : String) (tenant : Tenant) : Prop where
  nonempty : tenant ≠ ∅
  size_le : tenant.size ≤ maxTenantNamespaces
  partitions : BTreeMap.Forall (PartitionInv tenantId) tenant

theorem checkRoom_eq_ok {tenant : Tenant} {record : MemoryRecord}
    (h : checkRoom tenant record = .ok ()) :
    (tenant[record.namespace.asStr]? = none → tenant.size < maxTenantNamespaces) ∧
    ∀ partition, tenant[record.namespace.asStr]? = some partition →
      record.key.asStr ∉ partition → partition.size < maxPartitionRecords := by
  simp only [checkRoom, checkCapacity] at h
  split_ifs at h with hscopes hrecords
  refine ⟨fun hnone => ?_, fun partition hsome hkey => ?_⟩
  · rw [hnone] at hscopes
    simpa using hscopes
  · rw [hsome] at hrecords
    have hcontains : partition.contains record.key.asStr = false := by
      rwa [Bool.eq_false_iff, ne_eq, Std.ExtTreeMap.contains_iff_mem]
    rw [Option.all_some, Option.elim_some, hcontains, Bool.not_false, Bool.true_and,
      decide_eq_true_eq, Nat.not_le] at hrecords
    exact hrecords

theorem PartitionInv.insert {tenantId scope : String} {partition : Partition}
    (hown : BTreeMap.Forall (fun key record => record.tenantId.asStr = tenantId ∧
      record.namespace.asStr = scope ∧ record.key.asStr = key) partition)
    (hsize : partition.size ≤ maxPartitionRecords) {record : MemoryRecord}
    (hroom : record.key.asStr ∉ partition → partition.size < maxPartitionRecords)
    (htenant : record.tenantId.asStr = tenantId) (hscope : record.namespace.asStr = scope) :
    PartitionInv tenantId scope (partition.insert record.key.asStr record) where
  nonempty := Std.ExtTreeMap.insert_ne_empty
  size_le := BTreeMap.size_insert_le_of hsize hroom record
  own := hown.insert ⟨htenant, hscope, rfl⟩

theorem TenantInv.tenantPut {held : Option Tenant} {record : MemoryRecord}
    (h : ∀ tenant ∈ held, TenantInv record.tenantId.asStr tenant) :
    ∀ tenant ∈ (tenantPut held record).2, TenantInv record.tenantId.asStr tenant := by
  -- A tenant that holds nothing yet has all of the invariant but the first clause.
  have hsize : (held.getD ∅).size ≤ maxTenantNamespaces := by
    cases held with
    | none => exact Nat.zero_le _
    | some tenant => exact (h tenant rfl).size_le
  have hpartitions : BTreeMap.Forall (PartitionInv record.tenantId.asStr) (held.getD ∅) := by
    cases held with
    | none => exact BTreeMap.Forall.empty
    | some tenant => exact (h tenant rfl).partitions
  unfold Local.tenantPut
  cases hroom : validateRecord record >>= fun _ => checkRoom (held.getD ∅) record with
  | error e => simpa only [hroom] using h
  | ok _ =>
    simp only [hroom]
    rintro tenant ⟨⟩
    obtain ⟨_, -, hcheck⟩ := bind_eq_ok.mp hroom
    obtain ⟨hscopes, hrecords⟩ := checkRoom_eq_ok hcheck
    rw [Std.ExtTreeMap.getD_eq_getD_getElem?]
    refine ⟨Std.ExtTreeMap.insert_ne_empty, ?_, hpartitions.insert ?_⟩
    · exact BTreeMap.size_insert_le_of hsize (fun hnew => hscopes (Std.ExtTreeMap.getElem?_eq_none hnew)) _
    · cases hheld : (held.getD ∅)[record.namespace.asStr]? with
      | none =>
        rw [Option.getD_none]
        exact PartitionInv.insert BTreeMap.Forall.empty (Nat.zero_le _) (fun _ => by decide) rfl rfl
      | some partition =>
        have hinv := hpartitions _ _ hheld
        rw [Option.getD_some]
        exact PartitionInv.insert hinv.own hinv.size_le (hrecords partition hheld) rfl rfl

theorem TenantInv.tenantDelete {tenantId : String} {held : Option Tenant}
    (h : ∀ tenant ∈ held, TenantInv tenantId tenant) (scope key : String) :
    ∀ tenant ∈ (tenantDelete held scope key).2, TenantInv tenantId tenant := by
  cases held with
  | none => exact h
  | some tenant =>
    have hinv := h tenant rfl
    unfold Local.tenantDelete
    cases hpartition : tenant[scope]? with
    | none => simpa only [hpartition] using h
    | some partition =>
      have hheld := hinv.partitions scope partition hpartition
      have hscope : scope ∈ tenant :=
        Std.ExtTreeMap.mem_iff_isSome_getElem?.mpr (by rw [hpartition]; rfl)
      simp only [hpartition]
      by_cases hempty : (withoutKey tenant scope key partition).isEmpty
      · rw [if_pos hempty]
        nofun
      · rw [if_neg hempty]
        rintro _ ⟨⟩
        refine ⟨by rwa [Std.ExtTreeMap.isEmpty_iff] at hempty, ?_, ?_⟩
        · unfold withoutKey
          by_cases hlast : (partition.erase key).isEmpty
          · rw [if_pos hlast]
            exact Std.ExtTreeMap.size_erase_le.trans hinv.size_le
          · rw [if_neg hlast]
            exact BTreeMap.size_insert_le_of hinv.size_le (fun hnew => absurd hscope hnew) _
        · unfold withoutKey
          by_cases hlast : (partition.erase key).isEmpty
          · rw [if_pos hlast]
            exact hinv.partitions.erase scope
          · rw [if_neg hlast]
            rw [Std.ExtTreeMap.isEmpty_iff] at hlast
            exact hinv.partitions.insert ⟨hlast,
              Std.ExtTreeMap.size_erase_le.trans hheld.size_le, hheld.own.erase key⟩

/-- A step keeps the invariant of every tenant. -/
theorem tenantInv_step {ω : Type} {tenants : Tenants} (h : BTreeMap.Forall TenantInv tenants)
    (call : Call ω) : BTreeMap.Forall TenantInv (step tenants call).2 := by
  intro id tenant htenant
  rw [(step_eq_tenantStep tenants call).2] at htenant
  by_cases hid : call.tenant.asStr = id
  · subst hid
    rw [if_pos rfl] at htenant
    have hheld : ∀ tenant ∈ tenants[call.tenant.asStr]?, TenantInv call.tenant.asStr tenant :=
      fun tenant htenant => h _ tenant htenant
    cases call with
    | put env record => exact TenantInv.tenantPut hheld tenant htenant
    | get tenantId scope key => exact hheld tenant htenant
    | query tenantId scope filter => exact hheld tenant htenant
    | delete env tenantId scope key => exact TenantInv.tenantDelete hheld _ _ tenant htenant
  · rw [if_neg hid] at htenant
    exact h id tenant htenant

/-- Two runs with the same calls of a tenant answer them alike, whatever the other tenants do; and
in every reachable state no tenant and no partition is empty or past its ceiling, and each record
lies under its own names. -/
theorem noninterference (ω : Type) :
    (∀ (tenantId : TenantId) (run run' : List (Call ω)),
      run.filter (callsOf tenantId) = run'.filter (callsOf tenantId) →
      (machine ω).outputsOf (callsOf tenantId) ∅ run =
        (machine ω).outputsOf (callsOf tenantId) ∅ run') ∧
    ∀ run : List (Call ω), BTreeMap.Forall TenantInv ((machine ω).final ∅ run) := by
  refine ⟨fun tenantId run run' hsame => ?_, fun run => ?_⟩
  · rw [outputsOf_tenant, outputsOf_tenant, hsame]
  · exact Machine.invariant_final (P := BTreeMap.Forall TenantInv)
      (fun _ call h => tenantInv_step h call) BTreeMap.Forall.empty run

/-- A write of another tenant between a write and a read does not show. -/
theorem noninterference_sample :
    let a : TenantId := ⟨"a", .refl true⟩
    let b : TenantId := ⟨"b", .refl true⟩
    let scope : Namespace := ⟨"notes", .refl true⟩
    let own := plainRecord a scope "own"
    (machine Unit).outputsOf (callsOf a) ∅
        [.put () own, .put () (plainRecord b scope "other"), .get a scope own.key] =
      (machine Unit).outputsOf (callsOf a) ∅ [.put () own, .get a scope own.key] := by
  intro a b scope own
  exact (noninterference Unit).1 a _ _ rfl

end Local

end RustFactory.Memory
