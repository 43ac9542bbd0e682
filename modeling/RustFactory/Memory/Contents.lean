import RustFactory.Memory.Isolation
import RustFactory.Memory.Service

/-!
# Memory: what is returned

The nested maps of the in-process store hold the same records as a flat map from addresses, which
every accepted write and every removal changes at one place (`lookup_final`).  A query reads a
namespace of this map in the order of its keys.  The service believes no store: a record that the
request did not address is taken out of the answer.
-/

namespace RustFactory.Memory

open Lib

/-- The record at each address. -/
abbrev Contents := TenantId → Namespace → RecordKey → Option MemoryRecord

/-- What a call and its answer do to the records: an accepted write replaces the record at its
address, and a removal leaves none there. -/
def Contents.after {ω : Type} (contents : Contents) : Call ω → Answer → Contents
  | .put _ record, .put (.ok _) => fun tenantId scope key =>
    if record.tenantId = tenantId ∧ record.namespace = scope ∧ record.key = key then some record
    else contents tenantId scope key
  | .delete _ ofTenant ofScope ofKey, _ => fun tenantId scope key =>
    if ofTenant = tenantId ∧ ofScope = scope ∧ ofKey = key then none
    else contents tenantId scope key
  | _, _ => contents

/-- The records after a history of calls and answers. -/
def contentsOf {ω : Type} (history : List (Call ω × Answer)) : Contents :=
  history.foldl (fun contents entry => contents.after entry.1 entry.2) fun _ _ _ => none

namespace Local

/-! ## One tenant -/

/-- The record that a tenant holds. -/
def heldRecord (held : Option Tenant) (scope key : String) : Option MemoryRecord :=
  (held.bind fun tenant => tenant[scope]?).bind fun partition => partition[key]?

theorem heldRecord_getD (held : Option Tenant) (scope key : String) :
    heldRecord (some (held.getD ∅)) scope key = heldRecord held scope key := by
  cases held with
  | some tenant => rfl
  | none =>
    unfold heldRecord
    rw [Option.getD_none, Option.bind_some, Std.ExtTreeMap.getElem?_empty]
    rfl

theorem heldRecord_insert (tenant : Tenant) (record : MemoryRecord) (scope key : String) :
    heldRecord (some (tenant.insert record.namespace.asStr
      ((tenant.getD record.namespace.asStr ∅).insert record.key.asStr record))) scope key =
      if record.namespace.asStr = scope ∧ record.key.asStr = key then some record
      else heldRecord (some tenant) scope key := by
  unfold heldRecord
  rw [Option.bind_some, Option.bind_some]
  by_cases hscope : record.namespace.asStr = scope
  · subst hscope
    rw [Std.ExtTreeMap.getElem?_insert_self, Option.bind_some]
    by_cases hkey : record.key.asStr = key
    · rw [if_pos ⟨rfl, hkey⟩, ← hkey, Std.ExtTreeMap.getElem?_insert_self]
    · rw [if_neg (fun h => hkey h.2), BTreeMap.getElem?_insert_of_ne hkey,
        Std.ExtTreeMap.getD_eq_getD_getElem?]
      cases tenant[record.namespace.asStr]? with
      | some partition => rfl
      | none => exact Std.ExtTreeMap.getElem?_empty
  · rw [if_neg (fun h => hscope h.1), BTreeMap.getElem?_insert_of_ne hscope]

/-- A write is refused without a trace, or changes its own place. -/
theorem heldRecord_tenantPut (held : Option Tenant) (record : MemoryRecord) :
    (∃ e, tenantPut held record = (.error e, held)) ∨
      ∃ outcome held', tenantPut held record = (.ok outcome, held') ∧
        ∀ scope key, heldRecord held' scope key =
          if record.namespace.asStr = scope ∧ record.key.asStr = key then some record
          else heldRecord held scope key := by
  unfold tenantPut
  dsimp only
  cases hroom : validateRecord record >>= fun _ => checkRoom (held.getD ∅) record with
  | error e => exact .inl ⟨e, rfl⟩
  | ok _ =>
    refine .inr ⟨_, _, rfl, fun scope key => ?_⟩
    rw [heldRecord_insert, heldRecord_getD]

theorem heldRecord_withoutKey (tenant : Tenant) (scope key : String) {partition : Partition}
    (h : tenant[scope]? = some partition) (scope' key' : String) :
    heldRecord (some (withoutKey tenant scope key partition)) scope' key' =
      if scope = scope' ∧ key = key' then none else heldRecord (some tenant) scope' key' := by
  have herased : (partition.erase key)[key']? = if key = key' then none else partition[key']? := by
    by_cases hkey : key = key'
    · rw [if_pos hkey, ← hkey, Std.ExtTreeMap.getElem?_erase_self]
    · rw [if_neg hkey, BTreeMap.getElem?_erase_of_ne hkey]
  unfold heldRecord withoutKey
  rw [Option.bind_some, Option.bind_some]
  by_cases hscope : scope = scope'
  · subst hscope
    rw [h, Option.bind_some]
    by_cases hlast : (partition.erase key).isEmpty
    · rw [if_pos hlast, Std.ExtTreeMap.getElem?_erase_self, Option.bind_none]
      rw [Std.ExtTreeMap.isEmpty_iff.mp hlast, Std.ExtTreeMap.getElem?_empty] at herased
      by_cases hkey : key = key'
      · rw [if_pos ⟨rfl, hkey⟩]
      · rw [if_neg (fun hboth => hkey hboth.2)]
        rwa [if_neg hkey] at herased
    · rw [if_neg hlast, Std.ExtTreeMap.getElem?_insert_self, Option.bind_some, herased]
      by_cases hkey : key = key'
      · rw [if_pos hkey, if_pos ⟨rfl, hkey⟩]
      · rw [if_neg hkey, if_neg (fun hboth => hkey hboth.2)]
  · rw [if_neg (show ¬(scope = scope' ∧ key = key') from fun hboth => hscope hboth.1)]
    by_cases hlast : (partition.erase key).isEmpty
    · rw [if_pos hlast, BTreeMap.getElem?_erase_of_ne hscope]
    · rw [if_neg hlast, BTreeMap.getElem?_insert_of_ne hscope]

theorem heldRecord_tenantDelete (held : Option Tenant) (scope key scope' key' : String) :
    heldRecord (tenantDelete held scope key).2 scope' key' =
      if scope = scope' ∧ key = key' then none else heldRecord held scope' key' := by
  cases held with
  | none => exact (ite_self _).symm
  | some tenant =>
    unfold tenantDelete
    cases hpartition : tenant[scope]? with
    | none =>
      simp only [hpartition]
      by_cases hboth : scope = scope' ∧ key = key'
      · rw [if_pos hboth, ← hboth.1]
        unfold heldRecord
        rw [Option.bind_some, hpartition, Option.bind_none]
      · rw [if_neg hboth]
    | some partition =>
      simp only [hpartition]
      rw [← heldRecord_withoutKey tenant scope key hpartition]
      by_cases hempty : (withoutKey tenant scope key partition).isEmpty
      · rw [if_pos hempty, Std.ExtTreeMap.isEmpty_iff.mp hempty]
        exact (heldRecord_getD none scope' key').symm
      · rw [if_neg hempty]

/-! ## All tenants -/

/-- The records of the store by address. -/
def lookup (tenants : Tenants) : Contents := fun tenantId scope key =>
  heldRecord tenants[tenantId.asStr]? scope.asStr key.asStr

/-- A step changes the flat map as its answer says. -/
theorem lookup_step {ω : Type} (tenants : Tenants) (call : Call ω) :
    lookup (step tenants call).2 = (lookup tenants).after call (step tenants call).1 := by
  obtain ⟨hanswer, hentry⟩ := step_eq_tenantStep tenants call
  funext tenantId scope key
  have hother : call.tenant ≠ tenantId → lookup (step tenants call).2 tenantId scope key =
      lookup tenants tenantId scope key := by
    intro hne
    unfold lookup
    rw [hentry, if_neg fun h => hne (LogicalId.asStr_injective h)]
  have hown : call.tenant = tenantId → lookup (step tenants call).2 tenantId scope key =
      heldRecord (tenantStep tenants[tenantId.asStr]? call).2 scope.asStr key.asStr := by
    rintro rfl
    unfold lookup
    rw [hentry, if_pos rfl]
  rw [hanswer]
  by_cases htenant : call.tenant = tenantId
  · rw [hown htenant]
    subst htenant
    cases call with
    | get => rfl
    | query => rfl
    | put env record =>
      show heldRecord (tenantPut tenants[record.tenantId.asStr]? record).2 _ _ =
        (lookup tenants).after (.put env record)
          (.put (tenantPut tenants[record.tenantId.asStr]? record).1) record.tenantId scope key
      rcases heldRecord_tenantPut tenants[record.tenantId.asStr]? record with
        ⟨e, h⟩ | ⟨outcome, held', h, hheld⟩
      · rw [h]
        rfl
      · rw [h]
        show heldRecord held' _ _ = if _ then _ else _
        rw [hheld]
        simp only [LogicalId.asStr_injective.eq_iff, true_and]
        rfl
    | delete env ofTenant ofScope ofKey =>
      show heldRecord (tenantDelete tenants[ofTenant.asStr]? _ _).2 _ _ = if _ then _ else _
      rw [heldRecord_tenantDelete]
      simp only [LogicalId.asStr_injective.eq_iff]
      show _ = if ofTenant = ofTenant ∧ _ then _ else _
      simp only [true_and]
      rfl
  · rw [hother htenant]
    cases call with
    | get => rfl
    | query => rfl
    | put env record =>
      have hne : ¬(record.tenantId = tenantId ∧ record.namespace = scope ∧ record.key = key) :=
        fun h => htenant h.1
      show _ = (lookup tenants).after (.put env record)
        (.put (tenantPut tenants[record.tenantId.asStr]? record).1) tenantId scope key
      cases (tenantPut tenants[record.tenantId.asStr]? record).1 with
      | error e => rfl
      | ok outcome => exact (if_neg hne).symm
    | delete env ofTenant ofScope ofKey => exact (if_neg fun h => htenant h.1).symm

/-- The store holds the records of its history. -/
theorem lookup_final {ω : Type} (calls : List (Call ω)) :
    lookup ((machine ω).final ∅ calls) =
      contentsOf (calls.zip ((machine ω).outputs ∅ calls)) := by
  have hfrom : ∀ (calls : List (Call ω)) (tenants : Tenants),
      lookup ((machine ω).final tenants calls) =
        (calls.zip ((machine ω).outputs tenants calls)).foldl
          (fun contents entry => contents.after entry.1 entry.2) (lookup tenants) := by
    intro calls
    induction calls with
    | nil => exact fun tenants => rfl
    | cons call calls ih =>
      intro tenants
      rw [Machine.final_cons, ih]
      show _ = List.foldl _ ((lookup tenants).after call (step tenants call).1) _
      rw [← lookup_step]
      rfl
  exact hfrom calls ∅

/-! ## Queries -/

/-- The records of a namespace, in the order of their keys. -/
structure Lists (contents : Contents) (tenantId : TenantId) (scope : Namespace)
    (all : List MemoryRecord) : Prop where
  ascending : all.Pairwise fun a b => a.key.asStr < b.key.asStr
  addressed : ∀ record ∈ all, record.tenantId = tenantId ∧ record.namespace = scope
  exact : ∀ record, record ∈ all ↔ contents tenantId scope record.key = some record

theorem PartitionInv.lists {tenantId : TenantId} {scope : Namespace} {partition : Partition}
    (h : PartitionInv tenantId.asStr scope.asStr partition) {contents : Contents}
    (hcontents : ∀ key : RecordKey, contents tenantId scope key = partition[key.asStr]?) :
    Lists contents tenantId scope (partition.toList.map Prod.snd) where
  ascending := by
    refine List.pairwise_map.mpr ((BTreeMap.ordered_toList partition).imp_of_mem ?_)
    intro a b ha hb hlt
    obtain ⟨-, -, hkey⟩ := h.own a.1 a.2 (BTreeMap.mem_toList.mp ha)
    obtain ⟨-, -, hkey'⟩ := h.own b.1 b.2 (BTreeMap.mem_toList.mp hb)
    rwa [hkey, hkey']
  addressed record hmem := by
    obtain ⟨entry, hentry, rfl⟩ := List.mem_map.mp hmem
    obtain ⟨htenant, hscope, -⟩ := h.own entry.1 entry.2 (BTreeMap.mem_toList.mp hentry)
    exact ⟨LogicalId.asStr_injective htenant, LogicalId.asStr_injective hscope⟩
  exact record := by
    rw [hcontents, List.mem_map]
    constructor
    · rintro ⟨entry, hentry, rfl⟩
      have hheld := BTreeMap.mem_toList.mp hentry
      obtain ⟨-, -, hkey⟩ := h.own entry.1 entry.2 hheld
      rwa [hkey]
    · intro hheld
      exact ⟨(record.key.asStr, record), BTreeMap.mem_toList.mpr hheld, rfl⟩

/-- A valid query answers the first matching records of the namespace. -/
theorem query_lists {tenants : Tenants} (h : BTreeMap.Forall TenantInv tenants)
    (tenantId : TenantId) (scope : Namespace) :
    ∃ all, Lists (lookup tenants) tenantId scope all ∧
      ∀ filter : MemoryQuery, query tenants tenantId scope filter =
        (validateQuery filter >>= fun _ => .ok ((all.filter filter.matches).take filter.limit)) := by
  unfold query
  cases hpartition : tenants[tenantId.asStr]?.bind fun tenant => tenant[scope.asStr]? with
  | none =>
    have hnone : ∀ key, lookup tenants tenantId scope key = none := by
      intro key
      unfold lookup heldRecord
      rw [hpartition, Option.bind_none]
    refine ⟨[], ⟨List.Pairwise.nil, nofun, fun record => ?_⟩, fun filter => ?_⟩
    · rw [hnone]
      exact iff_of_false nofun nofun
    · rw [List.filter_nil, List.take_nil]
  | some partition =>
    obtain ⟨tenant, htenant, hheld⟩ := Option.bind_eq_some_iff.mp hpartition
    refine ⟨_, PartitionInv.lists ((h _ tenant htenant).partitions _ partition hheld) ?_,
      fun filter => rfl⟩
    intro key
    unfold lookup heldRecord
    rw [hpartition, Option.bind_some]

end Local

/-! ## The service -/

namespace MemoryService

variable {σ : Type} {service : MemoryService σ} {context : MemoryContext} {scope : Namespace}

theorem isAddressed_iff {key : Option RecordKey} {record : MemoryRecord} :
    isAddressed context scope key record ↔ record.tenantId = context.tenantId ∧
      record.namespace = scope ∧ ∀ addressed ∈ key, record.key = addressed := by
  unfold isAddressed
  rw [Bool.and_eq_true, Bool.and_eq_true, decide_eq_true_eq, decide_eq_true_eq, and_assoc]
  cases key with
  | none => simp
  | some addressed => simp

theorem addressed_of_recall {key : RecordKey} {s : Logged σ} {record : MemoryRecord}
    (h : (service.«recall» context scope key s).1 = .ok (some record)) :
    record.tenantId = context.tenantId ∧ record.namespace = scope ∧ record.key = key := by
  unfold «recall» at h
  dsimp only at h
  cases hfound : (service.store.get context.tenantId scope key s.state).1 with
  | error e =>
    rw [hfound] at h
    cases h
  | ok found =>
    rw [hfound] at h
    obtain ⟨-, haddressed⟩ := Option.filter_eq_some_iff.mp (Except.ok.inj h)
    obtain ⟨htenant, hscope, hkey⟩ := isAddressed_iff.mp haddressed
    exact ⟨htenant, hscope, hkey key rfl⟩

theorem addressed_of_search {query : MemoryQuery} {s : Logged σ} {records : List MemoryRecord}
    (h : (service.search context scope query s).1 = .ok records) :
    records.length ≤ query.limit ∧
      ∀ record ∈ records, record.tenantId = context.tenantId ∧ record.namespace = scope := by
  unfold search at h
  cases hvalid : validateQuery query with
  | error e =>
    rw [hvalid] at h
    cases h
  | ok _ =>
    rw [hvalid] at h
    dsimp only at h
    split_ifs at h with hceiling
    cases hfound : (service.store.query context.tenantId scope query s.state).1 with
    | error e =>
      rw [hfound] at h
      cases h
    | ok found =>
      rw [hfound] at h
      obtain rfl := Except.ok.inj h
      refine ⟨List.length_take_le _ _, fun record hmem => ?_⟩
      have haddressed := (List.mem_filter.mp (List.mem_of_mem_take hmem)).2
      obtain ⟨htenant, hscope, -⟩ := isAddressed_iff.mp haddressed
      exact ⟨htenant, hscope⟩

end MemoryService

/-- Whatever the store answers, the service returns records of the addressed tenant and namespace
only, and from a recall only the one with the key.  After every run of the in-process store a query
answers the first matching records that its history left in the namespace. -/
theorem returned_records :
    (∀ (σ : Type) (service : MemoryService σ) (context : MemoryContext) (scope : Namespace)
      (s : Logged σ),
      (∀ (key : RecordKey) (record : MemoryRecord),
        (service.«recall» context scope key s).1 = .ok (some record) →
          record.tenantId = context.tenantId ∧ record.namespace = scope ∧ record.key = key) ∧
      ∀ (query : MemoryQuery) (records : List MemoryRecord),
        (service.search context scope query s).1 = .ok records →
          records.length ≤ query.limit ∧
            ∀ record ∈ records, record.tenantId = context.tenantId ∧ record.namespace = scope) ∧
    ∀ (ω : Type) (calls : List (Call ω)) (tenantId : TenantId) (scope : Namespace),
      ∃ all, Local.Lists (contentsOf (calls.zip ((Local.machine ω).outputs ∅ calls))) tenantId scope
          all ∧
        ∀ query : MemoryQuery,
          Local.query ((Local.machine ω).final ∅ calls) tenantId scope query =
            (validateQuery query >>= fun _ =>
              .ok ((all.filter query.matches).take query.limit)) := by
  refine ⟨fun σ service context scope s => ⟨fun key record h => ?_, fun query records h => ?_⟩,
    fun ω calls tenantId scope => ?_⟩
  · exact MemoryService.addressed_of_recall h
  · exact MemoryService.addressed_of_search h
  · rw [← Local.lookup_final]
    refine Local.query_lists ?_ tenantId scope
    exact Machine.invariant_final (P := BTreeMap.Forall Local.TenantInv)
      (fun _ call h => Local.tenantInv_step h call) BTreeMap.Forall.empty calls

/-- A record under the key `key`, of one tenant or another. -/
def sampleRecord (own : Bool) : MemoryRecord :=
  plainRecord (if own then ⟨"acme", .refl true⟩ else ⟨"other", .refl true⟩)
    ⟨"notes", .refl true⟩ "content"

/-- A store that answers every query with a record of another tenant as well. -/
def leakyStore : MemoryStore Unit where
  put _ s := (.error .adapterFailure, s)
  get _ _ _ s := (.ok (some (sampleRecord true)), s)
  query _ _ _ s := (.ok [sampleRecord false, sampleRecord true], s)
  delete _ _ _ s := (.error .adapterFailure, s)
  guarantees _ := ⟨false, false, false⟩

def sampleQuery : MemoryQuery where
  kinds := []
  tags := []
  term := none
  since := none
  «until» := none
  limit := 5

/-- The record of the other tenant is taken out. -/
theorem returned_records_leaky :
    let service : MemoryService Unit := ⟨leakyStore, 10⟩
    let own := sampleRecord true
    let context : MemoryContext := ⟨own.tenantId⟩
    (service.search context own.namespace sampleQuery ⟨(), []⟩).1 = .ok [own] ∧
      (own.tenantId = context.tenantId ∧ own.namespace = own.namespace ∧ own.key = own.key) ∧
      [own].length ≤ sampleQuery.limit ∧
        ∀ record ∈ [own], record.tenantId = context.tenantId ∧ record.namespace = own.namespace := by
  intro service own context
  have hrecall : (service.«recall» context own.namespace own.key ⟨(), []⟩).1 =
      .ok (some own) := rfl
  have hsearch : (service.search context own.namespace sampleQuery ⟨(), []⟩).1 = .ok [own] := rfl
  obtain ⟨hr, hs⟩ := returned_records.1 Unit service context own.namespace ⟨(), []⟩
  exact ⟨hsearch, hr own.key own hrecall, hs sampleQuery [own] hsearch⟩

end RustFactory.Memory
