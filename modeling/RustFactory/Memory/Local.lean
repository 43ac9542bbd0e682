import RustFactory.Memory.Model

/-!
# Memory: the in-process store

`InProcessStore` nests ordered maps by tenant, namespace and key.  Every operation runs under one
lock, so it is a function of the maps.
-/

namespace RustFactory.Memory

open Lib

namespace Local

/-- One namespace's records, by key. -/
abbrev Partition := BTreeMap String MemoryRecord

/-- One tenant's namespaces. -/
abbrev Tenant := BTreeMap String Partition

abbrev Tenants := BTreeMap String Tenant

/-- The capacity check of a write, from what the tenant holds. -/
def checkRoom (tenant : Tenant) (record : MemoryRecord) : Except MemoryError Unit :=
  let partition := tenant[record.namespace.asStr]?
  checkCapacity tenant.size partition.isNone (partition.elim 0 fun held => held.size)
    (partition.all fun held => !held.contains record.key.asStr)

def put (tenants : Tenants) (record : MemoryRecord) :
    Except MemoryError WriteOutcome × Tenants :=
  match validateRecord record with
  | .error e => (.error e, tenants)
  | .ok () =>
    -- `entry(..).or_default()` leaves the tenant behind even when the write is refused.
    let tenants := tenants.insertIfNew record.tenantId.asStr ∅
    let tenant := tenants.getD record.tenantId.asStr ∅
    match checkRoom tenant record with
    | .error e => (.error e, tenants)
    | .ok () =>
      let held := tenant.getD record.namespace.asStr ∅
      (.ok (if held.contains record.key.asStr then .replaced else .created),
        tenants.insert record.tenantId.asStr
          (tenant.insert record.namespace.asStr (held.insert record.key.asStr record)))

def get (tenants : Tenants) (tenantId : TenantId) («namespace» : Namespace) (key : RecordKey) :
    Except MemoryError (Option MemoryRecord) :=
  .ok ((tenants[tenantId.asStr]?.bind fun tenant => tenant[«namespace».asStr]?).bind
    fun partition => partition[key.asStr]?)

/-- The first records, by key, that the query is for. -/
def query (tenants : Tenants) (tenantId : TenantId) («namespace» : Namespace)
    (query : MemoryQuery) : Except MemoryError (List MemoryRecord) := do
  validateQuery query
  match tenants[tenantId.asStr]?.bind fun tenant => tenant[«namespace».asStr]? with
  | none => .ok []
  | some partition =>
    .ok (((partition.toList.map Prod.snd).filter query.matches).take query.limit)

def delete (tenants : Tenants) (tenantId : TenantId) («namespace» : Namespace)
    (key : RecordKey) : Except MemoryError Bool × Tenants :=
  match tenants[tenantId.asStr]? with
  | none => (.ok false, tenants)
  | some tenant =>
    match tenant[«namespace».asStr]? with
    | none => (.ok false, tenants)
    | some partition =>
      let removed := partition.contains key.asStr
      let partition := partition.erase key.asStr
      let tenant :=
        if partition.isEmpty then tenant.erase «namespace».asStr
        else tenant.insert «namespace».asStr partition
      let tenants :=
        if tenant.isEmpty then tenants.erase tenantId.asStr
        else tenants.insert tenantId.asStr tenant
      (.ok removed, tenants)

/-- The answer to a call, and the state after it. -/
def step {ω : Type} (tenants : Tenants) : Call ω → Answer × Tenants
  | .put _ record => let (outcome, tenants) := put tenants record; (.put outcome, tenants)
  | .get tenantId scope key => (.get (get tenants tenantId scope key), tenants)
  | .query tenantId scope filter => (.query (query tenants tenantId scope filter), tenants)
  | .delete _ tenantId scope key =>
    let (existed, tenants) := delete tenants tenantId scope key
    (.delete existed, tenants)

/-- The store as a machine; the environment of a call plays no part. -/
def machine (ω : Type) : Machine Tenants (Call ω) Answer := ⟨step⟩

/-! ## Writes -/

theorem checkRoom_empty (record : MemoryRecord) :
    checkRoom ∅ record = .ok () := by
  unfold checkRoom
  rw [Std.ExtTreeMap.getElem?_empty, Std.ExtTreeMap.size_empty]
  exact checkCapacity_empty

theorem put_eq (tenants : Tenants) (record : MemoryRecord) :
    put tenants record =
      let tenant := tenants.getD record.tenantId.asStr ∅
      match validateRecord record >>= fun _ => checkRoom tenant record with
      | .error e => (.error e, tenants)
      | .ok () =>
        let held := tenant.getD record.namespace.asStr ∅
        (.ok (if held.contains record.key.asStr then .replaced else .created),
          tenants.insert record.tenantId.asStr
            (tenant.insert record.namespace.asStr (held.insert record.key.asStr record))) := by
  unfold put
  cases validateRecord record with
  | error e => rfl
  | ok _ =>
    simp only [ok_bind, BTreeMap.getD_insertIfNew_self, BTreeMap.insert_insertIfNew]
    cases hroom : checkRoom (tenants.getD record.tenantId.asStr ∅) record with
    | ok _ => rfl
    | error e =>
      -- A tenant that is not there yet is never refused, so none is left behind.
      cases htenant : tenants[record.tenantId.asStr]? with
      | some tenant => rw [BTreeMap.insertIfNew_of_getElem?_some htenant]
      | none =>
        rw [Std.ExtTreeMap.getD_eq_getD_getElem?, htenant, Option.getD_none,
          checkRoom_empty] at hroom
        cases hroom

end Local

end RustFactory.Memory
