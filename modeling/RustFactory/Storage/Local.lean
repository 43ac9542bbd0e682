import RustFactory.Storage.Model

/-!
# Storage: the process-local adapter

`LocalObjectStore` holds the objects in one ordered map, with a revision counter and the quota
counters beside it.  Every operation runs under one lock, so it is a function of the state; a
returned error leaves the state as it was, since all checks come before the first write.
-/

namespace RustFactory.Storage

open RustFactory.Lib

/-- The key of an object in the local map, ordered by tenant, namespace and object key. -/
structure Identity where
  tenantId : TenantId
  «namespace» : Namespace
  key : ObjectKey
  deriving DecidableEq

/-- The scope of an identity. -/
def Identity.scope (id : Identity) : StorageScope := ⟨id.tenantId, id.namespace⟩

/-- An identity as the tuple that orders it. -/
def Identity.toTuple (id : Identity) : TenantId ×ₗ Namespace ×ₗ ObjectKey :=
  toLex (id.tenantId, toLex (id.namespace, id.key))

instance : LinearOrder Identity :=
  LinearOrder.lift' Identity.toTuple fun a b h => by
    cases a; cases b
    simpa [Identity.toTuple] using h

namespace Local

/-- An object as the adapter holds it. -/
structure Entry where
  version : ObjectVersion
  value : ObjectValue
  deriving DecidableEq

/-- The state of the adapter in memory. -/
structure State where
  objects : BTreeMap Identity Entry
  revision : UInt64
  tenants : BTreeMap TenantId Counters
  global : Counters

/-- The state of a fresh store. -/
def State.new : State := ⟨∅, 0, ∅, default⟩

def identity (scope : StorageScope) (key : ObjectKey) : Identity :=
  ⟨scope.tenantId, scope.namespace, key⟩

/-- A value's size as a quota amount. -/
def valueBytes (value : ObjectValue) : Except StorageError UInt64 :=
  okOr .operationFailed (u64TryFrom value.asBytes.length)

def get (s : State) (scope : StorageScope) (key : ObjectKey) :
    Except StorageError (Option StoredObject) :=
  .ok (s.objects[identity scope key]?.map fun entry => ⟨entry.version, entry.value⟩)

/-- Puts an object if the condition holds and the limits allow it. -/
def put (limits : StorageLimits) (s : State) (scope : StorageScope) (key : ObjectKey)
    (value : ObjectValue) (condition : PutCondition) : Except StorageError (PutOutcome × State) :=
  let id := identity scope key
  let current := s.objects[id]?
  if condition.holds (current.map Entry.version) then do
    let revision ← okOr .revisionExhausted (checkedAdd s.revision 1)
    let version ← ObjectVersion.fromRevision revision
    let oldBytes ← current.mapM fun entry => valueBytes entry.value
    let newBytes ← valueBytes value
    let held := s.tenants[scope.tenantId]?.getD default
    let (tenant, global) ←
      checkedPutCounters .operationFailed limits held s.global oldBytes newBytes
    .ok (if current.isNone then .created version else .replaced version,
      { objects := s.objects.insert id ⟨version, value⟩
        revision
        tenants := s.tenants.insert scope.tenantId tenant
        global })
  else
    .ok (.conflict, s)

/-- Deletes an object if the condition holds. -/
def delete (s : State) (scope : StorageScope) (key : ObjectKey) (condition : DeleteCondition) :
    Except StorageError (DeleteOutcome × State) :=
  let id := identity scope key
  match s.objects[id]? with
  | none => .ok (.notFound, s)
  | some current =>
    if condition.holds current.version then do
      let oldBytes ← valueBytes current.value
      let held ← okOr .operationFailed s.tenants[scope.tenantId]?
      let tenant ← checkedDeleteCounters .operationFailed held oldBytes
      let global ← checkedDeleteCounters .operationFailed s.global oldBytes
      if tenant.objects = 0 ∧ tenant.valueBytes ≠ 0 then
        .error .operationFailed
      else
        .ok (.deleted,
          { s with
            objects := s.objects.erase id
            tenants := if tenant.objects = 0 then s.tenants.erase scope.tenantId
              else s.tenants.insert scope.tenantId tenant
            global })
    else
      .ok (.conflict, s)

/-- The loop of `list` over the rows from the lower bound on.  It stops at the first row of another
scope, and at the first row past a full page. -/
def listLoop (scope : StorageScope) (limit : ℕ) :
    List (Identity × Entry) → List ObjectMetadata → Except StorageError ListPage
  | [], objects => .ok ⟨objects, false⟩
  | (id, entry) :: rows, objects =>
    if id.tenantId ≠ scope.tenantId ∨ id.namespace ≠ scope.namespace then
      .ok ⟨objects, false⟩
    else if objects.length = limit then
      .ok ⟨objects, true⟩
    else do
      let sizeBytes ← okOr .operationFailed (u32TryFrom entry.value.asBytes.length)
      listLoop scope limit rows (objects ++ [⟨id.key, entry.version, sizeBytes⟩])

def list (s : State) (scope : StorageScope) (request : ListRequest) :
    Except StorageError ListPage := do
  let limit ← request.limit.asUsize
  let lower := match request.afterKey with
    | none => .included (identity scope ObjectKey.minimum)
    | some key => .excluded (identity scope key)
  listLoop scope limit (BTreeMap.range s.objects lower .unbounded) []

end Local

/-- The answer and the next state of an update that keeps the state when it fails. -/
def settle {σ α : Type} (s : σ) (reply : α → Reply) : Except StorageError (α × σ) → Answer × σ
  | .ok (a, s') => (.ok (reply a), s')
  | .error e => (.error e, s)

namespace Local

/-- `LocalObjectStore` as a machine. -/
def store (limits : StorageLimits) : Machine State Call Answer where
  step s
    | .get scope key => ((get s scope key).map .got, s)
    | .put scope key value condition => settle s .put (put limits s scope key value condition)
    | .delete scope key condition => settle s .deleted (delete s scope key condition)
    | .list scope request => ((list s scope request).map .listed, s)

end Local

end RustFactory.Storage
