import RustFactory.Storage.Codec
import RustFactory.Storage.Local

/-!
# Storage: the redb adapter

`RedbObjectStore` keeps three tables of byte strings.  A write transaction is a function from the
tables to the tables: its inserts take effect together at the commit, and a return before the
commit leaves the tables as they were.
-/

namespace RustFactory.Storage

open RustFactory.Lib

namespace Redb

instance instTransCmpBytes : Std.TransCmp (@compare Bytes LinearOrder.toOrd) := instTransCmpCompare

/-- The tables `OBJECTS`, `TENANT_QUOTAS` and `METADATA`. -/
structure Db where
  objects : BTreeMap Bytes Bytes
  quotas : BTreeMap Bytes Bytes
  metadata : BTreeMap Bytes Bytes

def metaSchema : Bytes := [1]
def metaRevision : Bytes := [2]
def metaGlobal : Bytes := [3]

/-- The tables of a new database. -/
def initializeTables : Db where
  objects := ∅
  quotas := ∅
  metadata := ((∅ : BTreeMap Bytes Bytes).insert metaSchema [schema]
    |>.insert metaRevision (encodeRevision 0)).insert metaGlobal (encodeCounters default)

/-- The revision and the global counters. -/
def readMetadata (metadata : BTreeMap Bytes Bytes) : Except StorageError (UInt64 × Counters) :=
  if metadata.size ≠ 3 then .error .corruptStore else do
  let schemaRow ← okOr .corruptStore metadata[metaSchema]?
  if schemaRow ≠ [schema] then .error .corruptStore else do
  let revisionRow ← okOr .corruptStore metadata[metaRevision]?
  let revision ← decodeRevision revisionRow
  let globalRow ← okOr .corruptStore metadata[metaGlobal]?
  let global ← decodeCounters globalRow false
  .ok (revision, global)

/-! ## Operations -/

def get (db : Db) (scope : StorageScope) (key : ObjectKey) :
    Except StorageError (Option StoredObject) := do
  let encoded ← encodeObjectKey scope key
  db.objects[encoded]?.mapM fun row => do
    let (version, value) ← decodeObjectValue row
    .ok ⟨version, value⟩

/-- The counters of a quota row; a tenant without a row holds nothing. -/
def heldCounters (row : Option Bytes) : Except StorageError Counters :=
  match row with
  | none => .ok default
  | some held => decodeCounters held true

/-- Puts an object if the condition holds and the limits allow it. -/
def put (limits : StorageLimits) (db : Db) (scope : StorageScope) (key : ObjectKey)
    (value : ObjectValue) (condition : PutCondition) : Except StorageError (PutOutcome × Db) := do
  let objectKey ← encodeObjectKey scope key
  let tenantKey ← encodeTenantKey scope.tenantId
  let newBytes ← okOr .operationFailed (u64TryFrom value.asBytes.length)
  let current := db.objects[objectKey]?
  let currentDecoded ← current.mapM decodeObjectValue
  if condition.holds (currentDecoded.map Prod.fst) then do
    let (revision, global) ← readMetadata db.metadata
    let revision ← okOr .revisionExhausted (checkedAdd revision 1)
    let version ← ObjectVersion.fromRevision revision
    let tenant ← heldCounters db.quotas[tenantKey]?
    let oldBytes ← currentDecoded.mapM fun held =>
      okOr .corruptStore (u64TryFrom held.2.asBytes.length)
    let (tenant, global) ←
      checkedPutCounters .corruptStore limits tenant global oldBytes newBytes
    let encodedValue ← encodeObjectValue version value
    .ok (if current.isNone then .created version else .replaced version,
      { objects := db.objects.insert objectKey encodedValue
        quotas := db.quotas.insert tenantKey (encodeCounters tenant)
        metadata := (db.metadata.insert metaRevision (encodeRevision revision)).insert metaGlobal
          (encodeCounters global) })
  else
    .ok (.conflict, db)

/-- Deletes an object if the condition holds. -/
def delete (db : Db) (scope : StorageScope) (key : ObjectKey) (condition : DeleteCondition) :
    Except StorageError (DeleteOutcome × Db) := do
  let objectKey ← encodeObjectKey scope key
  let tenantKey ← encodeTenantKey scope.tenantId
  match db.objects[objectKey]? with
  | none => .ok (.notFound, db)
  | some encodedCurrent => do
    let (version, value) ← decodeObjectValue encodedCurrent
    if condition.holds version then do
      let (_, global) ← readMetadata db.metadata
      let tenantValue ← okOr .corruptStore db.quotas[tenantKey]?
      let tenant ← decodeCounters tenantValue true
      let bytes ← okOr .corruptStore (u64TryFrom value.asBytes.length)
      let tenant ← checkedDeleteCounters .corruptStore tenant bytes
      let global ← checkedDeleteCounters .corruptStore global bytes
      if tenant.objects = 0 ∧ tenant.valueBytes ≠ 0 then
        .error .corruptStore
      else
        .ok (.deleted,
          { objects := db.objects.erase objectKey
            quotas := if tenant.objects = 0 then db.quotas.erase tenantKey
              else db.quotas.insert tenantKey (encodeCounters tenant)
            metadata := db.metadata.insert metaGlobal (encodeCounters global) })
    else
      .ok (.conflict, db)

/-- The loop of `list` over the rows of the scope's range.  A full page is noticed before the next
row is decoded. -/
def listLoop (scope : StorageScope) (limit : ℕ) :
    List (Bytes × Bytes) → List ObjectMetadata → Except StorageError ListPage
  | [], objects => .ok ⟨objects, false⟩
  | (encodedKey, encodedValue) :: rows, objects =>
    if objects.length = limit then
      .ok ⟨objects, true⟩
    else do
      let (decodedScope, key) ← decodeObjectKey encodedKey
      if decodedScope ≠ scope then .error .corruptStore else do
      let (version, value) ← decodeObjectValue encodedValue
      let sizeBytes ← okOr .corruptStore (u32TryFrom value.asBytes.length)
      listLoop scope limit rows (objects ++ [⟨key, version, sizeBytes⟩])

/-- The end below the first row of a page. -/
def listLower (scope : StorageScope) (scopePrefix : Bytes) (afterKey : Option ObjectKey) :
    Except StorageError Bytes :=
  match afterKey with
  | none => .ok scopePrefix
  | some key => encodeObjectKey scope key

def list (db : Db) (scope : StorageScope) (request : ListRequest) :
    Except StorageError ListPage := do
  let scopePrefix ← encodeScopePrefix scope
  let upper ← okOr .operationFailed (prefixSuccessor scopePrefix)
  let lower ← listLower scope scopePrefix request.afterKey
  let limit ← request.limit.asUsize
  listLoop scope limit (BTreeMap.range db.objects (.excluded lower) (.excluded upper)) []

/-- `RedbObjectStore` as a machine. -/
def store (limits : StorageLimits) : Machine Db Call Answer where
  step db
    | .get scope key => ((get db scope key).map .got, db)
    | .put scope key value condition => settle db .put (put limits db scope key value condition)
    | .delete scope key condition => settle db .deleted (delete db scope key condition)
    | .list scope request => ((list db scope request).map .listed, db)

end Redb

end RustFactory.Storage
