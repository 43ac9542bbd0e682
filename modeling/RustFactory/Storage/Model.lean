import RustFactory.Lib.BTreeMap
import RustFactory.Lib.Bytes
import RustFactory.Lib.Except
import RustFactory.Lib.Machine

/-!
# Storage: the data model

The values the object store exchanges with its callers.  A validated type carries the result of
its own check, so an invalid tenant, namespace, key, value, version, page size or limit record
cannot be built.  `ObjectStore` calls and their answers are collected in `Call` and `Reply`; an
adapter is a machine that answers calls.
-/

namespace RustFactory.Storage

open RustFactory.Lib

/-- The error taxonomy of the store. -/
inductive StorageError where
  | invalidTenantId
  | invalidNamespace
  | invalidObjectKey
  | invalidValue
  | invalidListLimit
  | invalidLimits
  | limitExceeded
  | revisionExhausted
  | lockUnavailable
  | corruptStore
  | operationFailed
  deriving DecidableEq, Repr

/-! ## Limits -/

def maxTenantIdBytes : UInt16 := 128
def maxNamespaceBytes : UInt16 := 128
def maxObjectKeyBytes : UInt16 := 1024
def maxObjectValueBytes : UInt32 := 1048576
def maxListLimit : UInt32 := 1000
def maxObjectsPerTenant : UInt64 := 100000
def maxValueBytesPerTenant : UInt64 := 1073741824
def maxObjectsGlobal : UInt64 := 1000000
def maxValueBytesGlobal : UInt64 := 8589934592

/-! ## Validation -/

/-- A byte inside a logical identifier. -/
def isLogicalIdByte (b : UInt8) : Bool := isAsciiAlphanumeric b || b == 46 || b == 95 || b == 45

/-- A logical identifier starts and ends with a letter or digit and keeps within its bound. -/
def validateLogicalId (value : String) (maximum : UInt16) (error : StorageError) :
    Except StorageError Unit := do
  let bytes := utf8 value
  let length ← okOr error (u16TryFrom bytes.length)
  if length = 0 ∨ maximum < length ∨ !isAsciiAlphanumeric (bytes.headD 0) ∨
      !bytes.all isLogicalIdByte then
    .error error
  else
    .ok ()

/-- The check of a tenant identifier. -/
def validateTenantId (value : String) : Except StorageError Unit :=
  validateLogicalId value maxTenantIdBytes .invalidTenantId

def validateNamespace (value : String) : Except StorageError Unit :=
  validateLogicalId value maxNamespaceBytes .invalidNamespace

/-- The check of a key, which answers with its length. -/
def validateKey (value : Bytes) : Except StorageError UInt16 := do
  let length ← okOr .invalidObjectKey (u16TryFrom value.length)
  if length = 0 ∨ maxObjectKeyBytes < length then .error .invalidObjectKey else .ok length

/-- The check of a value, which answers with its length; a value may be empty. -/
def validateValue (value : Bytes) : Except StorageError UInt32 := do
  let length ← okOr .invalidValue (u32TryFrom value.length)
  if maxObjectValueBytes < length then .error .invalidValue else .ok length

/-- Limits are positive, within the bounds of the crate, and those of a tenant within the global
ones. -/
def validateLimits (objectsPerTenant valueBytesPerTenant objectsGlobal valueBytesGlobal : UInt64) :
    Except StorageError Unit :=
  if objectsPerTenant = 0 ∨ maxObjectsPerTenant < objectsPerTenant ∨
      valueBytesPerTenant = 0 ∨ maxValueBytesPerTenant < valueBytesPerTenant ∨
      objectsGlobal = 0 ∨ maxObjectsGlobal < objectsGlobal ∨
      valueBytesGlobal = 0 ∨ maxValueBytesGlobal < valueBytesGlobal ∨
      objectsGlobal < objectsPerTenant ∨ valueBytesGlobal < valueBytesPerTenant then
    .error .invalidLimits
  else
    .ok ()

/-! ## Validated values -/

/-- A tenant. -/
structure TenantId where
  asStr : String
  valid : (validateTenantId asStr).isOk
  deriving DecidableEq

/-- A namespace of a tenant. -/
structure Namespace where
  asStr : String
  valid : (validateNamespace asStr).isOk
  deriving DecidableEq

/-- The key of an object, any bytes. -/
structure ObjectKey where
  asBytes : Bytes
  valid : (validateKey asBytes).isOk
  deriving DecidableEq

/-- The value of an object, any bytes. -/
structure ObjectValue where
  asBytes : Bytes
  valid : (validateValue asBytes).isOk
  deriving DecidableEq

/-- The revision of the store that wrote an object. -/
structure ObjectVersion where
  revision : UInt64
  nonzero : revision ≠ 0
  deriving DecidableEq

def TenantId.new (value : String) : Except StorageError TenantId :=
  ifOk (validateTenantId value) fun h => ⟨value, h⟩

def Namespace.new (value : String) : Except StorageError Namespace :=
  ifOk (validateNamespace value) fun h => ⟨value, h⟩

def ObjectKey.new (value : Bytes) : Except StorageError ObjectKey :=
  ifOk (validateKey value) fun h => ⟨value, h⟩

def ObjectValue.new (value : Bytes) : Except StorageError ObjectValue :=
  ifOk (validateValue value) fun h => ⟨value, h⟩

/-- The version of a revision; zero is no revision. -/
def ObjectVersion.fromRevision (revision : UInt64) : Except StorageError ObjectVersion :=
  if h : revision ≠ 0 then .ok ⟨revision, h⟩ else .error .corruptStore

/-- The smallest object key. -/
def ObjectKey.minimum : ObjectKey := ⟨[0], by decide⟩

instance : LinearOrder TenantId :=
  LinearOrder.lift' TenantId.asStr fun a b h => by cases a; cases b; cases h; rfl

instance : LinearOrder Namespace :=
  LinearOrder.lift' Namespace.asStr fun a b h => by cases a; cases b; cases h; rfl

instance : LinearOrder ObjectKey :=
  LinearOrder.lift' ObjectKey.asBytes fun a b h => by cases a; cases b; cases h; rfl

theorem ObjectKey.lt_iff {a b : ObjectKey} : a < b ↔ a.asBytes < b.asBytes := Iff.rfl

/-- Where the objects of one namespace of one tenant are. -/
structure StorageScope where
  tenantId : TenantId
  «namespace» : Namespace
  deriving DecidableEq

/-- How many objects a page may have. -/
structure ListLimit where
  get : UInt32
  valid : get ≠ 0 ∧ get ≤ maxListLimit
  deriving DecidableEq

/-- The limit as a size; no platform of the source is too small for it. -/
def ListLimit.asUsize (limit : ListLimit) : Except StorageError ℕ := .ok limit.get.toNat

/-- A page: the objects after a key, up to a limit. -/
structure ListRequest where
  afterKey : Option ObjectKey
  limit : ListLimit

/-- When a put is to be committed. -/
inductive PutCondition where
  | any
  | ifAbsent
  | ifVersion (expected : ObjectVersion)
  deriving DecidableEq

/-- When a delete is to be committed. -/
inductive DeleteCondition where
  | any
  | ifVersion (expected : ObjectVersion)
  deriving DecidableEq

/-- What a put answers. -/
inductive PutOutcome where
  | created (version : ObjectVersion)
  | replaced (version : ObjectVersion)
  | conflict
  deriving DecidableEq

/-- What a delete answers. -/
inductive DeleteOutcome where
  | deleted
  | notFound
  | conflict
  deriving DecidableEq

/-- What a get answers. -/
structure StoredObject where
  version : ObjectVersion
  value : ObjectValue
  deriving DecidableEq

/-- What a page says of an object. -/
structure ObjectMetadata where
  key : ObjectKey
  version : ObjectVersion
  sizeBytes : UInt32
  deriving DecidableEq

/-- A page, and whether there is another one. -/
structure ListPage where
  objects : List ObjectMetadata
  hasMore : Bool
  deriving DecidableEq

/-- The limits that a store is opened with. -/
structure StorageLimits where
  maxObjectsPerTenant : UInt64
  maxValueBytesPerTenant : UInt64
  maxObjectsGlobal : UInt64
  maxValueBytesGlobal : UInt64
  valid : validateLimits maxObjectsPerTenant maxValueBytesPerTenant maxObjectsGlobal
    maxValueBytesGlobal = .ok ()

/-! ## Sizes -/

theorem ObjectValue.length_le (v : ObjectValue) : v.asBytes.length ≤ maxObjectValueBytes.toNat := by
  have h := v.valid
  unfold validateValue at h
  by_cases hlt : v.asBytes.length < 2 ^ 32
  · unfold u32TryFrom at h
    rw [if_pos hlt, okOr_some, ok_bind] at h
    split_ifs at h with hmax
    · cases h
    · rw [UInt32.not_lt, UInt32.le_iff_toNat_le, UInt32.toNat_ofNat', Nat.mod_eq_of_lt hlt] at hmax
      exact hmax
  · unfold u32TryFrom at h
    rw [if_neg hlt] at h
    cases h

/-- The quota amount of a value. -/
def ObjectValue.size (v : ObjectValue) : UInt64 := UInt64.ofNat v.asBytes.length

theorem ObjectValue.length_lt (v : ObjectValue) : v.asBytes.length < 2 ^ 32 :=
  lt_of_le_of_lt v.length_le (by decide)

theorem ObjectValue.u64TryFrom_length (v : ObjectValue) :
    u64TryFrom v.asBytes.length = some v.size := by
  unfold u64TryFrom
  rw [if_pos (lt_trans v.length_lt (by decide))]
  rfl

@[simp] theorem ObjectValue.size_toNat (v : ObjectValue) : v.size.toNat = v.asBytes.length :=
  u64TryFrom_eq_some.mp v.u64TryFrom_length

/-! ## Quota counters

Both adapters keep one pair of counters for every tenant and one for the whole store.  Their
`checked_put_counters` differ only in the error of a counter that is smaller than the value it
should contain. -/

/-- How many objects there are, and how many bytes in their values. -/
structure Counters where
  objects : UInt64
  valueBytes : UInt64
  deriving DecidableEq

instance : Inhabited Counters := ⟨⟨0, 0⟩⟩

@[simp] theorem Counters.default_objects : (default : Counters).objects = 0 := rfl

@[simp] theorem Counters.default_valueBytes : (default : Counters).valueBytes = 0 := rfl

/-- The object counts of the tenant and of the store after a put. -/
def checkedPutObjects (tenant global : Counters) (replaces : Bool) :
    Except StorageError (UInt64 × UInt64) :=
  if replaces then
    .ok (tenant.objects, global.objects)
  else do
    let tenantObjects ← okOr .limitExceeded (checkedAdd tenant.objects 1)
    let globalObjects ← okOr .limitExceeded (checkedAdd global.objects 1)
    .ok (tenantObjects, globalObjects)

/-- The counters after a put: `oldBytes` is the size of the replaced value, if there is one. -/
def checkedPutCounters (underflow : StorageError) (limits : StorageLimits)
    (tenant global : Counters) (oldBytes : Option UInt64) (newBytes : UInt64) :
    Except StorageError (Counters × Counters) := do
  let (tenantObjects, globalObjects) ← checkedPutObjects tenant global oldBytes.isSome
  let oldBytes := oldBytes.getD 0
  let tenantRest ← okOr underflow (checkedSub tenant.valueBytes oldBytes)
  let tenantBytes ← okOr .limitExceeded (checkedAdd tenantRest newBytes)
  let globalRest ← okOr underflow (checkedSub global.valueBytes oldBytes)
  let globalBytes ← okOr .limitExceeded (checkedAdd globalRest newBytes)
  if limits.maxObjectsPerTenant < tenantObjects ∨ limits.maxValueBytesPerTenant < tenantBytes ∨
      limits.maxObjectsGlobal < globalObjects ∨ limits.maxValueBytesGlobal < globalBytes then
    .error .limitExceeded
  else
    .ok (⟨tenantObjects, tenantBytes⟩, ⟨globalObjects, globalBytes⟩)

/-- One pair of counters with one object of the given size taken out. -/
def checkedDeleteCounters (underflow : StorageError) (held : Counters) (oldBytes : UInt64) :
    Except StorageError Counters := do
  let objects ← okOr underflow (checkedSub held.objects 1)
  let valueBytes ← okOr underflow (checkedSub held.valueBytes oldBytes)
  .ok ⟨objects, valueBytes⟩

/-! ## Conditions -/

/-- Whether a put applies, given the version present. -/
def PutCondition.holds : PutCondition → Option ObjectVersion → Bool
  | .any, _ => true
  | .ifAbsent, none => true
  | .ifVersion expected, some version => expected == version
  | .ifAbsent, some _ => false
  | .ifVersion _, none => false

/-- Whether a delete applies, given the version present. -/
def DeleteCondition.holds : DeleteCondition → ObjectVersion → Bool
  | .any, _ => true
  | .ifVersion expected, version => expected == version

/-! ## Calls -/

/-- A call of the `ObjectStore` port. -/
inductive Call where
  | get (scope : StorageScope) (key : ObjectKey)
  | put (scope : StorageScope) (key : ObjectKey) (value : ObjectValue) (condition : PutCondition)
  | delete (scope : StorageScope) (key : ObjectKey) (condition : DeleteCondition)
  | list (scope : StorageScope) (request : ListRequest)

/-- What a successful call returns. -/
inductive Reply where
  | got (object : Option StoredObject)
  | put (outcome : PutOutcome)
  | deleted (outcome : DeleteOutcome)
  | listed (page : ListPage)
  deriving DecidableEq

/-- The result of a call. -/
abbrev Answer := Except StorageError Reply

end RustFactory.Storage
