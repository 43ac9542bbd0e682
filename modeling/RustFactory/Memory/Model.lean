import RustFactory.Lib.BTreeMap
import RustFactory.Lib.Bytes
import RustFactory.Lib.Except
import RustFactory.Lib.Machine

/-!
# Memory: records, queries and their checks

The framework-neutral types of the memory brick, the checks every store makes at ingress, and the
calls and answers of the `MemoryStore` port.  The fields of a record are public in the source, so a
record is a plain structure; the identifiers in it are valid by construction.
-/

namespace RustFactory.Memory

open Lib

def maxContentBytes : ℕ := 32 * 1024
def maxMetadataEntryBytes : ℕ := 1024
def maxMetadataEntries : ℕ := 32
def maxIdBytes : ℕ := 128
def maxTags : ℕ := 16
def maxQueryLimit : ℕ := 256
def maxPartitionRecords : ℕ := 4096
def maxTenantNamespaces : ℕ := 64
def maxTermBytes : ℕ := 1024

/-- What an operation of a memory can fail with. -/
inductive MemoryError where
  | invalidId
  | invalidRecord
  | invalidQuery
  | limitExceeded
  | notFound
  | tenantMismatch
  | unauthorized
  | adapterFailure
  deriving DecidableEq, Repr

/-! ## Identifiers -/

/-- The bytes of an identifier: lowercase letters, digits, `_`, `-` and `.`. -/
def isIdByte (b : UInt8) : Bool :=
  isAsciiLowercase b || isAsciiDigit b || b == 95 || b == 45 || b == 46

/-- A lowercase letter or digit, then lowercase letters, digits, underscores and hyphens. -/
def isLogicalId (value : String) : Bool :=
  match utf8 value with
  | [] => false
  | first :: rest =>
    byteLen value ≤ maxIdBytes && isAsciiAlphanumeric first && !isAsciiUppercase first &&
      (first :: rest).all isIdByte

/-- The identifiers of the brick. -/
inductive IdKind where
  | tenant
  | scope
  | record
  | run

/-- A valid identifier. -/
structure LogicalId (kind : IdKind) where
  asStr : String
  valid : isLogicalId asStr
  deriving DecidableEq

/-- A checked identifier of the kind. -/
def LogicalId.new (kind : IdKind) (value : String) : Except MemoryError (LogicalId kind) :=
  if h : isLogicalId value then .ok ⟨value, h⟩ else .error .invalidId

abbrev TenantId := LogicalId .tenant

abbrev Namespace := LogicalId .scope

/-- The key of a record in its namespace. -/
abbrev RecordKey := LogicalId .record

/-- The run that a record comes from. -/
abbrev RunId := LogicalId .run

theorem LogicalId.asStr_injective {kind : IdKind} :
    Function.Injective (@LogicalId.asStr kind) := by
  rintro ⟨a, ha⟩ ⟨b, hb⟩ h
  cases h
  rfl

theorem LogicalId.new_asStr {kind : IdKind} (id : LogicalId kind) :
    LogicalId.new kind id.asStr = .ok id := dif_pos id.valid

/-! ## Records and queries -/

/-- The kinds of records. -/
inductive MemoryKind where
  | factual
  | preference
  | procedural
  | episodic
  deriving DecidableEq, Repr

/-- The kinds in the order of their declaration. -/
def MemoryKind.all : List MemoryKind := [.factual, .preference, .procedural, .episodic]

instance : LinearOrder MemoryKind :=
  LinearOrder.lift' MemoryKind.ctorIdx fun a b h => by cases a <;> cases b <;> first | rfl | cases h

/-- A time in microseconds. -/
abbrev Timestamp := ℕ

/-- Where a record comes from. -/
structure Provenance where
  runId : RunId
  recordedAt : Timestamp
  deriving DecidableEq

/-- What else a record says of itself. -/
abbrev Metadata := BTreeMap String String

/-- A record of a memory. -/
structure MemoryRecord where
  tenantId : TenantId
  «namespace» : Namespace
  key : RecordKey
  kind : MemoryKind
  content : String
  tags : List String
  metadata : Metadata
  provenance : Option Provenance

/-- Which records a query is for, and how many. -/
structure MemoryQuery where
  kinds : List MemoryKind
  tags : List String
  term : Option String
  since : Option Timestamp
  «until» : Option Timestamp
  limit : ℕ

/-- The record satisfies every filter. -/
def MemoryQuery.matches (query : MemoryQuery) (record : MemoryRecord) : Bool :=
  (query.kinds.isEmpty || query.kinds.contains record.kind) &&
  query.tags.all (fun tag => record.tags.any (· == tag)) &&
  query.term.all (fun term => decide (term.toList <:+: record.content.toList)) &&
  match query.since, query.until, record.provenance with
  | none, none, _ => true
  | _, _, none => false
  | since, «until», some provenance =>
    since.all (fun bound => bound ≤ provenance.recordedAt) &&
      «until».all (fun bound => provenance.recordedAt < bound)

/-- What a put answers. -/
inductive WriteOutcome where
  | created
  | replaced
  deriving DecidableEq, Repr

/-! ## Validation -/

/-- A tag has the grammar of an identifier. -/
def isTag (value : String) : Bool := isLogicalId value

/-- Sorting and removing repetitions shortens the list. -/
def hasDuplicates {α : Type} [LinearOrder α] (values : List α) : Bool :=
  (BTreeMap.distinct values).length != values.length

def validateMetadataEntry (key value : String) : Except MemoryError Unit :=
  if key.isEmpty then .error .invalidRecord
  else if maxMetadataEntryBytes < byteLen key || maxMetadataEntryBytes < byteLen value then
    .error .limitExceeded
  else .ok ()

def validateRecord (record : MemoryRecord) : Except MemoryError Unit :=
  if record.content.isEmpty then .error .invalidRecord
  else if maxContentBytes < byteLen record.content then .error .limitExceeded
  else if maxTags < record.tags.length then .error .limitExceeded
  else if !record.tags.all isTag then .error .invalidRecord
  else if hasDuplicates record.tags then .error .invalidRecord
  else if maxMetadataEntries < record.metadata.size then .error .limitExceeded
  else record.metadata.toList.forM fun entry => validateMetadataEntry entry.1 entry.2

def validateTerm : Option String → Except MemoryError Unit
  | none => .ok ()
  | some term =>
    if term.isEmpty then .error .invalidQuery
    else if maxTermBytes < byteLen term then .error .limitExceeded
    else .ok ()

/-- A window whose end is not after its start. -/
def emptyWindow : Option Timestamp → Option Timestamp → Bool
  | some since, some «until» => «until» ≤ since
  | _, _ => false

def validateQuery (query : MemoryQuery) : Except MemoryError Unit := do
  if query.limit = 0 ∨ maxQueryLimit < query.limit then .error .limitExceeded
  else if maxTags < query.tags.length then .error .limitExceeded
  else if !query.tags.all isTag then .error .invalidQuery
  else do
    validateTerm query.term
    if MemoryKind.all.length < query.kinds.length then .error .invalidQuery
    else if hasDuplicates query.kinds then .error .invalidQuery
    else if emptyWindow query.since query.until then .error .invalidQuery
    else .ok ()

/-- The write would exceed a ceiling: of the tenant's namespaces or of the partition's records. -/
def checkCapacity (tenantNamespaces : ℕ) (namespaceIsNew : Bool) (partitionRecords : ℕ)
    (keyIsNew : Bool) : Except MemoryError Unit :=
  if namespaceIsNew && maxTenantNamespaces ≤ tenantNamespaces then .error .limitExceeded
  else if keyIsNew && maxPartitionRecords ≤ partitionRecords then .error .limitExceeded
  else .ok ()

/-- A record without tags, metadata and provenance, under the key `key`. -/
def plainRecord (tenantId : TenantId) (scope : Namespace) (content : String) : MemoryRecord where
  tenantId := tenantId
  «namespace» := scope
  key := ⟨"key", by decide +kernel⟩
  kind := .procedural
  content := content
  tags := []
  metadata := ∅
  provenance := none

theorem validateRecord_plainRecord (tenantId : TenantId) (scope : Namespace) {content : String}
    (hne : ¬content.isEmpty) (hlen : byteLen content ≤ maxContentBytes) :
    validateRecord (plainRecord tenantId scope content) = .ok () := by
  unfold validateRecord plainRecord
  rw [if_neg hne, if_neg (Nat.not_lt.mpr hlen)]
  rfl

theorem checkCapacity_empty : checkCapacity 0 true 0 true = .ok () := rfl

/-! ## The port -/

/-- A call of the port.  A call that may write carries the environment its backend runs in. -/
inductive Call (ω : Type) where
  | put (env : ω) (record : MemoryRecord)
  | get (tenantId : TenantId) («namespace» : Namespace) (key : RecordKey)
  | query (tenantId : TenantId) («namespace» : Namespace) (query : MemoryQuery)
  | delete (env : ω) (tenantId : TenantId) («namespace» : Namespace) (key : RecordKey)

/-- What an operation answers. -/
inductive Answer where
  | put (outcome : Except MemoryError WriteOutcome)
  | get (record : Except MemoryError (Option MemoryRecord))
  | query (records : Except MemoryError (List MemoryRecord))
  | delete (existed : Except MemoryError Bool)

end RustFactory.Memory
