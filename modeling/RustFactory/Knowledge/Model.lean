import RustFactory.Lib.Bytes
import RustFactory.Lib.Except

/-!
# Knowledge search

Validated search requests and the service that checks what an index returns before it is used.
-/

namespace RustFactory.Knowledge

open RustFactory.Lib

/-- What a search can fail with. -/
inductive KnowledgeError where
  | invalidRequest
  | limitExceeded
  | unavailable
  | protocolViolation
  deriving DecidableEq, Repr

def maxIdentifierBytes : ℕ := 128
def maxQueryBytes : ℕ := 16384
def maxSearchLimit : UInt32 := 64
def maxResultTextBytes : ℕ := 65536

/-! ## Requests -/

def isIdentifierStart (b : UInt8) : Bool := isAsciiLowercase b || isAsciiDigit b

def isIdentifierContinue (b : UInt8) : Bool := isIdentifierStart b || b == 95 || b == 45

def validateIdentifier (value : String) : Except KnowledgeError Unit :=
  match utf8 value with
  | [] => .error .invalidRequest
  | first :: rest =>
    if maxIdentifierBytes < rest.length + 1 ∨ !isIdentifierStart first ∨
        !rest.all isIdentifierContinue then
      .error .invalidRequest
    else .ok ()

/-- The macro behind the four identifiers. -/
structure Identifier where
  asStr : String
  valid : (validateIdentifier asStr).isOk
  deriving DecidableEq

def Identifier.new (value : String) : Except KnowledgeError Identifier :=
  ifOk (validateIdentifier value) fun h => ⟨value, h⟩

abbrev TenantId := Identifier

/-- On whose behalf they are searched. -/
abbrev PrincipalId := Identifier

abbrev NamespaceId := Identifier

abbrev DocumentId := Identifier

/-- A query within the byte ceiling that is not all whitespace. -/
def isQuery (value : String) : Bool :=
  byteLen value ≤ maxQueryBytes && value.toList.any fun c => !isWhitespace c

/-- The text of a query. -/
structure Query where
  asStr : String
  valid : isQuery asStr
  deriving DecidableEq

def Query.new (value : String) : Except KnowledgeError Query :=
  if h : isQuery value then .ok ⟨value, h⟩ else .error .invalidRequest

/-- How many hits a search may have. -/
structure SearchLimit where
  get : UInt32
  valid : get ≤ maxSearchLimit ∧ get ≠ 0
  deriving DecidableEq

def SearchLimit.new (value : UInt32) : Except KnowledgeError SearchLimit :=
  if h : value ≤ maxSearchLimit ∧ value ≠ 0 then .ok ⟨value, h⟩ else .error .invalidRequest

theorem isOk_identifier_new {value : String} :
    (Identifier.new value).isOk ↔ (validateIdentifier value).isOk := by
  unfold Identifier.new
  rw [ifOk_isOk]

theorem isOk_query_new {value : String} : (Query.new value).isOk ↔ isQuery value := by
  unfold Query.new
  split
  · exact iff_of_true rfl ‹_›
  · exact iff_of_false nofun ‹_›

theorem isOk_searchLimit_new {value : UInt32} :
    (SearchLimit.new value).isOk ↔ value ≤ maxSearchLimit ∧ value ≠ 0 := by
  unfold SearchLimit.new
  split
  · exact iff_of_true rfl ‹_›
  · exact iff_of_false nofun ‹_›

/-- The identity of a search. -/
structure SearchContext where
  tenantId : TenantId
  principalId : PrincipalId
  deriving DecidableEq

/-- What is searched for, and where. -/
structure SearchRequest where
  context : SearchContext
  «namespace» : NamespaceId
  query : Query
  limit : SearchLimit
  deriving DecidableEq

/-! ## Results -/

/-- A document that a source returns. -/
structure KnowledgeDocument where
  tenantId : TenantId
  «namespace» : NamespaceId
  documentId : DocumentId
  text : String
  deriving DecidableEq

/-- A document as a caller sees it. -/
structure KnowledgeHit where
  documentId : DocumentId
  text : String
  deriving DecidableEq

/-- The hits of a search. -/
structure SearchResult where
  hits : List KnowledgeHit
  deriving DecidableEq

/-- The sum, which must stay within the limit. -/
def checkedAddWithLimit (total additional limit : ℕ) : Except KnowledgeError ℕ :=
  if total + additional < 2 ^ 64 ∧ total + additional ≤ limit then .ok (total + additional)
  else .error .limitExceeded

/-- The document belongs to the request's tenant and namespace and comes after the last one. -/
def inOrder (request : SearchRequest) (previous : Option DocumentId)
    (document : KnowledgeDocument) : Bool :=
  document.tenantId == request.context.tenantId && document.namespace == request.namespace &&
    match previous with
    | some previous => previous.asStr < document.documentId.asStr
    | none => true

/-- The check of what a source returns: the right scope, increasing documents, bounded texts. -/
def checkDocuments (request : SearchRequest) :
    List KnowledgeDocument → (previous : Option DocumentId) → (totalTextBytes : ℕ) →
      Except KnowledgeError Unit
  | [], _, _ => .ok ()
  | document :: documents, previous, totalTextBytes =>
    if inOrder request previous document then do
      let total ← checkedAddWithLimit totalTextBytes (byteLen document.text) maxResultTextBytes
      checkDocuments request documents (some document.documentId) total
    else
      .error .protocolViolation

/-- `KnowledgeService::search` on what the index answered. -/
def search (request : SearchRequest) (answer : Except KnowledgeError (List KnowledgeDocument)) :
    Except KnowledgeError SearchResult := do
  let documents ← answer
  if request.limit.get.toNat < documents.length then .error .limitExceeded else do
    checkDocuments request documents none 0
    .ok ⟨documents.map fun document => ⟨document.documentId, document.text⟩⟩

end RustFactory.Knowledge
