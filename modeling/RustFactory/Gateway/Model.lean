import RustFactory.Lib.BTreeMap
import RustFactory.Lib.Bytes
import RustFactory.Lib.Except

/-!
# The model gateway

The validated values of the provider-neutral gateway: identifiers, JSON objects, tool definitions
and generation requests, and the responses that providers return.
-/

namespace RustFactory.Gateway

open RustFactory.Lib

/-- What a call of a model provider can fail with. -/
inductive LlmError where
  | invalidRequest
  | limitExceeded
  | unsupported
  | cancelled
  | deadlineExceeded
  | authentication
  | rateLimited
  | unavailable
  | providerRejected
  | protocolViolation
  deriving DecidableEq, Repr

/-- The longest identifier, in bytes. -/
def maxIdentifierBytes : ℕ := 256

/-- The longest name of a tool, in bytes. -/
def maxToolNameBytes : ℕ := 128

/-- The longest text of a prompt, in bytes. -/
def maxPromptTextBytes : ℕ := 16384

/-- The longest prompt, that is both texts together. -/
def maxPromptBytes : ℕ := 32768

/-- The most tools of a request. -/
def maxTools : ℕ := 64

/-- The longest description of a tool, in bytes. -/
def maxToolDescriptionBytes : ℕ := 4096

/-- The longest canonical text of an object, in bytes. -/
def maxJsonObjectBytes : ℕ := 16384

/-- The length of all schemas of a request together. -/
def maxToolSchemasBytes : ℕ := 65536

/-- The most tokens that a request may ask for. -/
def maxOutputTokens : UInt32 := 1000000

/-! ## Validation -/

/-- A length within its bound. -/
def validateLen (actual maximum : ℕ) : Except LlmError Unit :=
  if maximum < actual then .error .limitExceeded else .ok ()

/-- An identifier is not empty and bounded; any characters are allowed. -/
def validateIdentifier (value : String) : Except LlmError Unit :=
  if value = "" then .error .invalidRequest else validateLen (byteLen value) maxIdentifierBytes

/-- A byte inside the name of a tool. -/
def isToolNameByte (b : UInt8) : Bool :=
  isAsciiAlphanumeric b || b == 95 || b == 46 || b == 58 || b == 45

/-- The name of a tool starts with a letter or digit. -/
def validateToolName (value : String) : Except LlmError Unit := do
  validateLen (byteLen value) maxToolNameBytes
  match utf8 value with
  | [] => .error .invalidRequest
  | first :: rest =>
    if isAsciiAlphanumeric first && rest.all isToolNameByte then .ok () else .error .invalidRequest

/-- The sum of machine sizes, bounded; an overflow of the machine word is over every bound too. -/
def checkedSum (values : List ℕ) (maximum : ℕ) : Except LlmError ℕ := do
  let total ← values.foldlM
    (fun total value => if total + value < 2 ^ 64 then .ok (total + value)
      else .error .limitExceeded) 0
  validateLen total maximum
  .ok total

/-- A sum within a bound that fits the machine word is taken without overflow. -/
theorem checkedSum_eq_ok {values : List ℕ} {maximum : ℕ} (h : values.sum ≤ maximum)
    (hmaximum : maximum < 2 ^ 64) : checkedSum values maximum = .ok values.sum := by
  have hfold : ∀ (values : List ℕ) (total : ℕ), total + values.sum < 2 ^ 64 →
      values.foldlM (fun total value => if total + value < 2 ^ 64 then .ok (total + value)
        else .error .limitExceeded) total = (.ok (total + values.sum) : Except LlmError ℕ) := by
    intro values
    induction values with
    | nil => intro total _; rfl
    | cons value values ih =>
      intro total htotal
      rw [List.sum_cons] at htotal ⊢
      rw [List.foldlM_cons, if_pos (by omega), ok_bind, ih _ (by omega)]
      congr 1
      omega
  unfold checkedSum validateLen
  rw [hfold values 0 (by omega), ok_bind, Nat.zero_add, if_neg (by omega), ok_bind]

/-! ## Identifiers -/

/-- The macro behind model, provider, request and idempotency identifiers. -/
structure Identifier where
  asStr : String
  valid : (validateIdentifier asStr).isOk
  deriving DecidableEq

/-- A checked identifier. -/
def Identifier.new (value : String) : Except LlmError Identifier :=
  ifOk (validateIdentifier value) fun h => ⟨value, h⟩

/-- The model of a request. -/
abbrev ModelId := Identifier

/-- The provider of a model. -/
abbrev ProviderId := Identifier

/-- What a provider recognizes a repeated request by. -/
abbrev IdempotencyKey := Identifier

/-- The number that a provider gives a request. -/
abbrev ProviderRequestId := Identifier

/-- The name of a tool. -/
structure ToolName where
  asStr : String
  valid : (validateToolName asStr).isOk
  deriving DecidableEq

/-- A checked name of a tool. -/
def ToolName.new (value : String) : Except LlmError ToolName :=
  ifOk (validateToolName value) fun h => ⟨value, h⟩

/-! ## JSON -/

/-- A JSON value; the members of an object stand in order. -/
inductive Json where
  | null
  | bool (value : Bool)
  | number (literal : String)
  | string (value : String)
  | array (values : List Json)
  | object (members : List (String × Json))

/-- The members of an object. -/
def Json.asObject : Json → Option (List (String × Json))
  | .object members => some members
  | _ => none

/-- The elements of an array. -/
def Json.asArray : Json → Option (List Json)
  | .array values => some values
  | _ => none

/-- The text of a string. -/
def Json.asStr : Json → Option String
  | .string value => some value
  | _ => none

mutual

/-- The value with the members of every object sorted by name; a later member replaces an earlier
one of its name. -/
def Json.sortValue : Json → Json
  | .array values => .array (Json.sortValues values)
  | .object members =>
    .object ((Json.sortMembers members).foldl (fun sorted member => sorted.insert member.1 member.2)
      (∅ : BTreeMap String Json)).toList
  | value => value

/-- The values with their objects sorted. -/
def Json.sortValues : List Json → List Json
  | [] => []
  | value :: values => value.sortValue :: Json.sortValues values

/-- The members with the objects in them sorted. -/
def Json.sortMembers : List (String × Json) → List (String × Json)
  | [] => []
  | (key, value) :: members => (key, value.sortValue) :: Json.sortMembers members

end

mutual

/-- No object in the value repeats a member. -/
def Json.duplicateFree : Json → Bool
  | .array values => Json.allDuplicateFree values
  | .object members => (members.map Prod.fst).Nodup && Json.membersDuplicateFree members
  | _ => true

/-- No object in the values repeats a name. -/
def Json.allDuplicateFree : List Json → Bool
  | [] => true
  | value :: values => value.duplicateFree && Json.allDuplicateFree values

/-- No object in the members' values repeats a name. -/
def Json.membersDuplicateFree : List (String × Json) → Bool
  | [] => true
  | (_, value) :: members => value.duplicateFree && Json.membersDuplicateFree members

end

namespace DuplicateRejectingVisitor

mutual

/-- The value that the visitor builds from the parts the parser hands it. -/
def visit : Json → Option Json
  | .array values => (visitSeq values).map .array
  | .object members => (visitMap ∅ members).map fun values => .object values.toList
  | value => some value

/-- The elements of an array, visited in order. -/
def visitSeq : List Json → Option (List Json)
  | [] => some []
  | value :: sequence => do
    let value ← visit value
    let values ← visitSeq sequence
    some (value :: values)

/-- The loop over the members, with the map of those before. -/
def visitMap (values : BTreeMap String Json) : List (String × Json) → Option (BTreeMap String Json)
  | [] => some values
  | (key, value) :: object =>
    if values.contains key then none
    else do
      let value ← visit value
      visitMap (values.insert key value) object

end

end DuplicateRejectingVisitor

/-- The external JSON functions: the parser, which keeps the members of an object as the text has
them, and the compact text of a value. -/
structure Serde where
  parse : String → Option Json
  print : Json → String

/-- The value of a text, as the library keeps it. -/
def Serde.fromStr (serde : Serde) (text : String) : Option Json :=
  (serde.parse text).map Json.sortValue

/-- The canonical text of an object, which repeats no name. -/
def Serde.canonicalObject (serde : Serde) (input : String) : Except LlmError String := do
  let value ← okOr .invalidRequest ((serde.parse input).bind DuplicateRejectingVisitor.visit)
  match value with
  | .object members => do
    let canonical := serde.print (Json.sortValue (.object members))
    validateLen (byteLen canonical) maxJsonObjectBytes
    .ok canonical
  | _ => .error .invalidRequest

/-- An object by its canonical text. -/
structure JsonObject where
  canonical : String
  deriving DecidableEq

/-- A checked object. -/
def JsonObject.new (serde : Serde) (input : String) : Except LlmError JsonObject :=
  (serde.canonicalObject input).map JsonObject.mk

/-- The length of the canonical text. -/
def JsonObject.len (object : JsonObject) : ℕ := byteLen object.canonical

/-- The text is an object with the type `object`. -/
def isObjectSchema (value : Json) : Bool :=
  match (value.asObject.bind fun members => members.lookup "type").bind Json.asStr with
  | some name => name == "object"
  | none => false

/-- A schema must be one of an object. -/
def validateObjectSchema (serde : Serde) (canonical : String) : Except LlmError Unit := do
  let value ← okOr .invalidRequest (serde.fromStr canonical)
  if isObjectSchema value then .ok () else .error .unsupported

/-! ## Requests -/

/-- What a model is asked. -/
structure Prompt where
  system : Option String
  input : String
  deriving DecidableEq

/-- A prompt of bounded texts. -/
def Prompt.new (system : Option String) (input : String) : Except LlmError Prompt := do
  validateLen (byteLen input) maxPromptTextBytes
  match system with
  | some system => validateLen (byteLen system) maxPromptTextBytes
  | none => .ok ()
  let _ ← checkedSum [(system.map byteLen).getD 0, byteLen input] maxPromptBytes
  .ok ⟨system, input⟩

/-- A tool that a model may call. -/
structure ToolDefinition where
  name : ToolName
  description : String
  inputSchema : JsonObject
  deriving DecidableEq

/-- A tool with a bounded description and the schema of an object. -/
def ToolDefinition.new (serde : Serde) (name : ToolName) (description : String)
    (inputSchema : JsonObject) : Except LlmError ToolDefinition := do
  validateLen (byteLen description) maxToolDescriptionBytes
  validateObjectSchema serde inputSchema.canonical
  .ok ⟨name, description, inputSchema⟩

/-- What a model may generate. -/
structure GenerationLimits where
  maxOutputTokens : UInt32
  deriving DecidableEq

/-- Limits of at least one token. -/
def GenerationLimits.new (maxTokens : UInt32) : Except LlmError GenerationLimits :=
  if 1 ≤ maxTokens ∧ maxTokens ≤ Gateway.maxOutputTokens then .ok ⟨maxTokens⟩
  else .error .limitExceeded

/-- A request to a model provider. -/
structure GenerateRequest where
  providerId : ProviderId
  modelId : ModelId
  prompt : Prompt
  tools : List ToolDefinition
  limits : GenerationLimits
  deriving DecidableEq

/-- A request with distinct tools, bounded in number and in their schemas. -/
def GenerateRequest.new (providerId : ProviderId) (modelId : ModelId) (prompt : Prompt)
    (tools : List ToolDefinition) (limits : GenerationLimits) :
    Except LlmError GenerateRequest := do
  validateLen tools.length maxTools
  if (tools.map fun tool => tool.name.asStr).Nodup then do
    let _ ← checkedSum (tools.map fun tool => tool.inputSchema.len) maxToolSchemasBytes
    .ok ⟨providerId, modelId, prompt, tools, limits⟩
  else
    .error .invalidRequest

/-! ## Responses -/

/-- A call that a model asks for. -/
structure ToolCall where
  name : ToolName
  arguments : JsonObject
  deriving DecidableEq

/-- The tokens that a provider counted. -/
structure TokenUsage where
  inputTokens : UInt32
  outputTokens : UInt32
  totalTokens : UInt32
  deriving DecidableEq

/-- Why a model stopped. -/
inductive FinishReason where
  | stop
  | length
  | toolCalls
  | contentFilter
  | other
  deriving DecidableEq

/-- What a provider made of the idempotency key. -/
inductive IdempotencyDisposition where
  | unsupported
  | accepted
  deriving DecidableEq

/-- What a provider reports of a generation. -/
structure GenerationEvidence where
  providerId : ProviderId
  modelId : ModelId
  providerRequestId : Option ProviderRequestId
  finishReason : FinishReason
  tokenUsage : Option TokenUsage
  idempotency : IdempotencyDisposition
  deriving DecidableEq

/-- What a model answers. -/
structure GenerateResponse where
  text : String
  toolCalls : List ToolCall
  evidence : GenerationEvidence
  deriving DecidableEq

end RustFactory.Gateway
