import RustFactory.Agent.Scope
import RustFactory.Gateway.Model
import RustFactory.Knowledge.Model
import RustFactory.Lib.BTreeMap

/-!
# Agents: the local runtime

`LocalAgentRuntime::invoke_definition`.  An invocation resolves its scope, asks the model once,
plans every tool call of the response and then performs the plan, one call of an effect port after
the other.  The ports are adversarial: what a port answers may depend on every call made so far.
The result comes with the list of these calls, so what an invocation did can be read off also
where it failed.
-/

namespace RustFactory.Agent

open RustFactory.Lib RustFactory.Gateway

/-! ## Ports -/

/-- What a tool is asked. -/
structure ToolRequest where
  context : InvocationContext
  agentId : AgentId
  capabilityScope : ResolvedCapabilityScope
  input : String
  deriving DecidableEq

/-- What a memory is asked to recall or to keep. -/
structure MemoryRequest where
  context : InvocationContext
  agentId : AgentId
  capabilityScope : ResolvedCapabilityScope
  query : String
  limit : UInt32
  deriving DecidableEq

/-- What a sandbox is asked to execute. -/
structure SandboxRequest where
  context : InvocationContext
  agentId : AgentId
  capabilityScope : ResolvedCapabilityScope
  action : String
  arguments : List String
  deriving DecidableEq

/-- A call of an effect port with all it is given. -/
inductive PortCall where
  | tool (tool : ToolDescriptor) (request : ToolRequest)
  | memoryRecall (request : MemoryRequest)
  | memoryWrite (request : MemoryRequest) (value : String)
  | knowledgeSearch (request : Knowledge.SearchRequest)
  | sandboxExecute (request : SandboxRequest)
  deriving DecidableEq

/-- The ports behind the runtime and the external functions.  An effect port answers from the
calls made before and the call itself. -/
structure Runtime where
  serde : Serde
  sha256 : Sha256
  resolve : String → Except DefinitionError ToolDescriptor
  generate : GenerateRequest → Except LlmError GenerateResponse
  invokeTool : List PortCall → ToolDescriptor → ToolRequest → Except DefinitionError String
  recallMemory : List PortCall → MemoryRequest → Except DefinitionError (List String)
  writeMemory : List PortCall → MemoryRequest → String → Except DefinitionError Unit
  searchIndex : List PortCall → Knowledge.SearchRequest →
    Except Knowledge.KnowledgeError (List Knowledge.KnowledgeDocument)
  executeSandbox : List PortCall → SandboxRequest → Except DefinitionError String

/-- The two signals as the invocation finds them at its checks, counted from 0. -/
structure InvocationControl where
  isCancelled : ℕ → Bool
  isElapsed : ℕ → Bool

/-- A call may go on: it is neither cancelled nor past its deadline. -/
def InvocationControl.preflight (control : InvocationControl) (check : ℕ) : Except LlmError Unit :=
  if control.isCancelled check then .error .cancelled
  else if control.isElapsed check then .error .deadlineExceeded
  else .ok ()

/-- The arguments of `invoke_definition`. -/
structure Invocation where
  context : InvocationContext
  id : AgentId
  input : String
  definition : AgentDefinition
  ceiling : EffectiveCapabilityCeiling
  control : InvocationControl

/-! ## Errors of the gateway and of knowledge -/

/-- An error of the gateway, as the runtime reports it. -/
def mapGatewayError : LlmError → DefinitionError
  | .limitExceeded => .limitExceeded
  | .cancelled => .cancelled
  | .deadlineExceeded => .deadlineExceeded
  | .invalidRequest => .invalidDefinition
  | .unsupported | .authentication | .rateLimited | .unavailable | .providerRejected
  | .protocolViolation => .adapterFailure

/-- An error of the knowledge service, as the runtime reports it. -/
def mapKnowledgeError : Knowledge.KnowledgeError → DefinitionError
  | .invalidRequest => .invalidDefinition
  | .limitExceeded => .limitExceeded
  | .unavailable | .protocolViolation => .adapterFailure

/-! ## The request to the model -/

/-- The text before the first separator and the text after it. -/
def splitOnce (separator : Char) (text : String) : Option (String × String) :=
  match text.toList.span (· != separator) with
  | (_, []) => none
  | (head, _ :: tail) => some (String.ofList head, String.ofList tail)

/-- The provider and the model that a reference names. -/
def parseModelReference (reference : String) : Except DefinitionError (ProviderId × ModelId) := do
  let (provider, model) ← okOr .invalidReference ((splitOnce '.' reference).filter fun parts =>
    parts.1 ≠ "" && parts.2 ≠ "" && !parts.2.toList.contains '.')
  let providerId ← (Identifier.new provider).mapError mapGatewayError
  let modelId ← (Identifier.new model).mapError mapGatewayError
  .ok (providerId, modelId)

/-- The tool that recalls from the memory. -/
def memoryRecallTool : String := "factory.memory.recall"

/-- The tool that writes to the memory. -/
def memoryWriteTool : String := "factory.memory.write"

/-- The tool that searches the knowledge. -/
def knowledgeSearchTool : String := "factory.knowledge.search"

/-- The tool that executes a command. -/
def sandboxExecuteTool : String := "factory.sandbox.execute"

/-- The tools that the runtime provides itself. -/
def reservedToolNames : List String :=
  [memoryRecallTool, memoryWriteTool, knowledgeSearchTool, sandboxExecuteTool]

/-- The schema of an object with one text member. -/
def textSchema (field : String) : String :=
  "\x7b\"additionalProperties\":false,\"properties\":\x7b\"" ++ field ++
    "\":\x7b\"type\":\"string\"\x7d\x7d,\"required\":[\"" ++ field ++
    "\"],\"type\":\"object\"\x7d"

/-- The schema of a tool with an input. -/
def stringArgumentSchema : String := textSchema "input"

/-- The schema of a tool with a query. -/
def querySchema : String := textSchema "query"

/-- The schema of a tool with a value. -/
def valueSchema : String := textSchema "value"

/-- The schema of the tool that executes a command. -/
def sandboxSchema : String :=
  "\x7b\"additionalProperties\":false,\"properties\":\x7b\"action\":\x7b\"type\":\"string\"\x7d," ++
    "\"arguments\":\x7b\"items\":\x7b\"type\":\"string\"\x7d,\"type\":\"array\"\x7d\x7d," ++
    "\"required\":[\"action\",\"arguments\"],\"type\":\"object\"\x7d"

def gatewayTool (serde : Serde) (name : ToolName) (description schema : String) :
    Except DefinitionError ToolDefinition := do
  let inputSchema ← (JsonObject.new serde schema).mapError mapGatewayError
  (ToolDefinition.new serde name description inputSchema).mapError mapGatewayError

def gatewayToolName (serde : Serde) (name schema : String) :
    Except DefinitionError ToolDefinition := do
  let name ← (ToolName.new name).mapError mapGatewayError
  gatewayTool serde name "Agent reserved capability" schema

/-- The loop of `gateway_tools` over the resolved tools. -/
def ordinaryTools (serde : Serde) :
    List ToolDescriptor → BTreeMap String ToolDescriptor →
      Except DefinitionError (List ToolDefinition × BTreeMap String ToolDescriptor)
  | [], ordinary => .ok ([], ordinary)
  | tool :: resolved, ordinary =>
    if reservedToolNames.contains tool.id then .error .invalidReference else do
      let name ← (ToolName.new tool.id).mapError mapGatewayError
      if (ordinary[name.asStr]?).isSome then .error .invalidDefinition else do
        let definition ← gatewayTool serde name "Agent tool" stringArgumentSchema
        let (definitions, ordinary) ←
          ordinaryTools serde resolved (ordinary.insert name.asStr tool)
        .ok (definition :: definitions, ordinary)

/-- The definitions of a reserved capability, if the scope has it. -/
def reservedTools (serde : Serde) (enabled : Bool) (tools : List (String × String)) :
    Except DefinitionError (List ToolDefinition) :=
  if enabled then tools.mapM fun tool => gatewayToolName serde tool.1 tool.2 else .ok []

/-- The tools offered to the model: those of the scope and the reserved ones that it allows. -/
def gatewayTools (serde : Serde) (resolved : List ToolDescriptor)
    (scope : ResolvedCapabilityScope) :
    Except DefinitionError (List ToolDefinition × BTreeMap String ToolDescriptor) := do
  let (definitions, ordinary) ← ordinaryTools serde resolved ∅
  let memory ← reservedTools serde scope.memory.enabled
    [(memoryRecallTool, querySchema), (memoryWriteTool, valueSchema)]
  let knowledge ← reservedTools serde scope.knowledge.enabled [(knowledgeSearchTool, querySchema)]
  let sandbox ← reservedTools serde scope.sandbox.allowExecution
    [(sandboxExecuteTool, sandboxSchema)]
  .ok (definitions ++ memory ++ knowledge ++ sandbox, ordinary)

/-- What an invocation has resolved when it asks the model. -/
structure Prepared where
  scope : ResolvedCapabilityScope
  ordinaryTools : BTreeMap String ToolDescriptor
  request : GenerateRequest

/-- `invoke_definition` up to the request to the model. -/
def prepare (rt : Runtime) (inv : Invocation) : Except DefinitionError Prepared :=
  if maxInputBytes < byteLen inv.input then .error .limitExceeded else do
    let effective ← inv.ceiling.intersect inv.definition
    let resolved ← effective.allowedToolIds.mapM rt.resolve
    let scope := ResolvedCapabilityScope.fromDefinition rt.sha256 inv.definition resolved effective
    let (providerId, modelId) ← parseModelReference inv.definition.model.reference
    let (toolDefinitions, ordinary) ← gatewayTools rt.serde resolved scope
    let prompt ←
      (Prompt.new (some inv.definition.instructions) inv.input).mapError mapGatewayError
    let limits ←
      (GenerationLimits.new inv.definition.limits.maxOutputBytes).mapError mapGatewayError
    let request ← (GenerateRequest.new providerId modelId prompt toolDefinitions
      limits).mapError mapGatewayError
    .ok ⟨scope, ordinary, request⟩

/-! ## The plan -/

/-- The arguments as an object with so many members. -/
def strictObject (serde : Serde) (arguments : JsonObject) (members : ℕ) :
    Except DefinitionError (List (String × Json)) := do
  let value ← okOr .adapterFailure (serde.fromStr arguments.canonical)
  let object ← okOr .adapterFailure value.asObject
  if object.length ≠ members then .error .invalidDefinition else .ok object

/-- The one member of the arguments, a string. -/
def strictStringArgument (serde : Serde) (arguments : JsonObject) (field : String) :
    Except DefinitionError String := do
  let object ← strictObject serde arguments 1
  okOr .invalidDefinition ((object.lookup field).bind Json.asStr)

/-- The action and the arguments of a command. -/
def strictSandboxArguments (serde : Serde) (arguments : JsonObject) :
    Except DefinitionError (String × List String) := do
  let object ← strictObject serde arguments 2
  let action ← okOr .invalidDefinition ((object.lookup "action").bind Json.asStr)
  let values ← okOr .invalidDefinition ((object.lookup "arguments").bind Json.asArray)
  let values ← values.mapM fun value => okOr .invalidDefinition value.asStr
  .ok (action, values)

/-- What a tool call asks for, once it is checked. -/
inductive PlannedEffect where
  | tool (tool : ToolDescriptor) (input : String)
  | memoryRecall (query : String)
  | memoryWrite (value : String)
  | knowledgeSearch (query : String)
  | sandboxExecute (action : String) (arguments : List String)
  deriving DecidableEq

/-- A call with one text argument: permission, form, size. -/
def planText (serde : Serde) (arguments : JsonObject) (allowed : Bool) (denied : DefinitionError)
    (field : String) (maximum : ℕ) (effect : String → PlannedEffect) :
    Except DefinitionError PlannedEffect :=
  if allowed then do
    let value ← strictStringArgument serde arguments field
    if maximum < byteLen value then .error .limitExceeded else .ok (effect value)
  else
    .error denied

/-- The check of a call that executes a command. -/
def planSandbox (serde : Serde) (arguments : JsonObject) (scope : ResolvedCapabilityScope) :
    Except DefinitionError PlannedEffect :=
  if scope.sandbox.allowExecution then do
    let (action, values) ← strictSandboxArguments serde arguments
    if maxInputBytes < byteLen action ∨ maxSandboxArguments < values.length ∨
        values.any (fun value => maxSandboxArgumentBytes < byteLen value) then
      .error .limitExceeded
    else .ok (.sandboxExecute action values)
  else
    .error .sandboxDenied

/-- One round of the planning pass.  Resolved tools come before the reserved names. -/
def planCall (serde : Serde) (scope : ResolvedCapabilityScope)
    (ordinary : BTreeMap String ToolDescriptor) (call : ToolCall) :
    Except DefinitionError PlannedEffect :=
  match ordinary[call.name.asStr]? with
  | some tool =>
    planText serde call.arguments (scope.allowedToolIds.contains tool.id) (.toolDisallowed tool.id)
      "input" maxToolRequestInputBytes (.tool tool)
  | none =>
    if call.name.asStr = memoryRecallTool then
      planText serde call.arguments scope.memory.enabled .memoryDenied "query" maxInputBytes
        .memoryRecall
    else if call.name.asStr = memoryWriteTool then
      planText serde call.arguments scope.memory.enabled .memoryDenied "value"
        maxMemoryWriteValueBytes .memoryWrite
    else if call.name.asStr = knowledgeSearchTool then
      planText serde call.arguments scope.knowledge.enabled .knowledgeDenied "query" maxInputBytes
        .knowledgeSearch
    else if call.name.asStr = sandboxExecuteTool then
      planSandbox serde call.arguments scope
    else
      .error (.toolDisallowed call.name.asStr)

/-! ## Output bytes -/

/-- The bytes of the outputs so far, which must stay within the limit. -/
def checkedOutputBytes (value : String) (used : ℕ) (max : UInt32) : Except DefinitionError ℕ :=
  if used + byteLen value < 2 ^ 64 ∧ used + byteLen value ≤ max.toNat then
    .ok (used + byteLen value)
  else .error .limitExceeded

/-- The bytes with those of the recalled values. -/
def checkedValuesOutputBytes (values : List String) (used : ℕ) (max : UInt32) :
    Except DefinitionError ℕ :=
  values.foldlM (fun total value => checkedOutputBytes value total max) used

/-- What the agent sees of a hit. -/
structure KnowledgeResult where
  documentId : String
  text : String
  deriving DecidableEq

/-- The bytes with those of the texts found. -/
def checkedKnowledgeResultsOutputBytes (results : List KnowledgeResult) (used : ℕ) (max : UInt32) :
    Except DefinitionError ℕ :=
  results.foldlM (fun total result => checkedOutputBytes result.text total max) used

/-! ## The effects -/

/-- What an invocation has done. -/
inductive InvocationEvent where
  | modelInvoked
  | memoryRecalled (values : List String)
  | memoryWritten
  | knowledgeSearched (results : List KnowledgeResult)
  | sandboxCompleted (output : String)
  | toolCompleted (toolId output : String)
  deriving DecidableEq

/-- The request of a knowledge search: identity from the context, the rest from the scope. -/
def searchRequest (context : InvocationContext) (scope : ResolvedCapabilityScope)
    (query : String) : Except DefinitionError Knowledge.SearchRequest := do
  let tenantId ← (Knowledge.Identifier.new context.tenantId.asStr).mapError mapKnowledgeError
  let principalId ← (Knowledge.Identifier.new context.principalId.asStr).mapError mapKnowledgeError
  let «namespace» ← (Knowledge.Identifier.new scope.knowledge.namespace).mapError mapKnowledgeError
  let query ← (Knowledge.Query.new query).mapError mapKnowledgeError
  let limit ← (Knowledge.SearchLimit.new scope.knowledge.maxResults).mapError mapKnowledgeError
  .ok ⟨⟨tenantId, principalId⟩, «namespace», query, limit⟩

/-- The port call of a planned effect. -/
def portCall (inv : Invocation) (scope : ResolvedCapabilityScope) :
    PlannedEffect → Except DefinitionError PortCall
  | .tool tool input => .ok (.tool tool ⟨inv.context, inv.id, scope, input⟩)
  | .memoryRecall query =>
    .ok (.memoryRecall ⟨inv.context, inv.id, scope, query, scope.memory.maxItems⟩)
  | .memoryWrite value =>
    .ok (.memoryWrite ⟨inv.context, inv.id, scope, "", scope.memory.maxItems⟩ value)
  | .knowledgeSearch query => (searchRequest inv.context scope query).map .knowledgeSearch
  | .sandboxExecute action arguments =>
    .ok (.sandboxExecute ⟨inv.context, inv.id, scope, action, arguments⟩)

/-- The port's answer to a call after the calls `done`, with the output bytes used then and the
event it leaves. -/
def answer (rt : Runtime) (max : UInt32) (done : List PortCall) (used : ℕ) :
    PortCall → Except DefinitionError (ℕ × InvocationEvent)
  | .tool tool request => do
    let output ← rt.invokeTool done tool request
    let used ← checkedOutputBytes output used max
    .ok (used, .toolCompleted tool.id output)
  | .memoryRecall request => do
    let values ← rt.recallMemory done request
    let used ← checkedValuesOutputBytes values used max
    .ok (used, .memoryRecalled values)
  | .memoryWrite request value => do
    rt.writeMemory done request value
    .ok (used, .memoryWritten)
  | .knowledgeSearch request => do
    let result ← (Knowledge.search request (rt.searchIndex done request)).mapError mapKnowledgeError
    let results := result.hits.map fun hit => ⟨hit.documentId.asStr, hit.text⟩
    let used ← checkedKnowledgeResultsOutputBytes results used max
    .ok (used, .knowledgeSearched results)
  | .sandboxExecute request => do
    let output ← rt.executeSandbox done request
    let used ← checkedOutputBytes output used max
    .ok (used, .sandboxCompleted output)

/-- What every branch of the execution pass does before it calls its port. -/
def admitEffect (inv : Invocation) (scope : ResolvedCapabilityScope) (check : ℕ)
    (effect : PlannedEffect) : Except DefinitionError PortCall := do
  (inv.control.preflight check).mapError mapGatewayError
  portCall inv scope effect

/-- The execution pass, with the events of the effects and the calls made. -/
def execute (rt : Runtime) (inv : Invocation) (scope : ResolvedCapabilityScope) :
    List PlannedEffect → (check used : ℕ) → (done : List PortCall) →
      Except DefinitionError (List InvocationEvent) × List PortCall
  | [], _, _, done => (.ok [], done)
  | effect :: plan, check, used, done =>
    match admitEffect inv scope check effect with
    | .error e => (.error e, done)
    | .ok call =>
      match answer rt scope.limits.maxOutputBytes done used call with
      | .error e => (.error e, done ++ [call])
      | .ok (used, event) =>
        let (events, done) := execute rt inv scope plan (check + 1) used (done ++ [call])
        (events.map (event :: ·), done)

/-! ## Invocations -/

/-- What the result says of the model. -/
structure InvocationModelEvidence where
  providerId : String
  modelId : String
  providerRequestId : Option String
  finishReason : FinishReason
  tokenUsage : Option TokenUsage
  idempotency : IdempotencyDisposition
  deriving DecidableEq

/-- The evidence of the gateway in the runtime's terms. -/
def projectModelEvidence (evidence : GenerationEvidence) : InvocationModelEvidence where
  providerId := evidence.providerId.asStr
  modelId := evidence.modelId.asStr
  providerRequestId := evidence.providerRequestId.map Identifier.asStr
  finishReason := evidence.finishReason
  tokenUsage := evidence.tokenUsage
  idempotency := evidence.idempotency

/-- What an invocation returns. -/
structure InvocationResult where
  capabilityScopeDigest : String
  events : List InvocationEvent
  output : String
  modelEvidence : InvocationModelEvidence
  deriving DecidableEq

/-- An invocation at the end of its planning pass. -/
structure Planned where
  scope : ResolvedCapabilityScope
  response : GenerateResponse
  outputBytes : ℕ
  plan : List PlannedEffect

/-- `invoke_definition` from the answer of the model to the end of the planning pass. -/
def planResponse (rt : Runtime) (inv : Invocation) (prepared : Prepared)
    (response : GenerateResponse) : Except DefinitionError Planned := do
  (inv.control.preflight 0).mapError mapGatewayError
  if inv.definition.limits.maxToolCalls.toNat < response.toolCalls.length ∨
      maxToolCalls.toNat < response.toolCalls.length then
    .error .limitExceeded
  else do
    let outputBytes ← checkedOutputBytes response.text 0 inv.definition.limits.maxOutputBytes
    let plan ← response.toolCalls.mapM
      (planCall rt.serde prepared.scope prepared.ordinaryTools)
    .ok ⟨prepared.scope, response, outputBytes, plan⟩

/-- `invoke_definition` before its first effect. -/
def planInvocation (rt : Runtime) (inv : Invocation) : Except DefinitionError Planned := do
  let prepared ← prepare rt inv
  let response ← (rt.generate prepared.request).mapError mapGatewayError
  planResponse rt inv prepared response

/-- The result of a plan whose effects have been carried out. -/
def finish (planned : Planned) (events : List InvocationEvent) : InvocationResult where
  capabilityScopeDigest := planned.scope.digest
  events := .modelInvoked :: events
  output := planned.response.text
  modelEvidence := projectModelEvidence planned.response.evidence

/-- `invoke_definition`: its result and the port calls it made. -/
def invokeDefinition (rt : Runtime) (inv : Invocation) :
    Except DefinitionError InvocationResult × List PortCall :=
  match planInvocation rt inv with
  | .error e => (.error e, [])
  | .ok planned =>
    let (events, calls) := execute rt inv planned.scope planned.plan 1 planned.outputBytes []
    (events.map (finish planned), calls)

/-! ## What an invocation does -/

section Execution

variable {rt : Runtime} {inv : Invocation} {scope : ResolvedCapabilityScope}

theorem invokeDefinition_of_planned {planned : Planned}
    (h : planInvocation rt inv = .ok planned) :
    invokeDefinition rt inv =
      ((execute rt inv planned.scope planned.plan 1 planned.outputBytes []).1.map (finish planned),
        (execute rt inv planned.scope planned.plan 1 planned.outputBytes []).2) := by
  unfold invokeDefinition
  rw [h]

theorem invokeDefinition_of_refused {e : DefinitionError}
    (h : planInvocation rt inv = .error e) : invokeDefinition rt inv = (.error e, []) := by
  unfold invokeDefinition
  rw [h]

theorem admitEffect_eq_ok {check : ℕ} {effect : PlannedEffect} {call : PortCall} :
    admitEffect inv scope check effect = .ok call ↔
      inv.control.preflight check = .ok () ∧ portCall inv scope effect = .ok call := by
  unfold admitEffect
  rw [bind_eq_ok]
  constructor
  · rintro ⟨⟨⟩, hcheck, hcall⟩
    exact ⟨mapError_eq_ok.mp hcheck, hcall⟩
  · rintro ⟨hcheck, hcall⟩
    exact ⟨(), mapError_eq_ok.mpr hcheck, hcall⟩

section Steps

variable {plan : List PlannedEffect} {effect : PlannedEffect} {call : PortCall} {check used : ℕ}
  {done : List PortCall}

theorem execute_refused {e : DefinitionError} (h : admitEffect inv scope check effect = .error e) :
    execute rt inv scope (effect :: plan) check used done = (.error e, done) := by
  simp only [execute, h]

theorem execute_failed {e : DefinitionError} (h : admitEffect inv scope check effect = .ok call)
    (ha : answer rt scope.limits.maxOutputBytes done used call = .error e) :
    execute rt inv scope (effect :: plan) check used done = (.error e, done ++ [call]) := by
  simp only [execute, h, ha]

theorem execute_answered {answered : ℕ × InvocationEvent}
    (h : admitEffect inv scope check effect = .ok call)
    (ha : answer rt scope.limits.maxOutputBytes done used call = .ok answered) :
    execute rt inv scope (effect :: plan) check used done =
      ((execute rt inv scope plan (check + 1) answered.1 (done ++ [call])).1.map (answered.2 :: ·),
        (execute rt inv scope plan (check + 1) answered.1 (done ++ [call])).2) := by
  simp only [execute, h, ha]

end Steps

/-- The calls of an execution are those of the first effects of the plan, in order. -/
theorem execute_calls (plan : List PlannedEffect) (check used : ℕ) (done : List PortCall) :
    ∃ performed rest calls, plan = performed ++ rest ∧
      (execute rt inv scope plan check used done).2 = done ++ calls ∧
      List.Forall₂ (fun effect call => portCall inv scope effect = .ok call) performed calls := by
  induction plan generalizing check used done with
  | nil => exact ⟨[], [], [], rfl, (List.append_nil done).symm, .nil⟩
  | cons effect plan ih =>
    cases hadmitted : admitEffect inv scope check effect with
    | error e =>
      rw [execute_refused hadmitted]
      exact ⟨[], effect :: plan, [], rfl, (List.append_nil done).symm, .nil⟩
    | ok call =>
      have hcall := (admitEffect_eq_ok.mp hadmitted).2
      cases hanswer : answer rt scope.limits.maxOutputBytes done used call with
      | error e =>
        rw [execute_failed hadmitted hanswer]
        exact ⟨[effect], plan, [call], rfl, rfl, .cons hcall .nil⟩
      | ok answered =>
        obtain ⟨performed, rest, calls, rfl, hcalls, hall⟩ :=
          ih (check + 1) answered.1 (done ++ [call])
        rw [execute_answered hadmitted hanswer]
        refine ⟨effect :: performed, rest, call :: calls, rfl, ?_, .cons hcall hall⟩
        show (execute rt inv scope (performed ++ rest) (check + 1) answered.1 (done ++ [call])).2 = _
        rw [hcalls, List.append_assoc, List.singleton_append]

/-- An execution that succeeds has performed its whole plan. -/
theorem portCall_of_execute_ok {plan : List PlannedEffect} {check used : ℕ}
    {done : List PortCall} {events : List InvocationEvent}
    (h : (execute rt inv scope plan check used done).1 = .ok events) :
    ∀ effect ∈ plan, (portCall inv scope effect).isOk := by
  induction plan generalizing check used done events with
  | nil => exact fun effect hmem => absurd hmem List.not_mem_nil
  | cons effect plan ih =>
    cases hadmitted : admitEffect inv scope check effect with
    | error e =>
      rw [execute_refused hadmitted] at h
      cases h
    | ok call =>
      cases hanswer : answer rt scope.limits.maxOutputBytes done used call with
      | error e =>
        rw [execute_failed hadmitted hanswer] at h
        cases h
      | ok answered =>
        rw [execute_answered hadmitted hanswer] at h
        intro effect' hmem
        rcases List.mem_cons.mp hmem with rfl | hmem
        · exact isOk_iff.mpr ⟨call, (admitEffect_eq_ok.mp hadmitted).2⟩
        · cases hrest : (execute rt inv scope plan (check + 1) answered.1 (done ++ [call])).1 with
          | error e => simp only [hrest] at h; cases h
          | ok rest => exact ih hrest effect' hmem

/-- An execution makes no call exactly where its first effect is not admitted. -/
theorem execute_calls_eq_nil {plan : List PlannedEffect} {check used : ℕ} :
    (execute rt inv scope plan check used []).2 = [] ↔
      ∀ effect ∈ plan.head?, ¬(admitEffect inv scope check effect).isOk := by
  cases plan with
  | nil => exact ⟨fun _ => nofun, fun _ => rfl⟩
  | cons effect plan =>
    cases hadmitted : admitEffect inv scope check effect with
    | error e =>
      rw [execute_refused hadmitted]
      refine iff_of_true rfl fun effect' hmem => ?_
      cases hmem
      exact not_isOk_iff.mpr ⟨e, hadmitted⟩
    | ok call =>
      refine iff_of_false ?_ fun hall => hall effect rfl (isOk_iff.mpr ⟨call, hadmitted⟩)
      cases hanswer : answer rt scope.limits.maxOutputBytes [] used call with
      | error e =>
        rw [execute_failed hadmitted hanswer]
        exact List.cons_ne_nil call []
      | ok answered =>
        obtain ⟨-, -, calls, -, hcalls, -⟩ :=
          @execute_calls rt inv scope plan (check + 1) answered.1 ([] ++ [call])
        rw [execute_answered hadmitted hanswer]
        show (execute rt inv scope plan (check + 1) answered.1 ([] ++ [call])).2 ≠ []
        rw [hcalls]
        exact List.cons_ne_nil call calls

end Execution

/-! ## Sample runtimes -/

/-- The parse of `textSchema`. -/
def textSchemaJson (field : String) : Json :=
  .object
    [("additionalProperties", .bool false),
      ("properties", .object [(field, .object [("type", .string "string")])]),
      ("required", .array [.string field]), ("type", .string "object")]

/-- The parse of `sandboxSchema`. -/
def sandboxSchemaJson : Json :=
  .object
    [("additionalProperties", .bool false),
      ("properties", .object
        [("action", .object [("type", .string "string")]),
          ("arguments", .object
            [("items", .object [("type", .string "string")]), ("type", .string "array")])]),
      ("required", .array [.string "action", .string "arguments"]), ("type", .string "object")]

def sampleTexts : List (String × Json) :=
  [(stringArgumentSchema, textSchemaJson "input"), (querySchema, textSchemaJson "query"),
    (valueSchema, textSchemaJson "value"), (sandboxSchema, sandboxSchemaJson),
    ("\x7b\"input\":\"first\"\x7d", .object [("input", .string "first")]),
    ("\x7b\"query\":\"rust\"\x7d", .object [("query", .string "rust")]),
    ("\x7b\"query\":\" \"\x7d", .object [("query", .string " ")])]

mutual

/-- The compact text of a value whose texts need no escapes. -/
def compact : Json → String
  | .null => "null"
  | .bool value => if value then "true" else "false"
  | .number literal => literal
  | .string value => "\"" ++ value ++ "\""
  | .array values => "[" ++ String.intercalate "," (compactValues values) ++ "]"
  | .object members => "\x7b" ++ String.intercalate "," (compactMembers members) ++ "\x7d"

def compactValues : List Json → List String
  | [] => []
  | value :: values => compact value :: compactValues values

def compactMembers : List (String × Json) → List String
  | [] => []
  | (key, value) :: members => ("\"" ++ key ++ "\":" ++ compact value) :: compactMembers members

end

/-- JSON on these texts, which are canonical already. -/
def sampleSerde : Serde where
  parse text := sampleTexts.lookup text
  print := compact

/-- SHA-256 on the scope of `sampleInvocation`, without and with memory. -/
def sampleSha256 (memory : Bool) : Sha256 where
  digest _ := if memory then
      [176, 139, 190, 22, 177, 97, 159, 161, 20, 44, 93, 192, 247, 137, 66, 232, 182, 96, 101, 59,
        130, 234, 90, 85, 13, 185, 102, 177, 94, 98, 144, 65]
    else
      [144, 255, 235, 241, 42, 25, 249, 75, 83, 7, 104, 143, 85, 82, 214, 125, 86, 236, 207, 231,
        88, 231, 182, 182, 75, 171, 86, 255, 252, 202, 160, 52]
  length_digest _ := by cases memory <;> rfl

/-- A runtime whose model answers with the given calls and whose ports answer every call. -/
def sampleRuntime (memory : Bool) (calls : List ToolCall) : Runtime where
  serde := sampleSerde
  sha256 := sampleSha256 memory
  resolve id := .ok ⟨id⟩
  generate request := .ok
    { text := "done"
      toolCalls := calls
      evidence := ⟨request.providerId, request.modelId, none, .toolCalls, none, .unsupported⟩ }
  invokeTool _ _ _ := .ok "output"
  recallMemory _ _ := .ok []
  writeMemory _ _ _ := .ok ()
  searchIndex _ _ := .ok []
  executeSandbox _ _ := .ok ""

def sampleDefinition (memory : Bool) : AgentDefinition where
  version := .v1
  id := ⟨"agent", by decide⟩
  name := "Agent"
  description := "An agent."
  model := ⟨"provider.model"⟩
  instructions := "Answer."
  skills := []
  steering := []
  allowedToolIds := ["allowed"]
  memory := ⟨memory, 8⟩
  knowledge := ⟨true, "team", 5⟩
  sandbox := ⟨false⟩
  communication := ⟨false⟩
  limits := ⟨4, 1024⟩

/-- An invocation with one tool, knowledge and perhaps memory, which nothing interrupts. -/
def sampleInvocation (memory : Bool) (requestId : RequestId) : Invocation where
  context := ⟨⟨"tenant", by decide⟩, ⟨"principal", by decide⟩, requestId,
    ⟨"correlation", by decide⟩⟩
  id := ⟨"agent", by decide⟩
  input := "question"
  definition := sampleDefinition memory
  ceiling := .fullDefinition (sampleDefinition memory)
  control := ⟨fun _ => false, fun _ => false⟩

end RustFactory.Agent
