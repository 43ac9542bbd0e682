import RustFactory.Lib.Bytes
import RustFactory.Lib.Except

/-!
# Agents: definitions and capability ceilings

The identifiers of the agent crate, the definition of an agent with its policies, and the
capability ceiling an external grant puts over it.  A ceiling only narrows: `intersect` keeps what
both the ceiling and the definition allow.
-/

namespace RustFactory.Agent

open RustFactory.Lib

/-- The errors of the agent runtime. -/
inductive DefinitionError where
  | invalidRequest
  | invalidId
  | invalidDefinition
  | invalidReference
  | referenceUnavailable
  | notFound
  | builtinProtected
  | unknownTool (id : String)
  | toolDisallowed (id : String)
  | memoryDenied
  | knowledgeDenied
  | sandboxDenied
  | adapterFailure
  | limitExceeded
  | cancelled
  | deadlineExceeded
  deriving DecidableEq, Repr

/-! ## Identifiers -/

/-- The first byte of an identifier. -/
def isIdStart (b : UInt8) : Bool := isAsciiLowercase b || isAsciiDigit b

/-- A later byte of an identifier. -/
def isIdByte (b : UInt8) : Bool := isAsciiLowercase b || isAsciiDigit b || b == 95 || b == 45

/-- The pattern `[a-z0-9][a-z0-9_-]{0,127}`, which all identifiers share. -/
def isId (value : String) : Bool :=
  (utf8 value).length ≤ 128 && match utf8 value with
    | [] => false
    | first :: rest => isIdStart first && rest.all isIdByte

/-- The identifier of an agent. -/
structure AgentId where
  asStr : String
  valid : isId asStr
  deriving DecidableEq

/-- A checked agent identifier. -/
def AgentId.new (value : String) : Except DefinitionError AgentId :=
  if h : isId value then .ok ⟨value, h⟩ else .error .invalidId

/-- The macro behind the four identifiers of an invocation. -/
structure InvocationId where
  asStr : String
  valid : isId asStr
  deriving DecidableEq

/-- A checked identifier of an invocation. -/
def InvocationId.new (value : String) : Except DefinitionError InvocationId :=
  if h : isId value then .ok ⟨value, h⟩ else .error .invalidRequest

/-- Whose data an invocation is about. -/
abbrev TenantId := InvocationId

/-- On whose behalf an agent is invoked. -/
abbrev PrincipalId := InvocationId

/-- The request that invokes it. -/
abbrev RequestId := InvocationId

/-- The chain of requests that the request belongs to. -/
abbrev CorrelationId := InvocationId

/-- The identity of an invocation. -/
structure InvocationContext where
  tenantId : TenantId
  principalId : PrincipalId
  requestId : RequestId
  correlationId : CorrelationId
  deriving DecidableEq

/-! ## Definitions -/

/-- The versions of agent definitions. -/
inductive DefinitionVersion where
  | v1
  deriving DecidableEq

/-- The model of an agent, by reference. -/
structure ModelPolicy where
  reference : String
  deriving DecidableEq

/-- Whether an agent has a memory, and how much of it is searched. -/
structure MemoryPolicy where
  enabled : Bool
  maxItems : UInt32
  deriving DecidableEq

/-- Whether an agent has knowledge, where, and how much of it is searched. -/
structure KnowledgePolicy where
  enabled : Bool
  «namespace» : String
  maxResults : UInt32
  deriving DecidableEq

/-- Whether an agent may execute commands. -/
structure SandboxPolicy where
  allowExecution : Bool
  deriving DecidableEq

/-- Whether an agent may send messages. -/
structure CommunicationPolicy where
  allowMessages : Bool
  deriving DecidableEq

/-- What one invocation may use. -/
structure ExecutionLimits where
  maxToolCalls : UInt32
  maxOutputBytes : UInt32
  deriving DecidableEq

/-- An agent as its author defines it. -/
structure AgentDefinition where
  version : DefinitionVersion
  id : AgentId
  name : String
  description : String
  model : ModelPolicy
  instructions : String
  skills : List String
  steering : List String
  allowedToolIds : List String
  memory : MemoryPolicy
  knowledge : KnowledgePolicy
  sandbox : SandboxPolicy
  communication : CommunicationPolicy
  limits : ExecutionLimits
  deriving DecidableEq

/-- The most tool calls of an invocation. -/
def maxToolCalls : UInt32 := 64

/-- The longest input of an invocation, in bytes. -/
def maxInputBytes : ℕ := 16384

/-- The longest value that an agent may remember, in bytes. -/
def maxMemoryWriteValueBytes : ℕ := 16384

/-- The longest input of a tool, in bytes. -/
def maxToolRequestInputBytes : ℕ := 16384

/-- The most arguments of a command. -/
def maxSandboxArguments : ℕ := 32

/-- The longest argument of a command, in bytes. -/
def maxSandboxArgumentBytes : ℕ := 4096

/-- The most tools of a ceiling, repetitions counted. -/
def maxCapabilityReferences : ℕ := 64

/-! ## Ceilings -/

/-- What an invocation is allowed at most, whatever the definition of the agent asks for. -/
structure EffectiveCapabilityCeiling where
  allowedToolIds : List String
  memoryEnabled : Bool
  knowledgeEnabled : Bool
  sandboxExecutionAllowed : Bool
  communicationAllowed : Bool
  deriving DecidableEq

/-- A byte inside a reference. -/
def isReferenceByte (b : UInt8) : Bool :=
  isAsciiLowercase b || isAsciiDigit b || b == 45 || b == 95 || b == 46

/-- A reference starts and ends with a letter or digit. -/
def validReference (value : String) : Bool :=
  let bytes := utf8 value
  !bytes.isEmpty && bytes.length ≤ 128 && isAsciiAlphanumeric (bytes.headD 0) &&
    isAsciiAlphanumeric (bytes.getLastD 0) && bytes.all isReferenceByte

/-- A ceiling with a bounded number of proper tool references. -/
def validateEffectiveCapabilityCeiling (ceiling : EffectiveCapabilityCeiling) :
    Except DefinitionError Unit :=
  if maxCapabilityReferences < ceiling.allowedToolIds.length then
    .error .invalidDefinition
  else if ceiling.allowedToolIds.all validReference then
    .ok ()
  else
    .error .invalidReference

/-- `sort` followed by `dedup`. -/
def sortDedup (values : List String) : List String :=
  (values.mergeSort fun a b => decide (a ≤ b)).destutter (· ≠ ·)

/-- The ceiling that takes nothing from the definition. -/
def EffectiveCapabilityCeiling.fullDefinition (definition : AgentDefinition) :
    EffectiveCapabilityCeiling where
  allowedToolIds := definition.allowedToolIds
  memoryEnabled := definition.memory.enabled
  knowledgeEnabled := definition.knowledge.enabled
  sandboxExecutionAllowed := definition.sandbox.allowExecution
  communicationAllowed := definition.communication.allowMessages

/-- What both the ceiling and the definition allow; the tools are sorted and without repetitions. -/
def EffectiveCapabilityCeiling.intersect (ceiling : EffectiveCapabilityCeiling)
    (definition : AgentDefinition) : Except DefinitionError EffectiveCapabilityCeiling := do
  validateEffectiveCapabilityCeiling ceiling
  .ok
    { allowedToolIds :=
        sortDedup (ceiling.allowedToolIds.filter fun id => definition.allowedToolIds.contains id)
      memoryEnabled := ceiling.memoryEnabled && definition.memory.enabled
      knowledgeEnabled := ceiling.knowledgeEnabled && definition.knowledge.enabled
      sandboxExecutionAllowed :=
        ceiling.sandboxExecutionAllowed && definition.sandbox.allowExecution
      communicationAllowed :=
        ceiling.communicationAllowed && definition.communication.allowMessages }

end RustFactory.Agent
