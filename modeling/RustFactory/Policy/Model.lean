import RustFactory.Lib.BTreeMap
import RustFactory.Lib.Except
import RustFactory.Lib.Framing

/-!
# Policy: grants and decisions

Trusted request contexts, capability grants and authorization decisions, with the canonical bytes
that their digests are taken over.
-/

namespace RustFactory.Policy

open RustFactory.Lib

/-- What an operation of the policy crate can fail with. -/
inductive PolicyError where
  | invalidId
  | invalidGrant
  | limitExceeded
  deriving DecidableEq, Repr

/-- The longest logical identifier, in bytes. -/
def maxLogicalIdBytes : ℕ := 128

/-- The most tools a grant may list, repetitions counted. -/
def maxToolIds : ℕ := 64

/-- The longest tool identifier, in bytes. -/
def maxToolIdBytes : ℕ := 128

/-! ## Identifiers -/

/-- The first byte of a logical identifier. -/
def isLogicalIdStart (b : UInt8) : Bool := isAsciiLowercase b || isAsciiDigit b

/-- A later byte of a logical identifier. -/
def isLogicalIdByte (b : UInt8) : Bool :=
  isAsciiLowercase b || isAsciiDigit b || b == 95 || b == 45

/-- A lowercase letter or digit, then lowercase letters, digits, underscores and hyphens. -/
def isLogicalId (value : String) : Bool :=
  byteLen value ≤ maxLogicalIdBytes && match utf8 value with
    | [] => false
    | first :: rest => isLogicalIdStart first && rest.all isLogicalIdByte

/-- The macro behind the four identifiers of a context. -/
structure LogicalId where
  asStr : String
  valid : isLogicalId asStr
  deriving DecidableEq

/-- A checked logical identifier. -/
def LogicalId.new (value : String) : Except PolicyError LogicalId :=
  if h : isLogicalId value then .ok ⟨value, h⟩ else .error .invalidId

/-- Whose data a request is about. -/
abbrev TenantId := LogicalId

/-- On whose behalf a request is made. -/
abbrev PrincipalId := LogicalId

/-- The request itself. -/
abbrev RequestId := LogicalId

/-- The chain of requests that a request belongs to. -/
abbrev CorrelationId := LogicalId

/-- A byte inside a tool identifier. -/
def isToolIdByte (b : UInt8) : Bool :=
  isAsciiLowercase b || isAsciiDigit b || b == 45 || b == 95 || b == 46

/-- A tool identifier starts and ends with a letter or digit. -/
def isToolId (value : String) : Bool :=
  let bytes := utf8 value
  !bytes.isEmpty && bytes.length ≤ maxToolIdBytes && isAsciiAlphanumeric (bytes.headD 0) &&
    isAsciiAlphanumeric (bytes.getLastD 0) && bytes.all isToolIdByte

/-! ## Requests -/

/-- The identity of a request, resolved by the host and not taken from the caller. -/
structure TrustedContextV1 where
  tenantId : TenantId
  principalId : PrincipalId
  requestId : RequestId
  correlationId : CorrelationId
  deriving DecidableEq

/-- The operations that a policy decides on. -/
inductive CapabilityV1 where
  | agentDefinitionValidate
  | agentDefinitionGet
  | agentDefinitionList
  | agentDefinitionRegister
  | agentInvoke
  | workflowValidate
  | workflowStart
  | workflowGet
  | workflowList
  | workflowCancel
  | evaluationValidate
  | evaluationEvaluate
  | evaluationGet
  | observabilityTelemetryQuery
  | observabilityTelemetryStatus
  | memoryRemember
  | memoryRecall
  | memorySearch
  | memoryForget
  | memoryStatus
  | sandboxStart
  | sandboxExecute
  | sandboxStatus
  | sandboxStop
  deriving DecidableEq

/-- The name of a capability in canonical texts. -/
def CapabilityV1.asStr : CapabilityV1 → String
  | .agentDefinitionValidate => "agent_definition_validate"
  | .agentDefinitionGet => "agent_definition_get"
  | .agentDefinitionList => "agent_definition_list"
  | .agentDefinitionRegister => "agent_definition_register"
  | .agentInvoke => "agent_invoke"
  | .workflowValidate => "workflow_validate"
  | .workflowStart => "workflow_start"
  | .workflowGet => "workflow_get"
  | .workflowList => "workflow_list"
  | .workflowCancel => "workflow_cancel"
  | .evaluationValidate => "evaluation_validate"
  | .evaluationEvaluate => "evaluation_evaluate"
  | .evaluationGet => "evaluation_get"
  | .observabilityTelemetryQuery => "observability_telemetry_query"
  | .observabilityTelemetryStatus => "observability_telemetry_status"
  | .memoryRemember => "memory_remember"
  | .memoryRecall => "memory_recall"
  | .memorySearch => "memory_search"
  | .memoryForget => "memory_forget"
  | .memoryStatus => "memory_status"
  | .sandboxStart => "sandbox_start"
  | .sandboxExecute => "sandbox_execute"
  | .sandboxStatus => "sandbox_status"
  | .sandboxStop => "sandbox_stop"

/-- Who asks for what. -/
structure AuthorizationRequestV1 where
  context : TrustedContextV1
  capability : CapabilityV1
  deriving DecidableEq

/-! ## Grants -/

/-- What a decision allows: the tools by name and the other resources by a flag each. -/
structure GrantV1 where
  allowedToolIds : List String
  memoryEnabled : Bool
  knowledgeEnabled : Bool
  sandboxExecutionAllowed : Bool
  communicationAllowed : Bool
  deriving DecidableEq

/-- A grant with a bounded number of proper tool identifiers. -/
def validateGrant (grant : GrantV1) : Except PolicyError Unit :=
  if maxToolIds < grant.allowedToolIds.length then .error .limitExceeded
  else if grant.allowedToolIds.any fun id => !isToolId id then .error .invalidGrant
  else .ok ()

/-- The distinct tools in order, within the limit. -/
def canonicalTools (tools : List String) : Except PolicyError (List String) :=
  if maxToolIds < (BTreeMap.distinct tools).length then .error .limitExceeded
  else if (BTreeMap.distinct tools).any fun id => !isToolId id then .error .invalidGrant
  else .ok (BTreeMap.distinct tools)

/-- A checked grant; its tools are sorted and without repetitions. -/
def GrantV1.new (allowedToolIds : List String) (memoryEnabled knowledgeEnabled
    sandboxExecutionAllowed communicationAllowed : Bool) : Except PolicyError GrantV1 := do
  let allowedToolIds ← canonicalTools allowedToolIds
  let grant : GrantV1 := ⟨allowedToolIds, memoryEnabled, knowledgeEnabled, sandboxExecutionAllowed,
    communicationAllowed⟩
  validateGrant grant
  .ok grant

/-- The grant with its tools sorted and without repetitions, checked anew. -/
def canonicalGrant (grant : GrantV1) : Except PolicyError GrantV1 :=
  GrantV1.new grant.allowedToolIds grant.memoryEnabled grant.knowledgeEnabled
    grant.sandboxExecutionAllowed grant.communicationAllowed

/-- A flag in canonical texts. -/
def boolean (value : Bool) : String := if value then "true" else "false"

/-- The part of the bytes that a grant alone and an allowing decision share. -/
def grantBytes (grant : GrantV1) : Bytes :=
  fields [decimal grant.allowedToolIds.length] ++
  grant.allowedToolIds.flatMap (fun toolId => fields [toolId]) ++
  fields [boolean grant.memoryEnabled, boolean grant.knowledgeEnabled,
    boolean grant.sandboxExecutionAllowed, boolean grant.communicationAllowed]

/-- The canonical text of a grant on its own. -/
def grantCanonicalBytes (grant : GrantV1) : Except PolicyError Bytes := do
  let grant ← canonicalGrant grant
  .ok (fields ["policy-grant-v1"] ++ grantBytes grant)

/-! ## Decisions -/

/-- Why a request is denied, as far as a caller may know. -/
inductive SafeDenyReasonV1 where
  | denied
  deriving DecidableEq

/-- The name of a reason in canonical texts. -/
def SafeDenyReasonV1.asStr : SafeDenyReasonV1 → String
  | .denied => "denied"

/-- The answer to a request: a grant with the digest that binds it to the request, or a denial. -/
inductive AuthorizationDecisionV1 where
  | allow (effectiveGrant : GrantV1) (decisionDigest : String)
  | deny (safeReason : SafeDenyReasonV1)
  deriving DecidableEq

/-- The fields of a request, which begin every canonical text of a decision. -/
def requestFields (request : AuthorizationRequestV1) : List String :=
  ["policy-decision-v1", request.context.tenantId.asStr, request.context.principalId.asStr,
    request.context.requestId.asStr, request.context.correlationId.asStr, request.capability.asStr]

/-- The text of a decision that is hashed; the digest in the decision is no part of it. -/
def decisionCanonicalBytes (request : AuthorizationRequestV1) (decision : AuthorizationDecisionV1) :
    Except PolicyError Bytes :=
  match decision with
  | .allow effectiveGrant _ => do
    let grant ← canonicalGrant effectiveGrant
    .ok (fields (requestFields request) ++ fields ["allow", "grant-present"] ++ grantBytes grant)
  | .deny safeReason =>
    .ok (fields (requestFields request) ++ fields ["deny", safeReason.asStr, "grant-absent"])

/-- The digest that binds a decision to its request. -/
def decisionDigest (sha256 : Sha256) (request : AuthorizationRequestV1)
    (decision : AuthorizationDecisionV1) : Except PolicyError String := do
  let bytes ← decisionCanonicalBytes request decision
  .ok (sha256.hexDigest bytes)

/-- The decision that allows a request, with its own digest. -/
def allowDecision (sha256 : Sha256) (request : AuthorizationRequestV1) (effectiveGrant : GrantV1) :
    Except PolicyError AuthorizationDecisionV1 := do
  let effectiveGrant ← canonicalGrant effectiveGrant
  let digest ← decisionDigest sha256 request (.allow effectiveGrant "")
  .ok (.allow effectiveGrant digest)

/-- The decision that denies a request. -/
def denyDecision : AuthorizationDecisionV1 := .deny .denied

end RustFactory.Policy
