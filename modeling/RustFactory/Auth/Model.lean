import RustFactory.Lib.BTreeMap
import RustFactory.Lib.Except
import RustFactory.Lib.Framing

/-!
# Auth: grants and decisions

Authorization requests, the contexts and grants a verified token yields, and the decisions over
them.  An allowing decision carries the digest of its canonical bytes, which bind it to the request;
`allowDecision` issues it and `verifyDecision` checks it.
-/

namespace RustFactory.Auth

open Lib

/-- What an operation of the auth crate can fail with. -/
inductive AuthError where
  | invalidId
  | invalidGrant
  | invalidToken
  | limitExceeded
  deriving DecidableEq, Repr

/-- The longest logical identifier, in bytes. -/
def maxLogicalIdBytes : ℕ := 128

/-- The most tools a grant may list, repetitions counted. -/
def maxToolIds : ℕ := 64

/-- The longest tool identifier, in bytes. -/
def maxToolIdBytes : ℕ := 128

/-! ## Identifiers -/

/-- The first byte of a logical identifier. -/
def isLogicalIdStart (b : UInt8) : Bool := isAsciiLowercase b || isAsciiDigit b

/-- A later byte of a logical identifier. -/
def isLogicalIdByte (b : UInt8) : Bool := isLogicalIdStart b || b == 95 || b == 45

/-- A lowercase letter or digit, then lowercase letters, digits, underscores and hyphens. -/
def isLogicalId (value : String) : Bool :=
  byteLen value ≤ maxLogicalIdBytes && match utf8 value with
    | [] => false
    | first :: rest => isLogicalIdStart first && rest.all isLogicalIdByte

/-- The identifiers of a context. -/
inductive IdKind where
  | tenant
  | principal
  | request
  | correlation

/-- The macro behind the four identifiers. -/
structure LogicalId (kind : IdKind) where
  asStr : String
  valid : isLogicalId asStr
  deriving DecidableEq

/-- A checked identifier of the kind. -/
def LogicalId.new (kind : IdKind) (value : String) : Except AuthError (LogicalId kind) :=
  if h : isLogicalId value then .ok ⟨value, h⟩ else .error .invalidId

/-- Whose data a request is about. -/
abbrev TenantId := LogicalId .tenant

/-- On whose behalf a request is made. -/
abbrev PrincipalId := LogicalId .principal

/-- The request itself. -/
abbrev RequestId := LogicalId .request

/-- The chain of requests that a request belongs to. -/
abbrev CorrelationId := LogicalId .correlation

/-- A byte inside a tool identifier. -/
def isToolIdByte (b : UInt8) : Bool :=
  isAsciiLowercase b || isAsciiDigit b || b == 45 || b == 95 || b == 46

/-- A tool identifier starts and ends with a letter or digit. -/
def isToolId (value : String) : Bool :=
  let bytes := utf8 value
  !bytes.isEmpty && bytes.length ≤ maxToolIdBytes && isAsciiAlphanumeric (bytes.headD 0) &&
    isAsciiAlphanumeric (bytes.getLastD 0) && bytes.all isToolIdByte

/-- 64 lowercase hexadecimal digits. -/
def isLowercaseSha256 (value : String) : Bool :=
  byteLen value == 64 && (utf8 value).all fun b => isAsciiDigit b || (97 ≤ b && b ≤ 102)

/-! ## Requests -/

/-- The tenant and the principal come from the token, the other two from the request. -/
structure AuthContextV1 where
  tenantId : TenantId
  principalId : PrincipalId
  requestId : RequestId
  correlationId : CorrelationId
  deriving DecidableEq

/-- The operations that an authorizer decides on. -/
inductive CapabilityV1 where
  | agentDefinitionValidate
  | agentDefinitionGet
  | agentDefinitionList
  | agentDefinitionRegister
  | agentInvoke
  | workflowValidate
  | workflowStart
  | workflowGet
  | workflowList
  | workflowCancel
  | evaluationValidate
  | evaluationEvaluate
  | evaluationGet
  | observabilityTelemetryQuery
  | observabilityTelemetryStatus
  | memoryRemember
  | memoryRecall
  | memorySearch
  | memoryForget
  | memoryStatus
  deriving DecidableEq

/-- The name of a capability in canonical texts and in tokens. -/
def CapabilityV1.asStr : CapabilityV1 → String
  | .agentDefinitionValidate => "agent_definition_validate"
  | .agentDefinitionGet => "agent_definition_get"
  | .agentDefinitionList => "agent_definition_list"
  | .agentDefinitionRegister => "agent_definition_register"
  | .agentInvoke => "agent_invoke"
  | .workflowValidate => "workflow_validate"
  | .workflowStart => "workflow_start"
  | .workflowGet => "workflow_get"
  | .workflowList => "workflow_list"
  | .workflowCancel => "workflow_cancel"
  | .evaluationValidate => "evaluation_validate"
  | .evaluationEvaluate => "evaluation_evaluate"
  | .evaluationGet => "evaluation_get"
  | .observabilityTelemetryQuery => "observability_telemetry_query"
  | .observabilityTelemetryStatus => "observability_telemetry_status"
  | .memoryRemember => "memory_remember"
  | .memoryRecall => "memory_recall"
  | .memorySearch => "memory_search"
  | .memoryForget => "memory_forget"
  | .memoryStatus => "memory_status"

/-- What is asked for, in which request; who asks is read from the token. -/
structure AuthorizationRequestV1 where
  requestId : RequestId
  correlationId : CorrelationId
  capability : CapabilityV1
  deriving DecidableEq

/-- The context belongs to the request. -/
def validateRequestScope (request : AuthorizationRequestV1) (context : AuthContextV1) :
    Except AuthError Unit :=
  if context.requestId ≠ request.requestId ∨ context.correlationId ≠ request.correlationId then
    .error .invalidId
  else .ok ()

/-! ## Grants -/

/-- What a decision allows: the tools by name and the other resources by a flag each. -/
structure GrantV1 where
  allowedToolIds : List String
  memoryEnabled : Bool
  knowledgeEnabled : Bool
  sandboxExecutionAllowed : Bool
  communicationAllowed : Bool
  deriving DecidableEq

/-- A grant with a bounded number of proper tool identifiers. -/
def validateGrant (grant : GrantV1) : Except AuthError Unit :=
  if maxToolIds < grant.allowedToolIds.length then .error .limitExceeded
  else if grant.allowedToolIds.any fun id => !isToolId id then .error .invalidGrant
  else .ok ()

/-- The distinct tools in order, within the limit. -/
def canonicalTools (tools : List String) : Except AuthError (List String) :=
  if maxToolIds < (BTreeMap.distinct tools).length then .error .limitExceeded
  else if (BTreeMap.distinct tools).any fun id => !isToolId id then .error .invalidGrant
  else .ok (BTreeMap.distinct tools)

/-- A checked grant; its tools are sorted and without repetitions. -/
def GrantV1.new (allowedToolIds : List String) (memoryEnabled knowledgeEnabled
    sandboxExecutionAllowed communicationAllowed : Bool) : Except AuthError GrantV1 := do
  let allowedToolIds ← canonicalTools allowedToolIds
  let grant : GrantV1 := ⟨allowedToolIds, memoryEnabled, knowledgeEnabled, sandboxExecutionAllowed,
    communicationAllowed⟩
  validateGrant grant
  .ok grant

/-- The grant with its tools sorted and without repetitions, checked anew. -/
def canonicalGrant (grant : GrantV1) : Except AuthError GrantV1 :=
  GrantV1.new grant.allowedToolIds grant.memoryEnabled grant.knowledgeEnabled
    grant.sandboxExecutionAllowed grant.communicationAllowed

/-- A flag in canonical texts. -/
def boolean (value : Bool) : String := if value then "true" else "false"

/-- The part of the bytes that a grant alone and an allowing decision share. -/
def grantBytes (grant : GrantV1) : Bytes :=
  fields [decimal grant.allowedToolIds.length] ++
  grant.allowedToolIds.flatMap (fun toolId => fields [toolId]) ++
  fields [boolean grant.memoryEnabled, boolean grant.knowledgeEnabled,
    boolean grant.sandboxExecutionAllowed, boolean grant.communicationAllowed]

/-! ## Decisions -/

/-- Why a request is denied, as far as a caller may know. -/
inductive SafeDenyReasonV1 where
  | denied
  deriving DecidableEq

/-- The name of a reason in canonical texts. -/
def SafeDenyReasonV1.asStr : SafeDenyReasonV1 → String
  | .denied => "denied"

/-- The answer to a request: who asks and what is granted, with a digest that binds both to the
request, or a denial. -/
inductive AuthorizationDecisionV1 where
  | allow (context : AuthContextV1) (effectiveGrant : GrantV1) (decisionDigest : String)
  | deny (safeReason : SafeDenyReasonV1)
  deriving DecidableEq

/-- The text of a decision that is hashed; the digest in the decision is no part of it. -/
def decisionCanonicalBytes (request : AuthorizationRequestV1) :
    AuthorizationDecisionV1 → Except AuthError Bytes
  | .allow context effectiveGrant _ => do
    validateRequestScope request context
    let grant ← canonicalGrant effectiveGrant
    .ok (fields ["auth-decision-v1", context.tenantId.asStr, context.principalId.asStr,
      request.requestId.asStr, request.correlationId.asStr, request.capability.asStr, "allow",
      "grant-present"] ++ grantBytes grant)
  | .deny safeReason =>
    .ok (fields ["auth-decision-v1", request.requestId.asStr, request.correlationId.asStr,
      request.capability.asStr, "deny", safeReason.asStr, "grant-absent"])

/-- The digest that binds a decision to its request. -/
def decisionDigest (sha256 : Sha256) (request : AuthorizationRequestV1)
    (decision : AuthorizationDecisionV1) : Except AuthError String := do
  let bytes ← decisionCanonicalBytes request decision
  .ok (sha256.hexDigest bytes)

/-- The decision allows the request, and its digest is the one of its own contents. -/
def verifyDecision (sha256 : Sha256) (request : AuthorizationRequestV1) :
    AuthorizationDecisionV1 → Bool
  | .allow context effectiveGrant suppliedDigest =>
    if !(validateRequestScope request context).isOk || !isLowercaseSha256 suppliedDigest then false
    else
      match canonicalGrant effectiveGrant with
      | .error _ => false
      | .ok canonical =>
        if canonical ≠ effectiveGrant then false
        else
          match decisionDigest sha256 request (.allow context canonical "") with
          | .ok expectedDigest => suppliedDigest == expectedDigest
          | .error _ => false
  | .deny .denied => true

/-- The decision that allows a request of the context, with its own digest. -/
def allowDecision (sha256 : Sha256) (request : AuthorizationRequestV1) (context : AuthContextV1)
    (effectiveGrant : GrantV1) : Except AuthError AuthorizationDecisionV1 := do
  validateRequestScope request context
  let effectiveGrant ← canonicalGrant effectiveGrant
  let digest ← decisionDigest sha256 request (.allow context effectiveGrant "")
  .ok (.allow context effectiveGrant digest)

end RustFactory.Auth
