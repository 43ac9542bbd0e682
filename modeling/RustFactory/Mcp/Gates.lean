import RustFactory.Agent.Ceiling
import RustFactory.Evaluation.Model
import RustFactory.Memory.Service
import RustFactory.Policy.Static
import RustFactory.Sandbox.Docker
import RustFactory.Workflow.Store

/-!
# MCP adapters: the policy gates

Five adapters ask the policy before they call their core.  Each has its own copy of the check, its own
errors, and its own type for the identity it hands on.  They accept the same decisions, and hand on
the trusted identity as it is.
-/

namespace RustFactory

open Lib Policy

/-- The host's policy, as an adapter sees it. -/
abbrev PolicyResolver := AuthorizationRequestV1 → AuthorizationDecisionV1

namespace Agent

/-- Why a gate does not let a request through. -/
inductive PolicyGateError where
  | denied
  | failed
  deriving DecidableEq

/-- What the agent surface is handed. -/
structure AuthorizedAgentContext where
  trusted : TrustedContextV1
  grant : GrantV1

def resolveAndAuthorize (sha256 : Sha256) (source : Except DefinitionError TrustedContextV1)
    (policy : PolicyResolver) (capability : CapabilityV1) :
    Except PolicyGateError AuthorizedAgentContext := do
  let trusted ← source.mapError fun _ => .failed
  let request : AuthorizationRequestV1 := ⟨trusted, capability⟩
  let (grant, _) ← checkDecision .failed .denied sha256 request (policy request)
  .ok ⟨request.context, grant⟩

/-- The trusted identity as the runtime takes it. -/
def invocationContext (trusted : TrustedContextV1) : Except DefinitionError InvocationContext := do
  .ok ⟨← InvocationId.new trusted.tenantId.asStr, ← InvocationId.new trusted.principalId.asStr,
    ← InvocationId.new trusted.requestId.asStr, ← InvocationId.new trusted.correlationId.asStr⟩

end Agent

namespace Workflow

/-- What the workflow surface is handed. -/
structure AuthorizedWorkflowContext where
  context : RequestContext
  effectiveCapabilityCeiling : Agent.EffectiveCapabilityCeiling
  policyDecisionDigest : String

/-- The trusted identity as the workflow crate takes it. -/
def requestContext (context : TrustedContextV1) : Except WorkflowError RequestContext := do
  .ok ⟨← LogicalId.new context.tenantId.asStr, ← LogicalId.new context.principalId.asStr,
    ← LogicalId.new context.requestId.asStr, ← LogicalId.new context.correlationId.asStr⟩

/-- The gate of the workflow surface. -/
def resolveAndAuthorize (sha256 : Sha256) (source : Except WorkflowError TrustedContextV1)
    (policy : PolicyResolver) (capability : CapabilityV1) :
    Except WorkflowError AuthorizedWorkflowContext := do
  let trusted ← source.mapError fun _ => .adapterFailure
  let request : AuthorizationRequestV1 := ⟨trusted, capability⟩
  let (grant, supplied) ← checkDecision .adapterFailure .notFound sha256 request (policy request)
  .ok ⟨← requestContext trusted, ⟨grant.allowedToolIds, grant.memoryEnabled, grant.knowledgeEnabled,
    grant.sandboxExecutionAllowed, grant.communicationAllowed⟩, supplied⟩

end Workflow

namespace Evaluation

/-- The tenant that the evaluation core is called for. -/
def resolveAndAuthorize (sha256 : Sha256) (source : Except EvaluationError TrustedContextV1)
    (policy : PolicyResolver) (capability : CapabilityV1) : Except EvaluationError String := do
  let trusted ← source.mapError fun _ => .adapterFailure
  let request : AuthorizationRequestV1 := ⟨trusted, capability⟩
  let _ ← checkDecision .adapterFailure .notFound sha256 request (policy request)
  .ok trusted.tenantId.asStr

end Evaluation

namespace Memory

/-- The flag of the grant counts only on a verified decision. -/
def authorize (sha256 : Sha256) (source : Except MemoryError TrustedContextV1)
    (policy : PolicyResolver) (capability : CapabilityV1) : Except MemoryError MemoryContext := do
  let trusted ← source.mapError fun _ => .unauthorized
  let request : AuthorizationRequestV1 := ⟨trusted, capability⟩
  let (grant, _) ← checkDecision .unauthorized .unauthorized sha256 request (policy request)
  if !grant.memoryEnabled then .error .unauthorized
  else
    let tenantId ← (LogicalId.new .tenant trusted.tenantId.asStr).mapError fun _ => .unauthorized
    .ok ⟨tenantId⟩

end Memory

namespace Sandbox

/-- A checked identifier of the sandbox crate. -/
def LogicalId.new (value : String) : Except SandboxError LogicalId :=
  if h : logicalId value then .ok ⟨value, h⟩ else .error .invalidRequest

def authorize (sha256 : Sha256) (source : Except SandboxError TrustedContextV1)
    (policy : PolicyResolver) (capability : CapabilityV1) :
    Except SandboxError SandboxContext := do
  let trusted ← source.mapError fun _ => .denied
  let request : AuthorizationRequestV1 := ⟨trusted, capability⟩
  let _ ← checkDecision .denied .denied sha256 request (policy request)
  .ok ⟨← (LogicalId.new trusted.tenantId.asStr).mapError fun _ => .denied,
    ← (LogicalId.new trusted.principalId.asStr).mapError fun _ => .denied,
    ← (LogicalId.new trusted.requestId.asStr).mapError fun _ => .denied,
    ← (LogicalId.new trusted.correlationId.asStr).mapError fun _ => .denied⟩

end Sandbox

namespace Mcp

/-! ## Grammars -/

theorem isId_of_isLogicalId {value : String} (h : Policy.isLogicalId value) : Agent.isId value := h

theorem evaluationId_of_isLogicalId {value : String} (h : Policy.isLogicalId value) :
    Evaluation.isLogicalId value := h

theorem sandboxId_of_isLogicalId {value : String} (h : Policy.isLogicalId value) :
    Sandbox.logicalId value := by
  unfold Policy.isLogicalId at h
  unfold Sandbox.logicalId
  rw [Bool.and_eq_true] at h ⊢
  refine ⟨h.1, ?_⟩
  cases hbytes : utf8 value with
  | nil => exact absurd h.2 (by rw [hbytes]; exact Bool.false_ne_true)
  | cons first rest =>
    have hall := h.2
    rw [hbytes] at hall
    dsimp only at hall ⊢
    rw [Bool.and_eq_true, List.all_eq_true] at hall ⊢
    refine ⟨hall.1, fun byte hbyte => ?_⟩
    have hrest := hall.2 byte hbyte
    unfold isLogicalIdByte at hrest
    rwa [Bool.or_right_comm] at hrest

theorem memoryId_of_isLogicalId {value : String} (h : Policy.isLogicalId value) :
    Memory.isLogicalId value := by
  unfold Policy.isLogicalId at h
  unfold Memory.isLogicalId
  rw [Bool.and_eq_true] at h
  cases hbytes : utf8 value with
  | nil => exact absurd h.2 (by rw [hbytes]; exact Bool.false_ne_true)
  | cons first rest =>
    have hall := h.2
    rw [hbytes] at hall
    dsimp only at hall ⊢
    rw [Bool.and_eq_true, List.all_eq_true] at hall
    have hfirst := hall.1
    unfold isLogicalIdStart at hfirst
    have hlower : isAsciiUppercase first = false := by
      unfold isAsciiLowercase isAsciiDigit at hfirst
      unfold isAsciiUppercase
      simp only [Bool.or_eq_true, Bool.and_eq_true, decide_eq_true_eq, UInt8.le_iff_toNat_le] at hfirst
      simp only [Bool.and_eq_false_iff, decide_eq_false_iff_not, UInt8.le_iff_toNat_le]
      simp only [UInt8.reduceToNat] at hfirst ⊢
      omega
    have hname : ∀ byte, isLogicalIdByte byte → Memory.isIdByte byte := by
      intro byte hbyte
      unfold Memory.isIdByte
      unfold isLogicalIdByte at hbyte
      rw [hbyte]
      rfl
    have hstart : isLogicalIdByte first := by
      unfold isLogicalIdByte
      rw [hfirst]
      rfl
    simp only [Bool.and_eq_true, List.all_cons, List.all_eq_true, hlower, Bool.not_false]
    refine ⟨⟨⟨h.1, ?_⟩, trivial⟩, hname first hstart, fun byte hbyte => hname byte (hall.2 byte hbyte)⟩
    unfold isAsciiAlphanumeric
    rw [hlower, Bool.or_false]
    exact hfirst

/-! ## What the gates accept -/

/-- The surfaces with a gate. -/
inductive Adapter where
  | agent
  | workflow
  | evaluation
  | memory
  | sandbox
  deriving DecidableEq

/-- The identity that an adapter hands to its core, if its gate accepts and its core takes it. -/
def Adapter.handed (sha256 : Sha256) (policy : PolicyResolver) (context : TrustedContextV1)
    (capability : CapabilityV1) : Adapter → Option (List String)
  | .agent => do
    let authorized ← (Agent.resolveAndAuthorize sha256 (.ok context) policy capability).toOption
    let c ← (Agent.invocationContext authorized.trusted).toOption
    return [c.tenantId.asStr, c.principalId.asStr, c.requestId.asStr, c.correlationId.asStr]
  | .workflow => do
    let authorized ← (Workflow.resolveAndAuthorize sha256 (.ok context) policy capability).toOption
    let c := authorized.context
    return [c.tenantId.asStr, c.principalId.asStr, c.requestId.asStr, c.correlationId.asStr]
  | .evaluation => do
    let tenantId ← (Evaluation.resolveAndAuthorize sha256 (.ok context) policy capability).toOption
    if Evaluation.isLogicalId tenantId then return [tenantId] else none
  | .memory => do
    let c ← (Memory.authorize sha256 (.ok context) policy capability).toOption
    return [c.tenantId.asStr]
  | .sandbox => do
    let c ← (Sandbox.authorize sha256 (.ok context) policy capability).toOption
    return [c.tenantId.asStr, c.principalId.asStr, c.requestId.asStr, c.correlationId.asStr]

/-- The trusted identity, as far as the adapter hands it on. -/
def Adapter.identity (context : TrustedContextV1) : Adapter → List String
  | .agent | .workflow | .sandbox => [context.tenantId.asStr, context.principalId.asStr,
      context.requestId.asStr, context.correlationId.asStr]
  | .evaluation | .memory => [context.tenantId.asStr]

/-- What an adapter asks of the grant besides. -/
def Adapter.enabled : Adapter → AuthorizationDecisionV1 → Prop
  | .memory, .allow effectiveGrant _ => effectiveGrant.memoryEnabled
  | _, _ => True

section Handed

variable {sha256 : Sha256} {policy : PolicyResolver} {context : TrustedContextV1}
  {capability : CapabilityV1}

theorem invocationContext_eq_ok (trusted : TrustedContextV1) :
    ∃ c, Agent.invocationContext trusted = .ok c ∧
      [c.tenantId.asStr, c.principalId.asStr, c.requestId.asStr, c.correlationId.asStr] =
        Adapter.agent.identity trusted := by
  have hnew : ∀ id : Policy.LogicalId, Agent.InvocationId.new id.asStr =
      .ok ⟨id.asStr, isId_of_isLogicalId id.valid⟩ := fun id => dif_pos _
  refine ⟨⟨⟨_, isId_of_isLogicalId trusted.tenantId.valid⟩,
    ⟨_, isId_of_isLogicalId trusted.principalId.valid⟩,
    ⟨_, isId_of_isLogicalId trusted.requestId.valid⟩,
    ⟨_, isId_of_isLogicalId trusted.correlationId.valid⟩⟩, ?_, rfl⟩
  unfold Agent.invocationContext
  rw [hnew, hnew, hnew, hnew]
  rfl

theorem requestContext_eq_ok (trusted : TrustedContextV1) :
    ∃ c, Workflow.requestContext trusted = .ok c ∧
      [c.tenantId.asStr, c.principalId.asStr, c.requestId.asStr, c.correlationId.asStr] =
        Adapter.workflow.identity trusted := by
  have hnew : ∀ id : Policy.LogicalId, Workflow.LogicalId.new id.asStr =
      .ok ⟨id.asStr, isId_of_isLogicalId id.valid⟩ := fun id => dif_pos _
  refine ⟨⟨⟨_, isId_of_isLogicalId trusted.tenantId.valid⟩,
    ⟨_, isId_of_isLogicalId trusted.principalId.valid⟩,
    ⟨_, isId_of_isLogicalId trusted.requestId.valid⟩,
    ⟨_, isId_of_isLogicalId trusted.correlationId.valid⟩⟩, ?_, rfl⟩
  unfold Workflow.requestContext
  rw [hnew, hnew, hnew, hnew]
  rfl

theorem sandboxId_new (id : Policy.LogicalId) :
    (Sandbox.LogicalId.new id.asStr).mapError (fun _ => Sandbox.SandboxError.denied) =
      .ok ⟨id.asStr, sandboxId_of_isLogicalId id.valid⟩ := by
  unfold Sandbox.LogicalId.new
  rw [dif_pos (sandboxId_of_isLogicalId id.valid)]
  rfl

theorem memoryId_new (id : Policy.LogicalId) :
    (Memory.LogicalId.new .tenant id.asStr).mapError (fun _ => Memory.MemoryError.unauthorized) =
      .ok ⟨id.asStr, memoryId_of_isLogicalId id.valid⟩ := by
  unfold Memory.LogicalId.new
  rw [dif_pos (memoryId_of_isLogicalId id.valid)]
  rfl

/-- Where the decision verifies, the identity decides. -/
theorem handed_iff {request : AuthorizationRequestV1} {decision : AuthorizationDecisionV1}
    (h : Verifies sha256 request decision) {handed identity ids : List String}
    (hidentity : handed = identity) :
    some handed = some ids ↔ Verifies sha256 request decision ∧ ids = identity := by
  rw [hidentity, Option.some.injEq, and_iff_right h]
  exact eq_comm

theorem Adapter.handed_agent {ids : List String} :
    Adapter.agent.handed sha256 policy context capability = some ids ↔
      Verifies sha256 ⟨context, capability⟩ (policy ⟨context, capability⟩) ∧
        ids = Adapter.agent.identity context := by
  unfold Adapter.handed Agent.resolveAndAuthorize
  dsimp only [Except.mapError]
  rw [ok_bind]
  cases hcheck : checkDecision Agent.PolicyGateError.failed .denied sha256 ⟨context, capability⟩
    (policy ⟨context, capability⟩) with
  | error e => exact iff_of_false nofun fun h => not_verifies_of_error hcheck h.1
  | ok checked =>
    obtain ⟨c, hc, hidentity⟩ := invocationContext_eq_ok context
    change ((Agent.invocationContext context).toOption >>= fun c => _) = some ids ↔ _
    rw [hc]
    exact handed_iff (verifies_of_ok hcheck) hidentity

theorem Adapter.handed_workflow {ids : List String} :
    Adapter.workflow.handed sha256 policy context capability = some ids ↔
      Verifies sha256 ⟨context, capability⟩ (policy ⟨context, capability⟩) ∧
        ids = Adapter.workflow.identity context := by
  unfold Adapter.handed Workflow.resolveAndAuthorize
  dsimp only [Except.mapError]
  rw [ok_bind]
  cases hcheck : checkDecision Workflow.WorkflowError.adapterFailure .notFound sha256
    ⟨context, capability⟩ (policy ⟨context, capability⟩) with
  | error e => exact iff_of_false nofun fun h => not_verifies_of_error hcheck h.1
  | ok checked =>
    obtain ⟨c, hc, hidentity⟩ := requestContext_eq_ok context
    rw [ok_bind, hc]
    exact handed_iff (verifies_of_ok hcheck) hidentity

theorem Adapter.handed_evaluation {ids : List String} :
    Adapter.evaluation.handed sha256 policy context capability = some ids ↔
      Verifies sha256 ⟨context, capability⟩ (policy ⟨context, capability⟩) ∧
        ids = Adapter.evaluation.identity context := by
  unfold Adapter.handed Evaluation.resolveAndAuthorize
  dsimp only [Except.mapError]
  rw [ok_bind]
  cases hcheck : checkDecision Evaluation.EvaluationError.adapterFailure .notFound sha256
    ⟨context, capability⟩ (policy ⟨context, capability⟩) with
  | error e => exact iff_of_false nofun fun h => not_verifies_of_error hcheck h.1
  | ok checked =>
    change (if Evaluation.isLogicalId context.tenantId.asStr then some [context.tenantId.asStr]
      else none) = some ids ↔ _
    rw [if_pos (evaluationId_of_isLogicalId context.tenantId.valid)]
    exact handed_iff (verifies_of_ok hcheck) rfl

theorem Adapter.handed_sandbox {ids : List String} :
    Adapter.sandbox.handed sha256 policy context capability = some ids ↔
      Verifies sha256 ⟨context, capability⟩ (policy ⟨context, capability⟩) ∧
        ids = Adapter.sandbox.identity context := by
  unfold Adapter.handed
  dsimp only
  unfold Sandbox.authorize
  rw [show Except.mapError (fun _ => Sandbox.SandboxError.denied)
    (Except.ok context : Except Sandbox.SandboxError TrustedContextV1) = .ok context from rfl, ok_bind]
  dsimp only
  cases hcheck : checkDecision Sandbox.SandboxError.denied .denied sha256 ⟨context, capability⟩
    (policy ⟨context, capability⟩) with
  | error e => exact iff_of_false nofun fun h => not_verifies_of_error hcheck h.1
  | ok checked =>
    rw [ok_bind, sandboxId_new, sandboxId_new, sandboxId_new, sandboxId_new]
    exact handed_iff (verifies_of_ok hcheck) rfl

theorem Adapter.handed_memory {ids : List String} :
    Adapter.memory.handed sha256 policy context capability = some ids ↔
      Verifies sha256 ⟨context, capability⟩ (policy ⟨context, capability⟩) ∧
        Adapter.memory.enabled (policy ⟨context, capability⟩) ∧
        ids = Adapter.memory.identity context := by
  unfold Adapter.handed
  dsimp only
  unfold Memory.authorize
  rw [show Except.mapError (fun _ => Memory.MemoryError.unauthorized)
    (Except.ok context : Except Memory.MemoryError TrustedContextV1) = .ok context from rfl, ok_bind]
  dsimp only
  cases hcheck : checkDecision Memory.MemoryError.unauthorized .unauthorized sha256
    ⟨context, capability⟩ (policy ⟨context, capability⟩) with
  | error e => exact iff_of_false nofun fun h => not_verifies_of_error hcheck h.1
  | ok checked =>
    obtain ⟨effectiveGrant, hdecision, hvalid, hgrant, hdigest⟩ := checkDecision_eq_ok.mp hcheck
    rw [ok_bind, memoryId_new]
    have henabled : Adapter.memory.enabled (policy ⟨context, capability⟩) ↔
        checked.1.memoryEnabled = true := by
      rw [hdecision, hgrant]
      exact Iff.rfl
    rw [henabled]
    cases hflag : checked.1.memoryEnabled with
    | false => exact iff_of_false nofun fun h => nomatch h.2.1
    | true =>
      rw [and_iff_right rfl]
      exact handed_iff (verifies_of_ok hcheck) rfl

/-- Every gate accepts exactly the verified decisions, and hands on the trusted identity. -/
theorem Adapter.handed_eq_some {adapter : Adapter} {ids : List String} :
    adapter.handed sha256 policy context capability = some ids ↔
      Verifies sha256 ⟨context, capability⟩ (policy ⟨context, capability⟩) ∧
        adapter.enabled (policy ⟨context, capability⟩) ∧ ids = adapter.identity context := by
  cases adapter with
  | agent => rw [Adapter.handed_agent]; simp only [Adapter.enabled, true_and]
  | workflow => rw [Adapter.handed_workflow]; simp only [Adapter.enabled, true_and]
  | evaluation => rw [Adapter.handed_evaluation]; simp only [Adapter.enabled, true_and]
  | memory => exact Adapter.handed_memory
  | sandbox => rw [Adapter.handed_sandbox]; simp only [Adapter.enabled, true_and]

end Handed

/-- **The gates agree.**  Every gate accepts exactly the decisions that verify for the request at hand,
the memory gate those with its flag, and hands on the trusted identity.  The decisions of the policy
verify for their own request; whatever of the context, the capability, the flags or the set of tools
is changed afterwards, every gate refuses, unless the digest collides. -/
theorem gates_agree (sha256 : Sha256) :
    (∀ policy context capability adapter ids,
      Adapter.handed sha256 policy context capability adapter = some ids ↔
        Verifies sha256 ⟨context, capability⟩ (policy ⟨context, capability⟩) ∧
          adapter.enabled (policy ⟨context, capability⟩) ∧ ids = adapter.identity context) ∧
    (∀ request effectiveGrant decision,
      allowDecision sha256 request effectiveGrant = .ok decision →
        Verifies sha256 request decision) ∧
    ∀ context capability grant digest context' capability' grant',
      Verifies sha256 ⟨context, capability⟩ (.allow grant digest) →
      (∀ x y, decisionCanonicalBytes ⟨context, capability⟩ (.allow grant.canonical "") = .ok x →
        decisionCanonicalBytes ⟨context', capability'⟩ (.allow grant'.canonical "") = .ok y →
        sha256.digest x = sha256.digest y → x = y) →
      (context, capability, grant.content) ≠ (context', capability', grant'.content) →
      ∀ policy adapter, policy ⟨context', capability'⟩ = .allow grant' digest →
        Adapter.handed sha256 policy context' capability' adapter = none := by
  refine ⟨fun policy context capability adapter ids => Adapter.handed_eq_some,
    fun request effectiveGrant decision => verifies_of_allowDecision, ?_⟩
  intro context capability grant digest context' capability' grant' hverifies hcollision hne policy
    adapter hpolicy
  cases hhanded : Adapter.handed sha256 policy context' capability' adapter with
  | none => rfl
  | some ids =>
    have hverifies' := (Adapter.handed_eq_some.mp hhanded).1
    rw [hpolicy] at hverifies'
    obtain ⟨hrequest, hcontent⟩ := verifies_inj hcollision hverifies hverifies'
    cases hrequest
    rw [hcontent] at hne
    exact absurd rfl hne

/-! ## Static grants

The grants that a static resolver allows pass the checks of the agent and of the workflow crate. -/

section Static

open StaticPolicyResolver

/-- The ceiling that the adapters of the agent and the workflow crate make of a grant. -/
def ceilingOf (grant : GrantV1) : Agent.EffectiveCapabilityCeiling :=
  ⟨grant.allowedToolIds, grant.memoryEnabled, grant.knowledgeEnabled,
    grant.sandboxExecutionAllowed, grant.communicationAllowed⟩

theorem validReference_eq_isToolId : Agent.validReference = isToolId := rfl

theorem validateCeiling_canonical {grant : GrantV1} (h : grant.Valid) :
    Agent.validateEffectiveCapabilityCeiling (ceilingOf grant.canonical) = .ok () := by
  rw [Agent.validateCeiling_eq_ok, validReference_eq_isToolId]
  exact ⟨h.limit, fun id hid => h.canonical.tools id hid⟩

theorem validateInvocationPolicy_canonical (sha256 : Sha256) {grant : GrantV1} (h : grant.Valid)
    (bytes : Bytes) : Workflow.validateInvocationPolicy (ceilingOf grant.canonical)
      (sha256.hexDigest bytes) = .ok () := by
  unfold Workflow.validateInvocationPolicy
  rw [validateCeiling_canonical h]
  exact if_pos ⟨byteLen_hexDigest sha256 bytes, Workflow.all_isAsciiHexdigit sha256 bytes⟩

/-- What follows from an allowing answer. -/
structure Allowed (sha256 : Sha256) (records : List (GrantKeyV1 × GrantV1))
    (request : AuthorizationRequestV1) (grant : GrantV1) (digest : String) : Prop where
  recorded : ∃ record ∈ records, record.1 = requestKey request ∧
    canonicalGrant record.2 = .ok grant
  canonical : canonicalGrant grant = .ok grant
  bound : decisionDigest sha256 request (.allow grant digest) = .ok digest
  ceiling : Agent.validateEffectiveCapabilityCeiling (ceilingOf grant) = .ok ()
  invocation : Workflow.validateInvocationPolicy (ceilingOf grant) digest = .ok ()

/-- A resolver with accepted records, in whatever order they were given, allows exactly the requests
with a record, and what it allows passes the checks of the crates that use it. -/
theorem authorize_exact (sha256 : Sha256) (records : List (GrantKeyV1 × GrantV1))
    (resolver : StaticPolicyResolver) (h : StaticPolicyResolver.new records = .ok resolver) :
    (∀ records', records'.Perm records → StaticPolicyResolver.new records' = .ok resolver) ∧
    ∀ request,
      ((∃ grant digest, resolver.authorize sha256 request = .allow grant digest) ↔
        ∃ grant, (requestKey request, grant) ∈ records) ∧
      ∀ grant digest, resolver.authorize sha256 request = .allow grant digest →
        Allowed sha256 records request grant digest := by
  refine ⟨fun records' hperm => new_of_perm h hperm, fun request => ⟨⟨?_, ?_⟩, ?_⟩⟩
  · rintro ⟨grant, digest, hallow⟩
    by_contra hrecord
    rw [authorize_of_no_record sha256 h hrecord] at hallow
    cases hallow
  · rintro ⟨grant, hrecord⟩
    obtain ⟨bytes, hallow, -⟩ := authorize_of_record sha256 h hrecord
    exact ⟨_, _, hallow⟩
  · intro grant digest hallow
    by_cases hrecord : ∃ grant, (requestKey request, grant) ∈ records
    · obtain ⟨recorded, hrecord⟩ := hrecord
      have hvalid : recorded.Valid := (new_eq_ok.mp h).1.valid _ hrecord
      obtain ⟨bytes, heq, hdigest⟩ := authorize_of_record sha256 h hrecord
      rw [heq] at hallow
      cases hallow
      exact
        { recorded := ⟨_, hrecord, rfl, canonicalGrant_iff.mpr ⟨hvalid, rfl⟩⟩
          canonical := canonicalGrant_iff.mpr ⟨hvalid.canonical, recorded.canonical_canonical.symm⟩
          bound := hdigest _
          ceiling := validateCeiling_canonical hvalid
          invocation := validateInvocationPolicy_canonical sha256 hvalid bytes }
    · rw [authorize_of_no_record sha256 h hrecord] at hallow
      cases hallow

end Static

/-! ## A decision of the policy's tests -/

def sampleToolGrant : GrantV1 := sampleGrant ["tool-b", "tool-a"]

/-- The digest of the tests at its own bytes. -/
def sampleSha256 : Sha256 := .ofTable [(utf8 sampleAllowText,
  [0x71, 0xfd, 0x0d, 0xe1, 0x05, 0x92, 0x42, 0x6a, 0x1b, 0x31, 0xca, 0x9b, 0xb3, 0xde, 0x26, 0x61,
    0xfa, 0x45, 0x17, 0x26, 0x7b, 0xf8, 0x94, 0x0a, 0xea, 0x56, 0x48, 0xff, 0x3b, 0x88, 0xc3, 0xeb])]
  (by decide)

def sampleDigest : String := "71fd0de10592426a1b31ca9bb3de2661fa4517267bf8940aea5648ff3b88c3eb"

theorem allowDecision_sample :
    allowDecision sampleSha256 sampleRequest sampleToolGrant =
      .ok (.allow (sampleGrant ["tool-a", "tool-b"]) sampleDigest) := by
  decide +kernel

theorem digest_ne_sample : ∀ x y,
    decisionCanonicalBytes sampleRequest
      (.allow (sampleGrant ["tool-a", "tool-b"]).canonical "") = .ok x →
    decisionCanonicalBytes ⟨sampleRequest.context, .workflowStart⟩
      (.allow (sampleGrant ["tool-a", "tool-b"]).canonical "") = .ok y →
    sampleSha256.digest x ≠ sampleSha256.digest y := by
  intro x y hx hy hxy
  have hdiffer : (decisionCanonicalBytes sampleRequest
        (.allow (sampleGrant ["tool-a", "tool-b"]).canonical "")).map sampleSha256.digest ≠
      (decisionCanonicalBytes ⟨sampleRequest.context, .workflowStart⟩
        (.allow (sampleGrant ["tool-a", "tool-b"]).canonical "")).map sampleSha256.digest := by
    decide +kernel
  rw [hx, hy] at hdiffer
  exact hdiffer (congrArg Except.ok hxy)

/-- The decision of the tests opens the memory gate for its own request, and not for another
capability. -/
theorem gates_agree_sample :
    Adapter.handed sampleSha256 (fun _ => .allow (sampleGrant ["tool-a", "tool-b"]) sampleDigest)
        sampleRequest.context .agentInvoke .memory = some ["tenant"] ∧
      Adapter.handed sampleSha256 (fun _ => .allow (sampleGrant ["tool-a", "tool-b"]) sampleDigest)
        sampleRequest.context .workflowStart .memory = none := by
  obtain ⟨haccept, hissued, hrefuse⟩ := gates_agree sampleSha256
  have hverifies := hissued _ _ _ allowDecision_sample
  refine ⟨(haccept _ _ _ _ _).mpr ⟨hverifies, rfl, rfl⟩,
    hrefuse _ _ _ _ _ _ _ hverifies (fun x y hx hy hxy => ?_) ?_ _ _ rfl⟩
  · exact absurd hxy (digest_ne_sample x y hx hy)
  · intro heq
    cases heq

/-- A record for the request, with its tools out of order and one of them twice. -/
def sampleRecords : List (GrantKeyV1 × GrantV1) :=
  [(StaticPolicyResolver.requestKey sampleRequest, sampleGrant ["tool-b", "tool-a", "tool-b"])]

/-- The request of the record is allowed with the digest of the tests. -/
theorem authorize_exact_sample : ∃ resolver, StaticPolicyResolver.new sampleRecords = .ok resolver ∧
    resolver.authorize sampleSha256 sampleRequest =
      .allow (sampleGrant ["tool-a", "tool-b"]) sampleDigest ∧
    Allowed sampleSha256 sampleRecords sampleRequest (sampleGrant ["tool-a", "tool-b"])
      sampleDigest := by
  have hanswer : (StaticPolicyResolver.new sampleRecords).map
      (fun resolver => resolver.authorize sampleSha256 sampleRequest) =
        .ok (.allow (sampleGrant ["tool-a", "tool-b"]) sampleDigest) := by
    decide +kernel
  cases hnew : StaticPolicyResolver.new sampleRecords with
  | error e =>
    rw [hnew] at hanswer
    cases hanswer
  | ok resolver =>
    rw [hnew] at hanswer
    have hallow := Except.ok.inj hanswer
    exact ⟨resolver, rfl, hallow,
      ((authorize_exact sampleSha256 sampleRecords resolver hnew).2 sampleRequest).2 _ _ hallow⟩

end Mcp

end RustFactory
