import RustFactory.Agent.Model
import RustFactory.Lib.BTreeMap
import RustFactory.Lib.Machine

/-!
# Workflows: the data model

A run is one bounded invocation of an agent.  It is created pending, started once and finished
once; every change is a `Transition` that the store checks against the run's current state.
-/

namespace RustFactory.Workflow

open RustFactory.Lib RustFactory.Agent

/-- What an operation of the workflow crate can fail with. -/
inductive WorkflowError where
  | invalidRequest
  | invalidDefinition
  | notFound
  | runKeyConflict
  | conflict
  | limitExceeded
  | cancelled
  | deadlineExceeded
  | adapterFailure
  deriving DecidableEq, Repr

/-- The longest input of a run, in bytes. -/
def maxJsonInputBytes : ℕ := 65536

/-- The longest run key, in bytes. -/
def maxRunKeyBytes : ℕ := 128

/-- The most evidence a run may keep, in bytes. -/
def maxEvidenceBytes : ℕ := 65536

/-- The longest piece of evidence, in bytes. -/
def maxEvidenceChunkBytes : ℕ := 4096

/-- The most events a run may have. -/
def maxEvents : ℕ := 64

/-- What a run must at least be able to keep: its start and a failure for too much evidence. -/
def minTerminalEvidenceBytes : ℕ :=
  byteLen "started" + byteLen "invocation_failed" + byteLen "evidence_limit_exceeded"

/-! ## Identifiers and definitions -/

/-- An identifier of the workflow crate, with the grammar of agent identifiers. -/
structure LogicalId where
  asStr : String
  valid : isId asStr

/-- A checked identifier. -/
def LogicalId.new (value : String) : Except WorkflowError LogicalId :=
  if h : isId value then .ok ⟨value, h⟩ else .error .invalidRequest

theorem LogicalId.asStr_injective : Function.Injective LogicalId.asStr
  | ⟨_, _⟩, ⟨_, _⟩, rfl => rfl

instance : DecidableEq LogicalId := LogicalId.asStr_injective.decidableEq

instance : LinearOrder LogicalId := LinearOrder.lift' LogicalId.asStr LogicalId.asStr_injective

/-- The versions of workflow definitions. -/
inductive WorkflowVersion where
  | v1
  deriving DecidableEq

/-- The name of a version. -/
def WorkflowVersion.asStr : WorkflowVersion → String
  | .v1 => "v1"

/-- The identity of a request. -/
structure RequestContext where
  tenantId : LogicalId
  principalId : LogicalId
  requestId : LogicalId
  correlationId : LogicalId
  deriving DecidableEq

/-- What a run may use: attempts, bytes of input and bytes of evidence. -/
structure WorkflowBudget where
  maxAttempts : UInt8
  maxInputBytes : ℕ
  maxEvidenceBytes : ℕ
  deriving DecidableEq

/-- The one step of a workflow, an invocation of an agent. -/
structure AgentStep where
  agentId : AgentId
  deriving DecidableEq

/-- A workflow as the registry holds it. -/
structure WorkflowDefinition where
  id : LogicalId
  version : WorkflowVersion
  step : AgentStep
  budget : WorkflowBudget
  deriving DecidableEq

/-- A definition of one attempt, with a budget that is positive and within the limits of the crate.
-/
def validateDefinition (definition : WorkflowDefinition) : Except WorkflowError Unit :=
  if definition.budget.maxAttempts = 1 ∧ 0 < definition.budget.maxInputBytes ∧
      definition.budget.maxInputBytes ≤ maxJsonInputBytes ∧
      minTerminalEvidenceBytes ≤ definition.budget.maxEvidenceBytes ∧
      definition.budget.maxEvidenceBytes ≤ maxEvidenceBytes then
    .ok ()
  else
    .error .invalidDefinition

/-! ## Runs -/

/-- Where a run stands. -/
inductive RunStatus where
  | pending
  | running
  | succeeded
  | failed
  | cancelled
  deriving DecidableEq, Repr

/-- The run has ended. -/
def RunStatus.isTerminal : RunStatus → Bool
  | .succeeded | .failed | .cancelled => true
  | .pending | .running => false

/-- Why a run has ended. -/
inductive TerminalReason where
  | completed
  | invocationFailed
  | cancelled
  deriving DecidableEq, Repr

/-- Where an attempt stands. -/
inductive AttemptStatus where
  | running
  | succeeded
  | failed
  | cancelled
  deriving DecidableEq, Repr

/-- An event of a run with its number. -/
structure WorkflowEvent where
  sequence : UInt64
  kind : String
  data : String
  deriving DecidableEq

/-- An attempt of a run: what it invokes, under which ceiling and decision, and how it stands. -/
structure Attempt where
  id : LogicalId
  agentId : AgentId
  effectiveCapabilityCeiling : EffectiveCapabilityCeiling
  policyDecisionDigest : String
  capabilityScopeDigest : Option String
  status : AttemptStatus
  result : Option String
  error : Option String
  deriving DecidableEq

/-- A run as the store holds it. -/
structure Run where
  id : LogicalId
  context : RequestContext
  workflowId : LogicalId
  workflowVersion : WorkflowVersion
  runKey : String
  inputDigest : String
  maxEvidenceBytes : ℕ
  status : RunStatus
  revision : UInt64
  terminalReason : Option TerminalReason
  attempt : Option Attempt
  events : List WorkflowEvent
  deriving DecidableEq

/-- What a listing shows of a run. -/
structure RunSummary where
  id : LogicalId
  workflowId : LogicalId
  workflowVersion : WorkflowVersion
  status : RunStatus
  revision : UInt64
  terminalReason : Option TerminalReason
  deriving DecidableEq

/-- The summary of a run. -/
def RunSummary.ofRun (run : Run) : RunSummary :=
  ⟨run.id, run.workflowId, run.workflowVersion, run.status, run.revision, run.terminalReason⟩

/-- What identifies a run for its caller: a start with the same key is a repetition. -/
structure StartKey where
  tenantId : LogicalId
  workflowId : LogicalId
  workflowVersion : WorkflowVersion
  runKey : String
  deriving DecidableEq

/-- A start key with the digest of the input, by which repetitions are told from conflicts. -/
structure StartIdentity where
  key : StartKey
  inputDigest : String
  deriving DecidableEq

/-- A start key as the tuple that orders it; there is one version only. -/
def StartKey.toTuple (key : StartKey) : LogicalId ×ₗ LogicalId ×ₗ String :=
  toLex (key.tenantId, toLex (key.workflowId, key.runKey))

instance : LinearOrder StartKey :=
  LinearOrder.lift' StartKey.toTuple fun a b h => by
    obtain ⟨t, w, ⟨⟩, k⟩ := a
    obtain ⟨t', w', ⟨⟩, k'⟩ := b
    simpa [StartKey.toTuple] using h

/-- The identity in the order of the source's derived comparison. -/
def StartIdentity.toTuple (identity : StartIdentity) : StartKey ×ₗ String :=
  toLex (identity.key, identity.inputDigest)

instance : LinearOrder StartIdentity :=
  LinearOrder.lift' StartIdentity.toTuple fun a b h => by
    cases a; cases b
    simpa [StartIdentity.toTuple] using h

/-- What the store answers to a creation: the new run, the one of the same identity, or a conflict.
-/
inductive CreateRun where
  | created (run : Run)
  | existing (run : Run)
  | conflict
  deriving DecidableEq

/-- What a transition changes of a run. -/
structure Transition where
  status : RunStatus
  terminalReason : Option TerminalReason
  attempt : Option Attempt
  events : List WorkflowEvent
  deriving DecidableEq

/-- What the store answers to a transition. -/
inductive TransitionResult where
  | applied (run : Run)
  | conflict
  | notFound
  deriving DecidableEq

/-! ## Invocations -/

/-- The ceiling that a policy decision allows an invocation, with the decision's digest. -/
structure InvocationPolicy where
  effectiveCapabilityCeiling : EffectiveCapabilityCeiling
  policyDecisionDigest : String
  deriving DecidableEq

/-- A piece of evidence that an agent leaves. -/
structure InvocationEvidence where
  kind : String
  data : String
  deriving DecidableEq

/-- What an agent answers to an invocation. -/
structure AgentInvocationResult where
  capabilityScopeDigest : String
  deriving DecidableEq

/-- Addition of machine sizes that fails on overflow. -/
def checkedAddSize (a b : ℕ) : Option ℕ := if a + b < 2 ^ 64 then some (a + b) else none

/-- The constructor of evidence; the fields are public, so evidence need not come from it. -/
def InvocationEvidence.new (kind data : String) : Except WorkflowError InvocationEvidence := do
  let bytes ← okOr .limitExceeded (checkedAddSize (byteLen kind) (byteLen data))
  if kind ≠ "" ∧ bytes ≤ maxEvidenceChunkBytes then .ok ⟨kind, data⟩ else .error .limitExceeded

end RustFactory.Workflow
