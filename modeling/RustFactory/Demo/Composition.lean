import RustFactory.Agent.Registry
import RustFactory.Demo.Evidence
import RustFactory.Evaluation.Store
import RustFactory.Observability.Retention
import RustFactory.Observability.Service

/-!
# The demo: the composition

The one composition of the demo: a workflow runner with a fixed identity, an evaluation of its runs
against two criteria, a store of results and telemetry.  A call of `run_demo` starts the run, evaluates
it, stores the result and emits an event, and the calls share the stores.
-/

namespace RustFactory.Demo

open Lib Workflow Evaluation
open Observability (EventName EventTarget LocalTelemetry TelemetryEventV1 TelemetryQueryV1
  TelemetryRecordV1 TelemetryService Timestamp ObservabilityError)

/-! ## The composition -/

def tenant : LogicalId := ⟨"demo-tenant", .refl true⟩
def principal : LogicalId := ⟨"demo-host", .refl true⟩
def request : LogicalId := ⟨"demo-request", .refl true⟩
def correlation : LogicalId := ⟨"demo-correlation", .refl true⟩

/-- The agent that the workflow invokes. -/
def agentId : Agent.AgentId := ⟨"demo-agent", .refl true⟩
def workflowId : LogicalId := ⟨"demo-workflow", .refl true⟩

/-- The run key of every start, so that all starts are one run. -/
def runKey : String := "demo-run"
def maxRunIdBytes : ℕ := 256
def maxTelemetryQueryLimit : ℕ := 50

/-- How many records the telemetry keeps. -/
def telemetryCapacity : ℕ := maxTelemetryQueryLimit

/-- What an operation of the demo can fail with. -/
inductive CompositionError where
  | invalidRequest
  | limitExceeded
  | operationFailed
  deriving DecidableEq, Repr

/-- What a call of `run_demo` returns. -/
structure RunDemoOutcome where
  runId : String
  evidenceDigest : String
  resultDigest : String
  verdict : String
  deriving DecidableEq

/-- What `get_run` shows of a run. -/
structure RunView where
  runId : String
  status : String
  terminalReason : Option String
  output : Option String
  deriving DecidableEq

/-- What a telemetry query shows of a record. -/
structure TelemetryAttributes where
  workflowRunId : Option String
  evidenceDigest : Option String
  resultDigest : Option String
  verdict : Option String
  deriving DecidableEq

def requestContext : RequestContext := ⟨tenant, principal, request, correlation⟩

/-- The definition of the workflow: one attempt, with the largest budget. -/
def definition : WorkflowDefinition :=
  ⟨workflowId, .v1, ⟨agentId⟩, ⟨1, Agent.maxInputBytes, Workflow.maxEvidenceBytes⟩⟩

/-- The definition of the evaluation: the output and the number of results must be right. -/
def evaluationDefinition : EvaluationDefinitionV1 where
  evaluatorId := "demo-evaluator"
  evaluatorVersion := "v1"
  criteria := [.exactOutput "done", .eventKindCount "result" 1]

def localTelemetry : LocalTelemetry := ⟨telemetryCapacity, by decide⟩

def telemetry : TelemetryService := ⟨localTelemetry, maxTelemetryQueryLimit, by decide⟩

/-- The tenant as the telemetry knows it. -/
def telemetryTenant : Observability.TenantId := ⟨"demo-tenant", .refl true⟩

/-- The time of the fixed clock. -/
def fixedClock : Except ObservabilityError Timestamp := .ok 1

/-! ## The agent -/

/-- The agent that the composition registers: it has one tool call and no memory. -/
def agentDefinition (id : Agent.AgentId) : Agent.AgentDefinition where
  version := .v1
  id
  name := "Deterministic demo agent"
  description := "Returns one static bounded result"
  model := ⟨"static.demo"⟩
  instructions := "Return the configured deterministic response."
  skills := []
  steering := []
  allowedToolIds := []
  memory := ⟨false, 0⟩
  knowledge := ⟨false, "disabled", 0⟩
  sandbox := ⟨false⟩
  communication := ⟨false⟩
  limits := ⟨1, 1024⟩

/-- The registry of the composition. -/
def registry :
    Except Agent.DefinitionError (Agent.AgentRegistry (BTreeMap Agent.AgentId Agent.AgentDefinition)) :=
  Agent.AgentRegistry.new [agentDefinition agentId] Agent.InMemoryDefinitionStore
    (Agent.StaticReferenceCatalog.catalog ⟨["static.demo"], [], [], []⟩)

/-- The error of a start whose agent the runtime cannot read. -/
def mapDefinitionError : Agent.DefinitionError → WorkflowError
  | .invalidRequest => .invalidRequest
  | .notFound => .notFound
  | .limitExceeded => .limitExceeded
  | .cancelled => .cancelled
  | .deadlineExceeded => .deadlineExceeded
  | .invalidId | .invalidDefinition | .invalidReference => .invalidDefinition
  | .referenceUnavailable | .builtinProtected | .unknownTool _ | .toolDisallowed _ | .memoryDenied
  | .knowledgeDenied | .sandboxDenied | .adapterFailure => .adapterFailure

/-- The runtime's `validate_agent`. -/
def validateAgent {σ : Type} (registry : Agent.AgentRegistry σ) (state : σ) (id : Agent.AgentId) :
    Except WorkflowError Bool :=
  match registry.get state id with
  | .ok _ => .ok true
  | .error .notFound => .ok false
  | .error error => .error (mapDefinitionError error)

theorem registry_isOk : registry.isOk = true := by decide +kernel

/-- The runtime knows the agent of the workflow, whatever definitions are stored. -/
theorem exists_registry : ∃ runtime, registry = .ok runtime ∧
    ∀ state, validateAgent runtime state agentId = .ok true := by
  obtain ⟨runtime, hruntime⟩ := isOk_iff.mp registry_isOk
  refine ⟨runtime, hruntime, fun state => ?_⟩
  have hget : runtime.get state agentId = .ok (agentDefinition agentId) :=
    Agent.AgentRegistry.get_builtin hruntime (List.mem_singleton_self _) state
  unfold validateAgent
  rw [hget]

/-- What the runtime of the composition answers for the agent of the workflow. -/
def agentKnown : Except WorkflowError Bool := do
  let runtime ← registry.mapError mapDefinitionError
  validateAgent runtime ∅ agentId

theorem agentKnown_eq : agentKnown = .ok true := by
  obtain ⟨runtime, hruntime, hknown⟩ := exists_registry
  unfold agentKnown
  rw [hruntime]
  exact hknown ∅

/-! ## Starts -/

/-- What the agent runtime does for one call: whether it knows the agent, whether the deadline fits a
machine instant, what the invoker emits and what it answers. -/
structure Invocation where
  agentValid : Except WorkflowError Bool
  instantFits : Bool
  emitted : List InvocationEvidence
  outcome : Option (Except WorkflowError AgentInvocationResult)

/-- The start that `run_demo` makes, with the policy that `start` sets. -/
def startCall (invocation : Invocation) : StartCall where
  context := requestContext
  workflowId := workflowId
  version := .v1
  runKey := runKey
  input := "\x7b\x7d"
  policy := ⟨⟨[], false, false, false, false⟩, "".pushn '0' 64⟩
  resolved := .ok (some definition)
  agentValid := invocation.agentValid
  instantFits := invocation.instantFits
  emitted := invocation.emitted
  outcome := invocation.outcome

/-- The name of a verdict in an outcome. -/
def verdictName : Verdict → String
  | .pass => "pass"
  | .fail => "fail"
  | .error => "error"

def statusName : RunStatus → String
  | .pending => "pending"
  | .running => "running"
  | .succeeded => "succeeded"
  | .failed => "failed"
  | .cancelled => "cancelled"

def reasonName : Workflow.TerminalReason → String
  | .completed => "completed"
  | .invocationFailed => "invocation_failed"
  | .cancelled => "cancelled"

/-! ## Telemetry -/

/-- The attributes of the event for a result. -/
def attributes (result : EvaluationResultV1) : BTreeMap String String :=
  ((((∅ : BTreeMap String String).insert "workflow_run_id" result.logicalKey.workflowRunId).insert
    "evidence_digest" result.evidenceDigest).insert "result_digest" result.contentHash).insert
    "verdict" (verdictName result.verdict)

def eventName : EventName := ⟨"workflow_evaluated", .refl true⟩
def eventTarget : EventTarget := ⟨"workflow_evaluation_demo", .refl true⟩

def telemetryEvent (result : EvaluationResultV1) : Except ObservabilityError TelemetryEventV1 :=
  TelemetryEventV1.new eventName eventTarget .info "workflow evaluation completed" (attributes result)

def emitTelemetry (state : LocalTelemetry.State) (result : EvaluationResultV1) :
    Except ObservabilityError Unit × LocalTelemetry.State :=
  match telemetryEvent result with
  | .error error => (.error error, state)
  | .ok event => telemetry.emit state telemetryTenant fixedClock event

def projectAttributes (record : TelemetryRecordV1) : TelemetryAttributes where
  workflowRunId := record.envelope.event.attributes["workflow_run_id"]?
  evidenceDigest := record.envelope.event.attributes["evidence_digest"]?
  resultDigest := record.envelope.event.attributes["result_digest"]?
  verdict := record.envelope.event.attributes["verdict"]?

/-! ## Calls -/

def outcomeOf (result : EvaluationResultV1) : RunDemoOutcome where
  runId := result.logicalKey.workflowRunId
  evidenceDigest := result.evidenceDigest
  resultDigest := result.contentHash
  verdict := verdictName result.verdict

/-- Where a call of `run_demo` is. -/
inductive Pc where
  | starting
  | evaluating (runId : LogicalId)
  | storing (result : EvaluationResultV1)
  | emitting (result : EvaluationResultV1)
  | returned (result : Except CompositionError RunDemoOutcome)
  deriving DecidableEq

/-- The stores that the calls share; the workflow runner has the places of their starts. -/
structure Stores (γ : Type) where
  workflow : Sys γ
  results : InMemoryEvaluationStore.State
  telemetry : LocalTelemetry.State

/-- After a step of the start. -/
def started : Workflow.Pc → Pc
  | .returned (.ok summary) => .evaluating summary.id
  | .returned (.error _) => .returned (.error .operationFailed)
  | _ => .starting

/-- Where a call goes on from its evaluation. -/
def evaluated : Except EvaluationError EvaluationResultV1 → Pc
  | .ok result => .storing result
  | .error _ => .returned (.error .operationFailed)

/-- Where a call goes on from the result store. -/
def stored : Except EvaluationError CreateOrMatch → Pc
  | .ok (.created result) | .ok (.existing result) => .emitting result
  | .ok .conflict | .error _ => .returned (.error .operationFailed)

/-- Where a call goes on from the telemetry. -/
def emitted (result : EvaluationResultV1) : Except ObservabilityError Unit → Pc
  | .ok _ => .returned (.ok (outcomeOf result))
  | .error _ => .returned (.error .operationFailed)

/-- The evaluation of a run over the current workflow store. -/
def evaluateRun (p : Platform) (store : Store.State) (runId : LogicalId) :
    Except EvaluationError EvaluationResultV1 :=
  EvaluationService.evaluate p.sha256 ⟨strictEvidenceReader store, deterministicCriteriaEvaluator⟩
    tenant.asStr runId.asStr evaluationDefinition

section Calls

variable {γ : Type} [DecidableEq γ]

/-- The starts of a family of calls. -/
def starts (invocations : γ → Invocation) (t : γ) : Workflow.Call := .start (startCall (invocations t))

def advance (p : Platform) (invocations : γ → Invocation) (s : Stores γ) (t : γ) : Pc → Pc × Stores γ
  | .starting =>
    let workflow := ((runner p (starts invocations)).step s.workflow t).2
    (started (workflow.pc t), { s with workflow })
  | .evaluating runId => (evaluated (evaluateRun p s.workflow.shared.store runId), s)
  | .storing result =>
    let answer := InMemoryEvaluationStore.new.createOrMatch p.sha256 s.results result
    (stored answer.1, { s with results := answer.2 })
  | .emitting result =>
    let answer := emitTelemetry s.telemetry result
    (emitted result answer.1, { s with telemetry := answer.2 })
  | .returned result => (.returned result, s)

/-- What a call returns in a step. -/
def returns : Pc → Pc → Option (Except CompositionError RunDemoOutcome)
  | .returned _, _ => none
  | _, .returned result => some result
  | _, _ => none

/-- The stores, the place of every call, and the outcomes that were returned, in their order. -/
structure System (γ : Type) extends Stores γ where
  pc : γ → Pc
  log : List RunDemoOutcome

def System.new (γ : Type) : System γ :=
  ⟨⟨.new γ, ∅, .initial⟩, fun _ => .starting, []⟩

/-- The outcome of a call that succeeded. -/
def success : Option (Except CompositionError RunDemoOutcome) → List RunDemoOutcome
  | some (.ok outcome) => [outcome]
  | _ => []

/-- The composition serving calls of `run_demo`; an input names the call that moves. -/
def composition (p : Platform) (invocations : γ → Invocation) :
    Machine (System γ) γ (Option (Except CompositionError RunDemoOutcome)) where
  step s t :=
    let answer := advance p invocations s.toStores t (s.pc t)
    (returns (s.pc t) answer.1,
      { toStores := answer.2
        pc := Function.update s.pc t answer.1
        log := s.log ++ success (returns (s.pc t) answer.1) })

end Calls

/-! ## Views -/

/-- The run with the given identifier, as far as the demo shows it. -/
def getRun (store : Store.State) (runId : String) : Except CompositionError (Option RunView) :=
  if runId = "" then .error .invalidRequest
  else if maxRunIdBytes < byteLen runId then .error .limitExceeded
  else do
    let runId ← (LogicalId.new runId).mapError fun _ => CompositionError.invalidRequest
    match Store.get store tenant runId with
    | none => .ok none
    | some run =>
      let summary := RunSummary.ofRun run
      .ok (some
        { runId := summary.id.asStr
          status := statusName summary.status
          terminalReason := summary.terminalReason.map reasonName
          output := run.attempt.bind Attempt.result })

/-- The attributes of the newest records. -/
def queryTelemetry (state : LocalTelemetry.State) (limit : ℕ) :
    Except CompositionError (List TelemetryAttributes) :=
  if limit = 0 then .error .invalidRequest
  else if maxTelemetryQueryLimit < limit then .error .limitExceeded
  else do
    let query ← (TelemetryQueryV1.new limit).mapError fun _ => CompositionError.invalidRequest
    let records ← (telemetry.query state telemetryTenant query).mapError fun _ =>
      CompositionError.operationFailed
    .ok (records.map projectAttributes)

end RustFactory.Demo
