import RustFactory.Lib.Digest
import RustFactory.Workflow.Model

/-!
# Workflows: transitions and the in-memory store

`transitionIsValid` is the one guard every change of a run passes.  `InMemoryWorkflowStore` keeps
the runs with an index of identities and of start keys; each call runs under one lock.
-/

namespace RustFactory.Workflow

open RustFactory.Lib RustFactory.Agent

/-! ## The guard -/

/-- A hexadecimal digit of either case. -/
def isAsciiHexdigit (b : UInt8) : Bool :=
  isAsciiDigit b || (97 ≤ b && b ≤ 102) || (65 ≤ b && b ≤ 70)

theorem all_isAsciiHexdigit (sha256 : Sha256) (input : Bytes) :
    (utf8 (sha256.hexDigest input)).all isAsciiHexdigit := by
  refine List.all_eq_true.mpr fun b hb => ?_
  unfold isAsciiHexdigit
  rw [lowercaseHex_of_mem_hexDigest hb, Bool.true_or]

def validateInvocationPolicy (ceiling : EffectiveCapabilityCeiling) (decisionDigest : String) :
    Except WorkflowError Unit :=
  match validateEffectiveCapabilityCeiling ceiling with
  | .error _ => .error .invalidRequest
  | .ok () =>
    if byteLen decisionDigest = 64 ∧ (utf8 decisionDigest).all isAsciiHexdigit then .ok ()
    else .error .invalidRequest

def evidenceBytes (values : List (String × String)) : Except WorkflowError ℕ :=
  values.foldlM (fun total value => okOr .limitExceeded
    ((checkedAddSize total (byteLen value.1)).bind fun sum =>
      checkedAddSize sum (byteLen value.2))) 0

/-- The kinds and data of events. -/
def texts (events : List WorkflowEvent) : List (String × String) :=
  events.map fun event => (event.kind, event.data)

/-- The events are numbered upwards from `sequence` and have a kind. -/
def numberedFrom : UInt64 → List WorkflowEvent → Bool
  | _, [] => true
  | sequence, event :: events =>
    event.sequence == sequence && event.kind != "" && numberedFrom (sequence + 1) events

/-- The attempts agree in all that never changes. -/
def sameAttempt (previous next : Attempt) : Bool :=
  previous.id == next.id && previous.agentId == next.agentId &&
    previous.effectiveCapabilityCeiling == next.effectiveCapabilityCeiling &&
    previous.policyDecisionDigest == next.policyDecisionDigest &&
    previous.status == .running

/-- The number and the size of the events fit. -/
def eventsFit (run : Run) (events : List WorkflowEvent) : Bool :=
  (match checkedAddSize run.events.length events.length with
    | some count => count ≤ maxEvents
    | none => false) &&
  match evidenceBytes (texts (run.events ++ events)) with
    | .ok size => size ≤ run.maxEvidenceBytes
    | .error _ => false

/-- The sequence number the next event must have. -/
def nextSequence (run : Run) : UInt64 :=
  match run.events.getLast? with
  | none => 1
  | some event => event.sequence + 1

/-- The change of status, reason and attempt is one of the four allowed ones. -/
def changeAllowed (expectedStatus status : RunStatus) (reason : Option TerminalReason)
    (previous next : Option Attempt) : Bool :=
  match expectedStatus, status, reason, previous, next with
  | .pending, .running, none, none, some next =>
    (validateInvocationPolicy next.effectiveCapabilityCeiling next.policyDecisionDigest).isOk &&
      next.status == .running && next.capabilityScopeDigest.isNone && next.result.isNone &&
      next.error.isNone
  | .running, .succeeded, some .completed, some previous, some next =>
    sameAttempt previous next && next.status == .succeeded && next.result.isSome &&
      next.error.isNone
  | .running, .failed, some .invocationFailed, some previous, some next =>
    sameAttempt previous next && next.status == .failed && next.result.isNone && next.error.isSome
  | .running, .cancelled, some .cancelled, some previous, some next =>
    sameAttempt previous next && next.status == .cancelled && next.result.isNone
  | _, _, _, _, _ => false

/-- The transition may follow the run. -/
def transitionIsValid (run : Run) (expectedStatus : RunStatus) (transition : Transition) : Bool :=
  if run.status ≠ expectedStatus ∨ run.status.isTerminal ∨ transition.events.isEmpty ∨
      !eventsFit run transition.events then
    false
  else if !numberedFrom (nextSequence run) transition.events then
    false
  else
    changeAllowed expectedStatus transition.status transition.terminalReason run.attempt
      transition.attempt

/-! ## The store -/

namespace Store

/-- The runs, with the identities and keys that they were started under. -/
structure State where
  runs : BTreeMap LogicalId Run
  identities : BTreeMap StartIdentity LogicalId
  keys : BTreeMap StartKey StartIdentity

/-- The empty store. -/
def State.new : State := ⟨∅, ∅, ∅⟩

/-- A run that `create_or_return` accepts for an identity. -/
def creatable (identity : StartIdentity) (run : Run) : Bool :=
  run.context.tenantId == identity.key.tenantId && run.workflowId == identity.key.workflowId &&
    run.workflowVersion == identity.key.workflowVersion && run.runKey == identity.key.runKey &&
    run.inputDigest == identity.inputDigest && run.status == .pending && run.revision == 0 &&
    run.terminalReason.isNone && run.attempt.isNone && run.events.isEmpty &&
    run.maxEvidenceBytes != 0 && run.maxEvidenceBytes ≤ maxEvidenceBytes

/-- Creates a run, or finds the one of the same identity. -/
def createOrReturn (s : State) (identity : StartIdentity) (run : Run) :
    Except WorkflowError CreateRun × State :=
  match s.identities[identity]? with
  | some id => ((okOr .adapterFailure s.runs[id]?).map .existing, s)
  | none =>
    if s.keys.contains identity.key then
      (.ok .conflict, s)
    else if !creatable identity run then
      (.error .invalidRequest, s)
    else
      (.ok (.created run),
        { runs := s.runs.insert run.id run
          identities := s.identities.insert identity run.id
          keys := s.keys.insert identity.key identity })

def get (s : State) (tenant run : LogicalId) : Option Run :=
  s.runs[run]?.filter fun value => value.context.tenantId == tenant

def list (s : State) (tenant : LogicalId) : List Run :=
  s.runs.values.filter fun value => value.context.tenantId == tenant

/-- A run with a transition applied to it. -/
def apply (run : Run) (transition : Transition) : Run :=
  { run with
    status := transition.status
    terminalReason := transition.terminalReason
    attempt := transition.attempt
    events := run.events ++ transition.events
    revision := run.revision + 1 }

/-- Changes a run that stands as expected. -/
def transition (s : State) (tenant runId : LogicalId) (revision : UInt64) (status : RunStatus)
    (transition : Transition) : TransitionResult × State :=
  match s.runs[runId]? with
  | none => (.notFound, s)
  | some current =>
    if current.context.tenantId ≠ tenant then
      (.notFound, s)
    else if current.revision ≠ revision ∨ !transitionIsValid current status transition then
      (.conflict, s)
    else
      (.applied (apply current transition),
        { s with runs := s.runs.insert runId (apply current transition) })

/-- A call of the `WorkflowStore` port. -/
inductive Call where
  | createOrReturn (identity : StartIdentity) (run : Run)
  | get (tenant runId : LogicalId)
  | list (tenant : LogicalId)
  | transition (tenant runId : LogicalId) (revision : UInt64) (status : RunStatus)
      (transition : Transition)

/-- What an operation answers. -/
inductive Reply where
  | create (result : Except WorkflowError CreateRun)
  | get (run : Option Run)
  | list (runs : List Run)
  | transition (result : TransitionResult)

/-- `InMemoryWorkflowStore` as a machine. -/
def store : Machine State Call Reply where
  step s
    | .createOrReturn identity run =>
      ((createOrReturn s identity run).1 |> .create, (createOrReturn s identity run).2)
    | .get tenant runId => (.get (get s tenant runId), s)
    | .list tenant => (.list (list s tenant), s)
    | .transition tenant runId revision status change =>
      ((transition s tenant runId revision status change).1 |> .transition,
        (transition s tenant runId revision status change).2)

end Store

end RustFactory.Workflow
