import RustFactory.Gateway.Model
import RustFactory.Lib.Digest
import RustFactory.Workflow.Store

/-!
# Workflows: the runner

`WorkflowRunner` as a system of concurrent calls over one store.  Each call is a thread; one step
of a thread is one access to shared state (the store, the registration counter or the map of
active cancellations) with the local work before it, and a call returns in the step of its last
access.  What the outside world answers to a call (the catalog, the invoker, the clock) stands in
the call's own record, so a run of the system is given by its schedule.
-/

namespace RustFactory.Workflow

open RustFactory.Lib RustFactory.Agent

/-! ## Identities -/

/-- The external functions: SHA-256 and the canonical form of a JSON text. -/
structure Platform where
  sha256 : Sha256
  canonicalJson : (input : String) → (maxBytes : ℕ) → Except WorkflowError String

namespace Platform

variable (p : Platform)

def hexDigest (bytes : Bytes) : String := p.sha256.hexDigest bytes

/-- The digest of an input, by which repetitions are told from conflicts. -/
def inputDigest (canonicalInput : String) : String := p.hexDigest (utf8 canonicalInput)

/-- The identifier that is derived from a text. -/
def derivedId (head source : String) : Except WorkflowError LogicalId :=
  LogicalId.new
    (head ++ "-" ++ String.ofList ((hexChars (p.sha256.digest (utf8 source))).take 32))

end Platform

/-- The text that a run identifier is derived from. -/
def identityMaterial (identity : StartIdentity) : String :=
  identity.key.tenantId.asStr ++ "\x00" ++ identity.key.workflowId.asStr ++ "\x00" ++
    identity.key.workflowVersion.asStr ++ "\x00" ++ identity.key.runKey ++ "\x00" ++
    identity.inputDigest

/-! ## Calls -/

/-- A call of `start_with_policy` with what it is answered from outside: the catalog's definition,
the invoker's opinion of the agent, whether the deadline is a valid instant, the evidence the
invoker emits and its outcome.  No outcome means that the call is dropped while it waits. -/
structure StartCall where
  context : RequestContext
  workflowId : LogicalId
  version : WorkflowVersion
  runKey : String
  input : String
  policy : InvocationPolicy
  resolved : Except WorkflowError (Option WorkflowDefinition)
  agentValid : Except WorkflowError Bool
  instantFits : Bool
  emitted : List InvocationEvidence
  outcome : Option (Except WorkflowError AgentInvocationResult)

/-- The calls of the runner. -/
inductive Call where
  | start (call : StartCall)
  | cancel (tenant runId : LogicalId)

/-- What a start has computed when it reaches the store. -/
structure Prepared where
  definition : WorkflowDefinition
  canonicalInput : String
  identity : StartIdentity
  run : Run
  deriving DecidableEq

/-- The check of a definition, of its agent too. -/
def validate (definition : WorkflowDefinition) (agentValid : Except WorkflowError Bool) :
    Except WorkflowError Unit := do
  validateDefinition definition
  let valid ← agentValid
  if valid then .ok () else .error .notFound

/-- The start key and digest of a call, given its canonical input. -/
def startIdentity (p : Platform) (call : StartCall) (canonicalInput : String) : StartIdentity where
  key := ⟨call.context.tenantId, call.workflowId, call.version, call.runKey⟩
  inputDigest := p.inputDigest canonicalInput

/-- The pending run of a start. -/
def pendingRun (call : StartCall) (definition : WorkflowDefinition) (identity : StartIdentity)
    (id : LogicalId) : Run where
  id := id
  context := call.context
  workflowId := call.workflowId
  workflowVersion := call.version
  runKey := call.runKey
  inputDigest := identity.inputDigest
  maxEvidenceBytes := definition.budget.maxEvidenceBytes
  status := .pending
  revision := 0
  terminalReason := none
  attempt := none
  events := []

/-- `start_with_policy` up to its first access to the store. -/
def prepare (p : Platform) (call : StartCall) : Except WorkflowError Prepared := do
  validateInvocationPolicy call.policy.effectiveCapabilityCeiling call.policy.policyDecisionDigest
  if call.runKey = "" ∨ maxRunKeyBytes < byteLen call.runKey then .error .invalidRequest else do
    let resolved ← call.resolved
    let definition ← okOr .notFound resolved
    validate definition call.agentValid
    let canonicalInput ← p.canonicalJson call.input definition.budget.maxInputBytes
    let id ← p.derivedId "run" (identityMaterial (startIdentity p call canonicalInput))
    .ok
      { definition := definition
        canonicalInput := canonicalInput
        identity := startIdentity p call canonicalInput
        run := pendingRun call definition (startIdentity p call canonicalInput) id }

/-! ## Evidence -/

/-- The evidence of an invocation so far, within the budget. -/
structure EvidenceCollector where
  limit : ℕ
  existingEvents : ℕ
  usedBytes : ℕ
  events : List InvocationEvidence
  output : Option String
  deriving DecidableEq

namespace EvidenceCollector

/-- A collector for a run with the given events. -/
def new (limit : ℕ) (existingEvents : List WorkflowEvent) :
    Except WorkflowError EvidenceCollector := do
  let usedBytes ← evidenceBytes (texts existingEvents)
  if limit < usedBytes ∨ maxEvents < existingEvents.length then .error .limitExceeded
  else .ok ⟨limit, existingEvents.length, usedBytes, [], none⟩

/-- The collector with one more piece of evidence. -/
def emit (c : EvidenceCollector) (evidence : InvocationEvidence) :
    Except WorkflowError EvidenceCollector := do
  let itemBytes ← okOr .limitExceeded (checkedAddSize (byteLen evidence.kind) (byteLen evidence.data))
  let total ← okOr .limitExceeded (checkedAddSize c.usedBytes itemBytes)
  let eventCount ← okOr .limitExceeded
    ((checkedAddSize c.existingEvents c.events.length).bind fun count => checkedAddSize count 1)
  if maxEvents < eventCount ∨ maxEvidenceChunkBytes < itemBytes ∨ c.limit < total then
    .error .limitExceeded
  else if evidence.kind = "result" then
    if c.output.isSome then .error .invalidRequest
    else .ok { c with usedBytes := total, events := c.events ++ [evidence],
                      output := some evidence.data }
  else .ok { c with usedBytes := total, events := c.events ++ [evidence] }

/-- The collector after an emit; a rejected one, which the invoker may ignore, changes nothing. -/
def observe (c : EvidenceCollector) (evidence : InvocationEvidence) : EvidenceCollector :=
  match c.emit evidence with
  | .ok c' => c'
  | .error _ => c

/-- The collector after all that an invoker emits. -/
def collect (c : EvidenceCollector) (emitted : List InvocationEvidence) : EvidenceCollector :=
  emitted.foldl observe c

end EvidenceCollector

/-! ## Transitions -/

/-- The transition to an attempt that runs. -/
def startedTransition (attemptId : LogicalId) (agentId : AgentId) (policy : InvocationPolicy) :
    Transition where
  status := .running
  terminalReason := none
  attempt := some
    { id := attemptId
      agentId := agentId
      effectiveCapabilityCeiling := policy.effectiveCapabilityCeiling
      policyDecisionDigest := policy.policyDecisionDigest
      capabilityScopeDigest := none
      status := .running
      result := none
      error := none }
  events := [⟨1, "started", ""⟩]

def finishSuccess (run : Run) (result : AgentInvocationResult) (evidence : EvidenceCollector) :
    Except WorkflowError Transition := do
  let output ← okOr .invalidRequest evidence.output
  let attempt ← okOr .conflict run.attempt
  .ok
    { status := .succeeded
      terminalReason := some .completed
      attempt := some
        { attempt with
          status := .succeeded
          capabilityScopeDigest := some result.capabilityScopeDigest
          result := some output }
      events := evidence.events.mapIdx fun index item =>
        ⟨UInt64.ofNat run.events.length + UInt64.ofNat index + 1, item.kind, item.data⟩ }

/-- The failure of a run; without an attempt the code panics. -/
def finishFailure (run : Run) (error : String) : Option Transition :=
  run.attempt.map fun attempt =>
    { status := .failed
      terminalReason := some .invocationFailed
      attempt := some { attempt with status := .failed, error := some error }
      events := [⟨UInt64.ofNat run.events.length + 1, "invocation_failed", error⟩] }

/-- The reason that a failed run gives. -/
def failureReason : WorkflowError → String
  | .limitExceeded => "evidence_limit_exceeded"
  | .cancelled => "cancelled"
  | .deadlineExceeded => "deadline_exceeded"
  | _ => "invocation_failed"

/-- The terminal transition of an execution and the error it stands for. -/
def terminalTransition (active : Run) (evidence : EvidenceCollector) :
    Except WorkflowError AgentInvocationResult → Option (Transition × Option WorkflowError)
  | .ok result =>
    match finishSuccess active result evidence with
    | .ok change => some (change, none)
    | .error error =>
      (finishFailure active "invalid_invocation_result").map fun change => (change, some error)
  | .error error =>
    (finishFailure active (failureReason error)).map fun change => (change, some error)

/-- The transition to a cancelled run. -/
def cancelledTransition (run : Run) : Transition where
  status := .cancelled
  terminalReason := some .cancelled
  attempt := run.attempt.map fun attempt => { attempt with status := .cancelled }
  events := [⟨UInt64.ofNat run.events.length + 1, "cancelled", ""⟩]

/-! ## The system -/

/-- What an agent is asked. -/
structure AgentInvocationRequest where
  context : RequestContext
  agentId : AgentId
  input : String
  attemptId : LogicalId
  effectiveCapabilityCeiling : EffectiveCapabilityCeiling
  policyDecisionDigest : String
  deriving DecidableEq

/-- Where a call is: what it has computed when it is about to access shared state again. -/
inductive Pc where
  | ready
  | created (prepared : Prepared) (run : Run)
  | started (prepared : Prepared) (attemptId : LogicalId) (active : Run)
  | numbered (prepared : Prepared) (attemptId : LogicalId) (active : Run)
      (evidence : EvidenceCollector) (token : UInt64)
  | registered (prepared : Prepared) (attemptId : LogicalId) (active : Run)
      (evidence : EvidenceCollector) (token : UInt64)
  | invoking (prepared : Prepared) (active : Run) (evidence : EvidenceCollector) (token : UInt64)
  | invoked (prepared : Prepared) (active : Run) (evidence : EvidenceCollector)
      (outcome : Except WorkflowError AgentInvocationResult)
  | failing (prepared : Prepared) (active : Run) (reason : String) (error : WorkflowError)
  | rereading (tenant runId : LogicalId)
  | signalling (tenant : LogicalId) (run : Run)
  | cancelling (tenant : LogicalId) (run : Run)
  | returned (result : Except WorkflowError RunSummary)
  | dropped
  | panicked

/-- What is seen of a step from outside. -/
inductive Event where
  | created (identity : StartIdentity) (run : Run)
  | invoked (identity : StartIdentity) (request : AgentInvocationRequest)
  | applied (run : Run)
  deriving DecidableEq

/-- What all calls share: the store and the cancellations of the runs. -/
structure Shared where
  store : Store.State
  cancellations : BTreeMap LogicalId UInt64
  nextRegistration : UInt64

def Shared.new : Shared := ⟨.new, ∅, 1⟩

/-- `Drop` of a registration: only the own one is removed. -/
def Shared.unregister (s : Shared) (runId : LogicalId) (token : UInt64) : Shared :=
  if s.cancellations[runId]? = some token then
    { s with cancellations := s.cancellations.erase runId }
  else s

/-- A call of the store by a step. -/
def Shared.transition (s : Shared) (tenant runId : LogicalId) (revision : UInt64)
    (status : RunStatus) (change : Transition) : TransitionResult × Shared :=
  let answer := Store.transition s.store tenant runId revision status change
  (answer.1, { s with store := answer.2 })

/-- `get`, which also reads the run again after a conflict. -/
def Shared.get (s : Shared) (tenant runId : LogicalId) : Except WorkflowError RunSummary :=
  okOr .notFound ((Store.get s.store tenant runId).map RunSummary.ofRun)

/-- The answer to a terminal transition that was applied. -/
def resultOf (summary : RunSummary) : Option WorkflowError → Except WorkflowError RunSummary
  | some .limitExceeded => .error .limitExceeded
  | _ => .ok summary

/-- One step of a start. -/
def advanceStart (p : Platform) (call : StartCall) (s : Shared) :
    Pc → Pc × Shared × List Event
  | .ready =>
    match prepare p call with
    | .error error => (.returned (.error error), s, [])
    | .ok prepared =>
      let answer := Store.createOrReturn s.store prepared.identity prepared.run
      let s' := { s with store := answer.2 }
      match answer.1 with
      | .error error => (.returned (.error error), s', [])
      | .ok (.existing run) => (.returned (.ok (.ofRun run)), s', [])
      | .ok .conflict => (.returned (.error .runKeyConflict), s', [])
      | .ok (.created run) => (.created prepared run, s', [.created prepared.identity run])
  | .created prepared run =>
    match p.derivedId "attempt" (run.id.asStr ++ ":1") with
    | .error error => (.returned (.error error), s, [])
    | .ok attemptId =>
      let change := startedTransition attemptId prepared.definition.step.agentId call.policy
      match s.transition run.context.tenantId run.id run.revision .pending change with
      | (.applied active, s') => (.started prepared attemptId active, s', [.applied active])
      | (.conflict, s') => (.returned (.error .conflict), s', [])
      | (.notFound, s') => (.returned (.error .notFound), s', [])
  | .started prepared attemptId active =>
    match EvidenceCollector.new active.maxEvidenceBytes active.events with
    | .error error => (.failing prepared active "evidence_limit_exceeded" error, s, [])
    | .ok evidence =>
      match checkedAdd s.nextRegistration 1 with
      | none =>
        (.failing prepared active "cancellation_registration_failed" .adapterFailure, s, [])
      | some next =>
        (.numbered prepared attemptId active evidence s.nextRegistration,
          { s with nextRegistration := next }, [])
  | .numbered prepared attemptId active evidence token =>
    (.registered prepared attemptId active evidence token,
      { s with cancellations := s.cancellations.insert active.id token }, [])
  | .registered prepared attemptId active evidence token =>
    match (Gateway.Identifier.new (p.hexDigest (utf8 (active.context.tenantId.asStr ++ ":" ++
        active.id.asStr ++ ":" ++ attemptId.asStr))) : Except _ Gateway.IdempotencyKey) with
    | .error _ =>
      (.failing prepared active "invocation_control_failed" .adapterFailure,
        s.unregister active.id token, [])
    | .ok _ =>
      if call.instantFits then
        (.invoking prepared active evidence token, s,
          [.invoked prepared.identity
            { context := active.context
              agentId := prepared.definition.step.agentId
              input := prepared.canonicalInput
              attemptId := attemptId
              effectiveCapabilityCeiling := call.policy.effectiveCapabilityCeiling
              policyDecisionDigest := call.policy.policyDecisionDigest }])
      else
        (.failing prepared active "invocation_control_failed" .adapterFailure,
          s.unregister active.id token, [])
  | .invoking prepared active evidence token =>
    match call.outcome with
    | none => (.dropped, s.unregister active.id token, [])
    | some outcome =>
      (.invoked prepared active (evidence.collect call.emitted) outcome,
        s.unregister active.id token, [])
  | .invoked _ active evidence outcome =>
    match terminalTransition active evidence outcome with
    | none => (.panicked, s, [])
    | some (change, resultError) =>
      match s.transition active.context.tenantId active.id active.revision .running change with
      | (.applied run, s') => (.returned (resultOf (.ofRun run) resultError), s', [.applied run])
      | (.conflict, s') => (.rereading active.context.tenantId active.id, s', [])
      | (.notFound, s') => (.returned (.error .notFound), s', [])
  | .failing _ active reason error =>
    match finishFailure active reason with
    | none => (.panicked, s, [])
    | some change =>
      match s.transition active.context.tenantId active.id active.revision .running change with
      | (.applied run, s') => (.returned (.error error), s', [.applied run])
      | (.conflict, s') => (.returned (.error error), s', [])
      | (.notFound, s') => (.returned (.error .notFound), s', [])
  | .rereading tenant runId => (.returned (s.get tenant runId), s, [])
  | pc => (pc, s, [])

/-- One step of a `cancel`. -/
def advanceCancel (tenant runId : LogicalId) (s : Shared) : Pc → Pc × Shared × List Event
  | .ready =>
    match Store.get s.store tenant runId with
    | none => (.returned (.error .notFound), s, [])
    | some run =>
      if run.status.isTerminal then (.returned (.ok (.ofRun run)), s, [])
      else (.signalling tenant run, s, [])
  | .signalling tenant run =>
    if s.cancellations.contains run.id then (.cancelling tenant run, s, [])
    else (.returned (.error .conflict), s, [])
  | .cancelling tenant run =>
    match s.transition tenant run.id run.revision .running (cancelledTransition run) with
    | (.applied run, s') => (.returned (.ok (.ofRun run)), s', [.applied run])
    | (.conflict, s') => (.rereading tenant run.id, s', [])
    | (.notFound, s') => (.returned (.error .notFound), s', [])
  | .rereading tenant runId => (.returned (s.get tenant runId), s, [])
  | pc => (pc, s, [])

def advance (p : Platform) (call : Call) (s : Shared) (pc : Pc) : Pc × Shared × List Event :=
  match call with
  | .start call => advanceStart p call s pc
  | .cancel tenant runId => advanceCancel tenant runId s pc

/-- The shared state, the place of every call and the log of events. -/
structure Sys (γ : Type) where
  shared : Shared
  pc : γ → Pc
  log : List (γ × Event)

def Sys.new (γ : Type) : Sys γ := ⟨.new, fun _ => .ready, []⟩

/-- A runner serving a family of calls; an input names the call that moves. -/
def runner {γ : Type} [DecidableEq γ] (p : Platform) (calls : γ → Call) :
    Machine (Sys γ) γ (List Event) where
  step s t :=
    let answer := advance p (calls t) s.shared (s.pc t)
    (answer.2.2,
      { shared := answer.2.1
        pc := Function.update s.pc t answer.1
        log := s.log ++ answer.2.2.map fun event => (t, event) })

/-! ## A concrete platform -/

/-- The SHA-256 digests of the texts that two starts hash: those of the workflow `workflow` of the
tenant `tenant` under the key `key`, with an empty object and with an empty array as input. -/
def sampleDigests : List (String × Bytes) :=
  [("\x7b\x7d",
      [68, 19, 111, 163, 85, 179, 103, 138, 17, 70, 173, 22, 247, 232, 100, 158, 148, 251, 79,
      194, 31, 231, 126, 131, 16, 192, 96, 246, 28, 170, 255, 138]),
    ("tenant\x00workflow\x00v1\x00key\x00" ++
      "44136fa355b3678a1146ad16f7e8649e94fb4fc21fe77e8310c060f61caaff8a",
      [203, 83, 242, 63, 16, 27, 226, 203, 42, 127, 154, 70, 36, 54, 115, 35, 184, 184, 166,
      28, 10, 88, 85, 236, 186, 204, 118, 81, 237, 150, 141, 61]),
    ("run-cb53f23f101be2cb2a7f9a4624367323:1",
      [172, 193, 168, 94, 172, 238, 99, 209, 173, 186, 124, 49, 222, 99, 190, 218, 218, 209,
      94, 150, 230, 222, 180, 120, 196, 23, 84, 71, 239, 135, 230, 120]),
    ("tenant:run-cb53f23f101be2cb2a7f9a4624367323:" ++
      "attempt-acc1a85eacee63d1adba7c31de63beda",
      [151, 152, 15, 170, 123, 65, 15, 29, 19, 9, 187, 32, 17, 98, 171, 81, 232, 214, 146,
      145, 242, 200, 87, 115, 57, 56, 68, 27, 87, 80, 251, 92]),
    ("[]",
      [79, 83, 205, 161, 140, 43, 170, 12, 3, 84, 187, 95, 154, 62, 203, 229, 237, 18, 171,
      77, 142, 17, 186, 135, 60, 47, 17, 22, 18, 2, 185, 69]),
    ("tenant\x00workflow\x00v1\x00key\x00" ++
      "4f53cda18c2baa0c0354bb5f9a3ecbe5ed12ab4d8e11ba873c2f11161202b945",
      [43, 212, 224, 250, 82, 135, 179, 17, 155, 66, 249, 161, 92, 164, 158, 244, 4, 226, 25,
      246, 255, 254, 239, 151, 156, 117, 133, 219, 43, 212, 224, 76]),
    ("run-2bd4e0fa5287b3119b42f9a15ca49ef4:1",
      [163, 161, 39, 7, 20, 41, 78, 182, 34, 169, 100, 188, 184, 240, 25, 181, 254, 237, 3,
      244, 225, 178, 249, 161, 115, 78, 185, 80, 27, 128, 151, 54]),
    ("tenant:run-2bd4e0fa5287b3119b42f9a15ca49ef4:" ++
      "attempt-a3a1270714294eb622a964bcb8f019b5",
      [180, 129, 101, 44, 158, 87, 199, 16, 79, 120, 88, 73, 37, 41, 126, 64, 132, 238, 208,
      128, 68, 90, 238, 222, 171, 12, 66, 110, 233, 239, 177, 88])]

def sampleSha256 : Sha256 where
  digest input :=
    match sampleDigests.find? fun entry => utf8 entry.1 == input with
    | some entry => entry.2
    | none => List.replicate 32 0
  length_digest input := by
    have hall : ∀ entry ∈ sampleDigests, entry.2.length = 32 := by decide
    cases h : sampleDigests.find? fun entry => utf8 entry.1 == input with
    | some entry => exact hall entry (List.mem_of_find?_eq_some h)
    | none => exact List.length_replicate ..

/-- A platform that digests these texts and takes texts that are canonical already. -/
def samplePlatform : Platform where
  sha256 := sampleSha256
  canonicalJson input maxBytes :=
    if maxBytes < byteLen input ∨ maxJsonInputBytes < byteLen input then .error .limitExceeded
    else .ok input

/-- A start with the given input, budget, evidence and outcome. -/
def sampleStart (input : String) (budget : ℕ) (emitted : List InvocationEvidence)
    (outcome : Except WorkflowError AgentInvocationResult) : StartCall where
  context := ⟨⟨"tenant", .refl true⟩, ⟨"principal", .refl true⟩, ⟨"request", .refl true⟩,
    ⟨"correlation", .refl true⟩⟩
  workflowId := ⟨"workflow", .refl true⟩
  version := .v1
  runKey := "key"
  input := input
  policy := ⟨⟨[], false, false, false, false⟩, "".pushn '0' 64⟩
  resolved := .ok (some ⟨⟨"workflow", .refl true⟩, .v1, ⟨⟨"agent", .refl true⟩⟩, ⟨1, 65536, budget⟩⟩)
  agentValid := .ok true
  instantFits := true
  emitted := emitted
  outcome := some outcome

end RustFactory.Workflow
