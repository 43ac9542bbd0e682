import RustFactory.Evaluation.Canonical

/-!
# Evaluation: assessing terminal evidence

A request names a run and a definition.  The evidence of the run is read, checked and assessed
against the criteria; evidence that does not pass its check is recorded as a result with the verdict
`error`.  There are two ways in, the free function and the service with an executor of its choice,
and two executors, the local one and one that asks the scorers of an evaluation framework.
-/

namespace RustFactory.Evaluation

open RustFactory.Lib

/-- What an evaluator says of the evidence. -/
structure EvaluatorAssessmentV1 where
  verdict : Verdict
  findings : List String
  deriving DecidableEq

/-! ## The local assessment -/

/-- The closure of `deterministic_assessment`. -/
def passed (snapshot : TerminalEvidenceSnapshotV1) : CriterionV1 → Bool
  | .exactOutput expected => snapshot.output == expected
  | .eventKindCount kind expected =>
    (snapshot.events.filter fun event => event.kind == kind).length == expected.toNat
  | .eventDataEquals sequence expected =>
    (snapshot.events.find? fun event => event.sequence == sequence).any
      fun event => event.data == expected

/-- The finding for the criterion at a position counted from zero. -/
def criterionFailed (index : ℕ) : String := "criterion_" ++ decimal (index + 1) ++ "_failed"

/-- The finding for a criterion that could not be judged. -/
def criterionError (index : ℕ) : String := "criterion_" ++ decimal (index + 1) ++ "_error"

/-- The assessment by the criteria themselves. -/
def deterministicAssessment (definition : EvaluationDefinitionV1)
    (snapshot : TerminalEvidenceSnapshotV1) : EvaluatorAssessmentV1 :=
  let findings := definition.criteria.zipIdx.filterMap fun (criterion, index) =>
    if passed snapshot criterion then none else some (criterionFailed index)
  { verdict := if findings.isEmpty then .pass else .fail, findings }

/-- An assessment with bounded findings. -/
def validateAssessment (assessment : EvaluatorAssessmentV1) : Except EvaluationError Unit :=
  if maxFindings < assessment.findings.length ||
      assessment.findings.any (fun finding => maxFindingBytes < byteLen finding) then
    .error .adapterFailure
  else
    match assessment.verdict, assessment.findings.isEmpty with
    | .pass, true | .fail, false | .error, false => .ok ()
    | _, _ => .error .adapterFailure

/-! ## Executors -/

/-- The `assess` of an executor. -/
abbrev EvaluationExecutor :=
  EvaluationDefinitionV1 → TerminalEvidenceSnapshotV1 → Except EvaluationError EvaluatorAssessmentV1

def deterministicCriteriaEvaluator : EvaluationExecutor := fun definition evidence =>
  .ok (deterministicAssessment definition evidence)

/-- The outcome of a scorer of the framework. -/
inductive EvaluationResult where
  | pass
  | fail (reason : String)
  | skip (reason : String)
  | error (message : String)

/-- The two scorers of the framework as their `evaluate_str` behaves: the exact match, and the one
built from a name and a function. -/
structure Scorers where
  exactMatch : String → Option String → EvaluationResult
  function : String → (String → Option String → EvaluationResult) → String → Option String →
    EvaluationResult

/-- An exact match passes on equal texts and fails on others; a function is asked for its answer. -/
structure Scorers.Faithful (scorers : Scorers) : Prop where
  exactMatch_pass : ∀ output expected,
    scorers.exactMatch output (some expected) = .pass ↔ output = expected
  exactMatch_fail : ∀ output expected, output ≠ expected →
    ∃ reason, scorers.exactMatch output (some expected) = .fail reason
  function_eq : ∀ name f output expected, scorers.function name f output expected = f output expected

/-- What the scorers say of a criterion. -/
def criterionOutcome (scorers : Scorers) (evidence : TerminalEvidenceSnapshotV1) :
    CriterionV1 → EvaluationResult
  | .exactOutput expected => scorers.exactMatch evidence.output (some expected)
  | .eventKindCount kind expected =>
    let actual := (evidence.events.filter fun event => event.kind == kind).length
    scorers.function "event_kind_count"
      (fun _ _ => if actual == expected.toNat then .pass else .fail "mismatch") "" none
  | .eventDataEquals sequence expected =>
    let isMatch := (evidence.events.find? fun event => event.sequence == sequence).any
      fun event => event.data == expected
    scorers.function "event_data_equals"
      (fun _ _ => if isMatch then .pass else .fail "mismatch") "" none

/-- What an outcome adds to the assessment: whether it is an error, and a finding. -/
def mapOutcome (index : ℕ) : EvaluationResult → Bool × Option String
  | .pass => (false, none)
  | .fail _ => (false, some (criterionFailed index))
  | .skip _ | .error _ => (true, some (criterionError index))

/-- One pass of the loop over the criteria. -/
def assessCriterion (scorers : Scorers) (evidence : TerminalEvidenceSnapshotV1)
    (state : List String × Bool) (entry : CriterionV1 × ℕ) : List String × Bool :=
  let (isError, finding) := mapOutcome entry.2 (criterionOutcome scorers evidence entry.1)
  (state.1 ++ finding.toList, state.2 || isError)

def serdesAiEvalsExecutor (scorers : Scorers) : EvaluationExecutor := fun definition evidence =>
  let (findings, error) := definition.criteria.zipIdx.foldl (assessCriterion scorers evidence)
    ([], false)
  .ok { verdict := if error then .error else if findings.isEmpty then .pass else .fail, findings }

/-! ## Requests -/

/-- Where an evaluation gets its evidence: the snapshot of a tenant's run. -/
abbrev WorkflowEvidenceReader :=
  String → String → Except EvaluationError (Option TerminalEvidenceSnapshotV1)

/-- The key that the result of a request is stored under. -/
def requestKey (sha256 : Sha256) (tenantId runId : String) (definition : EvaluationDefinitionV1)
    (revision : UInt64) : Except EvaluationError LogicalEvaluationKey := do
  let criterionDigest ← definitionDigest sha256 definition
  .ok { tenantId
        evaluatorId := definition.evaluatorId
        evaluatorVersion := definition.evaluatorVersion
        criterionDigest
        workflowRunId := runId
        workflowRevision := revision }

/-- The result with its own digest, the last step of building one. -/
def withContentHash (sha256 : Sha256) (result : EvaluationResultV1) :
    Except EvaluationError EvaluationResultV1 := do
  let contentHash ← resultDigest sha256 result
  .ok { result with contentHash }

/-- The result for evidence that is refused. -/
def invalidResult (sha256 : Sha256) (key : LogicalEvaluationKey) (tenantId runId : String)
    (error : EvaluationError) : Except EvaluationError EvaluationResultV1 :=
  withContentHash sha256
    { evidenceDigest := invalidEvidenceDigest sha256 tenantId runId key.criterionDigest error
      logicalKey := key
      verdict := .error
      findings := [errorName error]
      contentHash := "" }

def checkedRequest (tenantId runId : String) (definition : EvaluationDefinitionV1) :
    Except EvaluationError Unit :=
  if !isLogicalId tenantId || !isLogicalId runId then .error .invalidRequest
  else validateDefinition definition

def buildResult (sha256 : Sha256) (key : LogicalEvaluationKey)
    (snapshot : TerminalEvidenceSnapshotV1) (assessment : EvaluatorAssessmentV1) :
    Except EvaluationError EvaluationResultV1 := do
  validateAssessment assessment
  let evidenceDigest ← snapshotDigest sha256 snapshot
  withContentHash sha256
    { logicalKey := key
      evidenceDigest
      verdict := assessment.verdict
      findings := assessment.findings
      contentHash := "" }

/-- The evidence is valid and of the run that was asked for. -/
def checkEvidence (tenantId runId : String) (snapshot : TerminalEvidenceSnapshotV1) :
    Except EvaluationError Unit := do
  validateSnapshot snapshot
  if snapshot.tenantId = tenantId ∧ snapshot.runId = runId then .ok ()
  else .error .malformedEvidence

/-- The evaluation by the criteria themselves. -/
def evaluate (sha256 : Sha256) (reader : WorkflowEvidenceReader) (tenantId runId : String)
    (definition : EvaluationDefinitionV1) : Except EvaluationError EvaluationResultV1 := do
  checkedRequest tenantId runId definition
  let found ← reader tenantId runId
  let snapshot ← okOr .notFound found
  let key ← requestKey sha256 tenantId runId definition snapshot.runRevision
  match checkEvidence tenantId runId snapshot with
  | .error error => invalidResult sha256 key tenantId runId error
  | .ok _ => buildResult sha256 key snapshot (deterministicAssessment definition snapshot)

/-- The parts of a service that an evaluation reads. -/
structure EvaluationService where
  reader : WorkflowEvidenceReader
  executor : EvaluationExecutor

/-- The evaluation by the evaluator of the service. -/
def EvaluationService.evaluate (sha256 : Sha256) (service : EvaluationService)
    (tenantId runId : String) (definition : EvaluationDefinitionV1) :
    Except EvaluationError EvaluationResultV1 := do
  checkedRequest tenantId runId definition
  let found ← service.reader tenantId runId
  let snapshot ← okOr .notFound found
  let key ← requestKey sha256 tenantId runId definition snapshot.runRevision
  match checkEvidence tenantId runId snapshot with
  | .error error => invalidResult sha256 key tenantId runId error
  | .ok _ =>
    let assessment ← (service.executor definition snapshot).mapError fun _ => .adapterFailure
    (buildResult sha256 key snapshot assessment).mapError fun _ => .adapterFailure

end RustFactory.Evaluation
