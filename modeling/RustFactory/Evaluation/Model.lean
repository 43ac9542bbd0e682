import RustFactory.Lib.Except
import RustFactory.Lib.Framing

/-!
# Evaluation: evidence, criteria and results

Terminal evidence of a workflow run, the criteria it is evaluated against and the results, with
their validation and the canonical bytes that identify them.
-/

namespace RustFactory.Evaluation

open RustFactory.Lib

/-- What an operation of the evaluation crate can fail with. -/
inductive EvaluationError where
  | invalidRequest
  | invalidDefinition
  | notFound
  | conflict
  | limitExceeded
  | malformedEvidence
  | adapterFailure
  deriving DecidableEq, Repr

/-- The longest logical identifier, in bytes. -/
def maxLogicalIdBytes : ℕ := 128

/-- The longest version of an evaluator or a workflow, in bytes. -/
def maxEvaluatorVersionBytes : ℕ := 128

/-- The length of a digest in hexadecimal. -/
def sha256HexBytes : ℕ := 64

/-- The most criteria a definition may have. -/
def maxCriteria : ℕ := 16

/-- The most events a snapshot may have. -/
def maxEvents : ℕ := 64

/-- The longest expected text and the longest output, in bytes. -/
def maxExpectedBytes : ℕ := 16384

/-- The longest event, that is its kind and data together. -/
def maxEventBytes : ℕ := 4096

/-- The longest canonical text of a snapshot. -/
def maxSnapshotBytes : ℕ := 65536

/-- The most findings a result may have. -/
def maxFindings : ℕ := 32

/-- The longest finding, in bytes. -/
def maxFindingBytes : ℕ := 4096

/-! ## Data -/

/-- A condition on the evidence that an evaluator checks. -/
inductive CriterionV1 where
  | exactOutput (expected : String)
  | eventKindCount (kind : String) (expected : UInt32)
  | eventDataEquals (sequence : UInt64) (expected : String)
  deriving DecidableEq

/-- An evaluator with its version and its criteria, all of which must hold. -/
structure EvaluationDefinitionV1 where
  evaluatorId : String
  evaluatorVersion : String
  criteria : List CriterionV1
  deriving DecidableEq

/-- An event of a finished run, as the evaluation sees it. -/
structure EvidenceEventV1 where
  sequence : UInt64
  kind : String
  data : String
  deriving DecidableEq

/-- How a run has ended. -/
inductive TerminalStatus where
  | succeeded
  | failed
  | cancelled
  deriving DecidableEq

/-- Why a run has ended. -/
inductive TerminalReason where
  | completed
  | invocationFailed
  | cancelled
  deriving DecidableEq

/-- The evidence of a finished run: what the evaluation is given and never changes. -/
structure TerminalEvidenceSnapshotV1 where
  tenantId : String
  runId : String
  workflowId : String
  workflowVersion : String
  runRevision : UInt64
  terminalStatus : TerminalStatus
  terminalReason : TerminalReason
  attemptId : String
  agentId : String
  capabilityScopeDigest : String
  output : String
  events : List EvidenceEventV1
  deriving DecidableEq

/-- What a result is stored under: the run at a revision and the evaluator at a version and a
digest. -/
structure LogicalEvaluationKey where
  tenantId : String
  evaluatorId : String
  evaluatorVersion : String
  criterionDigest : String
  workflowRunId : String
  workflowRevision : UInt64
  deriving DecidableEq

/-- What an evaluation comes to. -/
inductive Verdict where
  | pass
  | fail
  | error
  deriving DecidableEq

/-- A result with the digest of the evidence and the digest of its own contents. -/
structure EvaluationResultV1 where
  logicalKey : LogicalEvaluationKey
  evidenceDigest : String
  verdict : Verdict
  findings : List String
  contentHash : String
  deriving DecidableEq

/-! ## Names -/

/-- The name of a status in canonical texts. -/
def statusName : TerminalStatus → String
  | .succeeded => "succeeded"
  | .failed => "failed"
  | .cancelled => "cancelled"

/-- The name of a reason in canonical texts. -/
def reasonName : TerminalReason → String
  | .completed => "completed"
  | .invocationFailed => "invocation_failed"
  | .cancelled => "cancelled"

/-- The name of a verdict in canonical texts. -/
def verdictName : Verdict → String
  | .pass => "pass"
  | .fail => "fail"
  | .error => "error"

/-- The name of an error in canonical texts. -/
def errorName : EvaluationError → String
  | .invalidRequest => "invalid_request"
  | .invalidDefinition => "invalid_definition"
  | .notFound => "not_found"
  | .conflict => "conflict"
  | .limitExceeded => "limit_exceeded"
  | .malformedEvidence => "malformed_evidence"
  | .adapterFailure => "operation_failed"

/-! ## Lengths -/

/-- The sum of two sizes, if it fits a machine word. -/
def checkedAddSize (a b : ℕ) : Except EvaluationError ℕ :=
  if a + b < 2 ^ 64 then .ok (a + b) else .error .limitExceeded

/-- The number of decimal digits. -/
def decimalLen (value : ℕ) : ℕ := if value = 0 then 1 else Nat.log 10 value + 1

/-- The length of a canonical text with one more field: the digits of its length, two separators and
the value. -/
def addFieldLen (total valueLen : ℕ) : Except EvaluationError ℕ := do
  let len ← checkedAddSize (decimalLen valueLen) 2
  let fieldLen ← checkedAddSize len valueLen
  checkedAddSize total fieldLen

/-- The length of the canonical text of a snapshot, computed before the text is built. -/
def snapshotCanonicalLen (snapshot : TerminalEvidenceSnapshotV1) : Except EvaluationError ℕ := do
  let total ← [2, byteLen snapshot.tenantId, byteLen snapshot.runId, byteLen snapshot.workflowId,
    byteLen snapshot.workflowVersion, decimalLen snapshot.runRevision.toNat,
    byteLen (statusName snapshot.terminalStatus), byteLen (reasonName snapshot.terminalReason),
    byteLen snapshot.attemptId, byteLen snapshot.agentId, byteLen snapshot.capabilityScopeDigest,
    byteLen snapshot.output, decimalLen snapshot.events.length].foldlM addFieldLen 0
  snapshot.events.foldlM (fun total event =>
    [decimalLen event.sequence.toNat, byteLen event.kind, byteLen event.data].foldlM
      addFieldLen total) total

/-! ## Validation -/

/-- A lowercase letter or digit, then lowercase letters, digits, underscores and hyphens. -/
def isLogicalId (value : String) : Bool :=
  byteLen value ≤ maxLogicalIdBytes && match utf8 value with
    | [] => false
    | first :: rest => (isAsciiLowercase first || isAsciiDigit first) &&
      rest.all fun b => isAsciiLowercase b || isAsciiDigit b || b == 95 || b == 45

/-- Letters, digits, dots, underscores and hyphens. -/
def isEvaluatorVersion (value : String) : Bool :=
  value ≠ "" && byteLen value ≤ maxEvaluatorVersionBytes &&
    (utf8 value).all fun b => isAsciiAlphanumeric b || b == 46 || b == 95 || b == 45

/-- A digest in lowercase hexadecimal. -/
def isSha256 (value : String) : Bool :=
  byteLen value = sha256HexBytes &&
    (utf8 value).all fun b => isAsciiDigit b || (97 ≤ b && b ≤ 102)

/-- A criterion within the bounds; an event kind must not be empty. -/
def validateCriterion : CriterionV1 → Except EvaluationError Unit
  | .exactOutput expected | .eventDataEquals _ expected =>
    if maxExpectedBytes < byteLen expected then .error .limitExceeded else .ok ()
  | .eventKindCount kind _ =>
    if kind = "" ∨ maxEventBytes < byteLen kind then .error .invalidDefinition else .ok ()

/-- A definition with proper identifiers and bounded criteria. -/
def validateDefinition (definition : EvaluationDefinitionV1) : Except EvaluationError Unit :=
  if !isLogicalId definition.evaluatorId || !isEvaluatorVersion definition.evaluatorVersion ||
      maxCriteria < definition.criteria.length then
    .error .invalidDefinition
  else
    definition.criteria.forM validateCriterion

/-- The reasons that fit a status. -/
def terminalPair : TerminalStatus → TerminalReason → Bool
  | .succeeded, .completed | .failed, .invocationFailed | .cancelled, .cancelled => true
  | _, _ => false

/-- The event at an index: events are numbered from one and bounded together with their kind. -/
def validateEvent (index : ℕ) (event : EvidenceEventV1) : Except EvaluationError Unit :=
  if event.sequence ≠ UInt64.ofNat (index + 1) ∨ event.kind = "" ∨
      maxEventBytes < byteLen event.kind + byteLen event.data then
    .error .malformedEvidence
  else
    .ok ()

/-- A well-formed snapshot of bounded length; the answer is the length of its canonical text. -/
def validateAndBoundSnapshot (snapshot : TerminalEvidenceSnapshotV1) :
    Except EvaluationError ℕ :=
  if !isLogicalId snapshot.tenantId || !isLogicalId snapshot.runId ||
      !isLogicalId snapshot.workflowId || !isEvaluatorVersion snapshot.workflowVersion ||
      !isLogicalId snapshot.attemptId || !isLogicalId snapshot.agentId ||
      maxExpectedBytes < byteLen snapshot.output || maxEvents < snapshot.events.length ||
      !isSha256 snapshot.capabilityScopeDigest ||
      !terminalPair snapshot.terminalStatus snapshot.terminalReason then
    .error .malformedEvidence
  else do
    snapshot.events.zipIdx.forM fun (event, index) => validateEvent index event
    let len ← snapshotCanonicalLen snapshot
    if len ≤ maxSnapshotBytes then .ok len else .error .limitExceeded

/-- A well-formed snapshot. -/
def validateSnapshot (snapshot : TerminalEvidenceSnapshotV1) : Except EvaluationError Unit :=
  (validateAndBoundSnapshot snapshot).map fun _ => ()

/-- A key with proper identifiers and digests. -/
def validateLogicalKey (key : LogicalEvaluationKey) : Except EvaluationError Unit :=
  if isLogicalId key.tenantId && isLogicalId key.evaluatorId &&
      isEvaluatorVersion key.evaluatorVersion && isSha256 key.criterionDigest &&
      isLogicalId key.workflowRunId then
    .ok ()
  else
    .error .invalidRequest

/-- A result with a proper key and evidence digest, whose findings are bounded. -/
def validateResultFields (result : EvaluationResultV1) : Except EvaluationError Unit := do
  validateLogicalKey result.logicalKey
  if !isSha256 result.evidenceDigest then .error .invalidRequest
  else if maxFindings < result.findings.length ||
      result.findings.any (fun finding => maxFindingBytes < byteLen finding) then
    .error .limitExceeded
  else
    .ok ()

/-! ## Canonical bytes -/

/-- The text of a snapshot that is hashed. -/
def snapshotCanonicalBytes (snapshot : TerminalEvidenceSnapshotV1) :
    Except EvaluationError Bytes := do
  let _ ← validateAndBoundSnapshot snapshot
  .ok (fields ["v1", snapshot.tenantId, snapshot.runId, snapshot.workflowId,
      snapshot.workflowVersion, decimal snapshot.runRevision.toNat,
      statusName snapshot.terminalStatus, reasonName snapshot.terminalReason, snapshot.attemptId,
      snapshot.agentId, snapshot.capabilityScopeDigest, snapshot.output,
      decimal snapshot.events.length] ++
    snapshot.events.flatMap fun event =>
      fields [decimal event.sequence.toNat, event.kind, event.data])

/-- The fields of a criterion, its kind first. -/
def criterionFields : CriterionV1 → List String
  | .exactOutput expected => ["exact_output", expected]
  | .eventKindCount kind expected => ["event_kind_count", kind, decimal expected.toNat]
  | .eventDataEquals sequence expected => ["event_data_equals", decimal sequence.toNat, expected]

/-- The text of a definition that is hashed. -/
def definitionCanonicalBytes (definition : EvaluationDefinitionV1) :
    Except EvaluationError Bytes := do
  validateDefinition definition
  .ok (fields ["v1", definition.evaluatorId, definition.evaluatorVersion,
      decimal definition.criteria.length] ++
    definition.criteria.flatMap fun criterion => fields (criterionFields criterion))

/-- The text of a result that is hashed. -/
def resultCanonicalBytes (result : EvaluationResultV1) : Except EvaluationError Bytes := do
  validateResultFields result
  .ok (fields ["v1", result.logicalKey.tenantId, result.logicalKey.evaluatorId,
      result.logicalKey.evaluatorVersion, result.logicalKey.criterionDigest,
      result.logicalKey.workflowRunId, decimal result.logicalKey.workflowRevision.toNat,
      result.evidenceDigest, verdictName result.verdict, decimal result.findings.length] ++
    result.findings.flatMap fun finding => fields [finding])

/-- The digest of a snapshot, as a result and the demo's outcome carry it. -/
def snapshotDigest (sha256 : Sha256) (snapshot : TerminalEvidenceSnapshotV1) :
    Except EvaluationError String :=
  (snapshotCanonicalBytes snapshot).map sha256.hexDigest

/-- The digest of a definition, the criterion digest of a logical key. -/
def definitionDigest (sha256 : Sha256) (definition : EvaluationDefinitionV1) :
    Except EvaluationError String :=
  (definitionCanonicalBytes definition).map sha256.hexDigest

/-- The digest of a result, its content hash. -/
def resultDigest (sha256 : Sha256) (result : EvaluationResultV1) :
    Except EvaluationError String :=
  (resultCanonicalBytes result).map sha256.hexDigest

/-- The text that stands for evidence which was not valid. -/
def invalidEvidenceBytes (tenantId runId criterionDigest : String) (error : EvaluationError) :
    Bytes :=
  fields ["invalid_evidence_v1", tenantId, runId, criterionDigest, errorName error]

/-- The digest that stands for evidence which is refused. -/
def invalidEvidenceDigest (sha256 : Sha256) (tenantId runId criterionDigest : String)
    (error : EvaluationError) : String :=
  sha256.hexDigest (invalidEvidenceBytes tenantId runId criterionDigest error)

/-- A result whose content hash is the digest of its contents. -/
def validateResult (sha256 : Sha256) (result : EvaluationResultV1) :
    Except EvaluationError Unit := do
  validateResultFields result
  let digest ← resultDigest sha256 result
  if isSha256 result.contentHash && result.contentHash == digest then .ok ()
  else .error .invalidRequest

end RustFactory.Evaluation
