import RustFactory.Evaluation.Length
import RustFactory.Workflow.Stored

/-!
# The demo: evidence of workflow runs

The evaluation reads its evidence from the store of the workflow runner.  The reader hands out
terminal runs only, and of these only what a run must have when it has succeeded: it refuses runs
that have failed or were cancelled.  In every interleaving of starts and cancellations the evidence it
hands out is that of the one start that created the run, and the checks that the evaluation makes of
it can fail at two places only, the digest of the capability scope and the size.
-/

namespace RustFactory.Demo

open Lib Workflow Evaluation

/-! ## The reader -/

/-- The terminal status and reason of a run whose status, reason and attempt belong together. -/
def terminalOf : RunStatus → Option Workflow.TerminalReason → AttemptStatus →
    Option (TerminalStatus × Evaluation.TerminalReason)
  | .succeeded, some .completed, .succeeded => some (.succeeded, .completed)
  | .failed, some .invocationFailed, .failed => some (.failed, .invocationFailed)
  | .cancelled, some .cancelled, .cancelled => some (.cancelled, .cancelled)
  | _, _, _ => none

def evidenceEvent (event : WorkflowEvent) : EvidenceEventV1 :=
  ⟨event.sequence, event.kind, event.data⟩

/-- The evidence of a terminal run, if nothing of it is missing. -/
def terminalSnapshot (run : Run) : Except EvaluationError TerminalEvidenceSnapshotV1 := do
  let attempt ← okOr .malformedEvidence run.attempt
  let terminal ← okOr .malformedEvidence (terminalOf run.status run.terminalReason attempt.status)
  let capabilityScopeDigest ← okOr .malformedEvidence attempt.capabilityScopeDigest
  let output ← okOr .malformedEvidence attempt.result
  .ok
    { tenantId := run.context.tenantId.asStr
      runId := run.id.asStr
      workflowId := run.workflowId.asStr
      workflowVersion := run.workflowVersion.asStr
      runRevision := run.revision
      terminalStatus := terminal.1
      terminalReason := terminal.2
      attemptId := attempt.id.asStr
      agentId := attempt.agentId.asStr
      capabilityScopeDigest
      output
      events := run.events.map evidenceEvent }

/-- What the reader answers about a run that the store has. -/
def readRun (run : Run) : Except EvaluationError (Option TerminalEvidenceSnapshotV1) :=
  if !run.status.isTerminal then .ok none else (terminalSnapshot run).map some

/-- The reader's `get_terminal` over the in-memory store. -/
def strictEvidenceReader (store : Store.State) : WorkflowEvidenceReader := fun tenantId runId => do
  let tenant ← (LogicalId.new tenantId).mapError fun _ => EvaluationError.invalidRequest
  let runId ← (LogicalId.new runId).mapError fun _ => EvaluationError.invalidRequest
  match Store.get store tenant runId with
  | none => .ok none
  | some run => readRun run

theorem new_asStr (id : LogicalId) : LogicalId.new id.asStr = .ok id := dif_pos id.valid

theorem reader_of_none {store : Store.State} {tenant runId : LogicalId}
    (h : Store.get store tenant runId = none) :
    strictEvidenceReader store tenant.asStr runId.asStr = .ok none := by
  unfold strictEvidenceReader
  rw [new_asStr, new_asStr]
  simp only [Except.mapError, ok_bind, h]

theorem reader_of_some {store : Store.State} {tenant runId : LogicalId} {run : Run}
    (h : Store.get store tenant runId = some run) :
    strictEvidenceReader store tenant.asStr runId.asStr = readRun run := by
  unfold strictEvidenceReader
  rw [new_asStr, new_asStr]
  simp only [Except.mapError, ok_bind, h]

/-! ## What the evidence shows -/

theorem accepted_le (c : EvidenceCollector) (emitted : List InvocationEvidence) :
    ∀ evidence ∈ c.accepted emitted,
      byteLen evidence.kind + byteLen evidence.data ≤ maxEvidenceChunkBytes := by
  refine Machine.invariant_accepted (M := EvidenceCollector.sink)
    (P := fun accepted _ => ∀ evidence ∈ accepted,
      byteLen evidence.kind + byteLen evidence.data ≤ maxEvidenceChunkBytes)
    ?_ (fun accepted c evidence h _ => h) (List.forall_mem_nil _) emitted
  intro accepted c evidence h hok
  rw [List.forall_mem_append, List.forall_mem_singleton]
  refine ⟨h, ?_⟩
  cases hemit : c.emit evidence with
  | error error =>
    rw [EvidenceCollector.sink_step_of_error hemit] at hok
    cases hok
  | ok after =>
    unfold EvidenceCollector.emit at hemit
    obtain ⟨itemBytes, hitem, hemit⟩ := bind_eq_ok.mp hemit
    obtain ⟨rfl, -⟩ := checkedAddSize_eq_some.mp (okOr_eq_ok.mp hitem)
    obtain ⟨total, -, hemit⟩ := bind_eq_ok.mp hemit
    obtain ⟨eventCount, -, hemit⟩ := bind_eq_ok.mp hemit
    split_ifs at hemit with hlimits
    · omega
    · omega

/-- What the evidence of a run shows of it; `call` is the start that created the run and `budget` its
limit of evidence. -/
structure Shows (run : Run) (call : StartCall) (budget : ℕ) (snapshot : TerminalEvidenceSnapshotV1) :
    Prop where
  tenantId : snapshot.tenantId = run.context.tenantId.asStr
  runId : snapshot.runId = run.id.asStr
  workflowId : snapshot.workflowId = run.workflowId.asStr
  workflowVersion : snapshot.workflowVersion = run.workflowVersion.asStr
  runRevision : snapshot.runRevision = run.revision
  status : snapshot.terminalStatus = .succeeded
  reason : snapshot.terminalReason = .completed
  attempt : ∃ attempt, run.attempt = some attempt ∧ snapshot.attemptId = attempt.id.asStr ∧
    snapshot.agentId = attempt.agentId.asStr
  scope : ∃ result, call.outcome = some (.ok result) ∧
    snapshot.capabilityScopeDigest = result.capabilityScopeDigest
  output : ((EvidenceCollector.initial budget).accepted call.emitted).filter
    EvidenceCollector.isResult = [⟨"result", snapshot.output⟩]
  events : snapshot.events = run.events.map evidenceEvent
  texts : snapshot.events.map (fun event => (event.kind, event.data)) = ("started", "") ::
    evidenceTexts ((EvidenceCollector.initial budget).accepted call.emitted)

/-- The evidence names the start that created the run: its context and its workflow, the identifiers
derived for it, and the agent of the definition that it has resolved. -/
structure Names (p : Platform) (call : StartCall) (prepared : Prepared)
    (snapshot : TerminalEvidenceSnapshotV1) : Prop where
  tenantId : snapshot.tenantId = call.context.tenantId.asStr
  runId : snapshot.runId = prepared.run.id.asStr
  derivedRunId : p.derivedId "run" (identityMaterial prepared.identity) = .ok prepared.run.id
  workflowId : snapshot.workflowId = call.workflowId.asStr
  workflowVersion : snapshot.workflowVersion = call.version.asStr
  attemptId : ∃ attemptId, p.derivedId "attempt" (snapshot.runId ++ ":1") = .ok attemptId ∧
    snapshot.attemptId = attemptId.asStr
  resolved : call.resolved = .ok (some prepared.definition)
  agentId : snapshot.agentId = prepared.definition.step.agentId.asStr

theorem names_of_shows {p : Platform} {run : Run} {call : StartCall} {prepared : Prepared}
    {budget : ℕ} {snapshot : TerminalEvidenceSnapshotV1} (hprepare : prepare p call = .ok prepared)
    (hstarted : run.StartedBy p call prepared) (hshows : Shows run call budget snapshot) :
    Names p call prepared snapshot := by
  obtain ⟨-, -, hrunId, -, -⟩ := prepare_eq_ok hprepare
  obtain ⟨attempt, hattempt, hattemptId, hagentId⟩ := hshows.attempt
  obtain ⟨hderived, hagent, -, -⟩ := hstarted.attempt attempt hattempt
  have hid : snapshot.runId = prepared.run.id.asStr := by
    rw [hshows.runId, hstarted.id]
  refine ⟨?_, hid, hrunId, ?_, ?_, ⟨attempt.id, ?_, hattemptId⟩, resolved_of_prepare hprepare, ?_⟩
  · rw [hshows.tenantId, hstarted.context]
  · rw [hshows.workflowId, hstarted.workflowId]
  · rw [hshows.workflowVersion, hstarted.workflowVersion]
  · rw [hid]
    exact hderived
  · rw [hagentId, hagent]

theorem isLogicalId_of_isId {value : String} (h : Agent.isId value) : isLogicalId value := h

/-- What the checks of the evaluation leave open for evidence of a run: the digest of the capability
scope, which the invoker reports, and the size. -/
def evidenceVerdict (snapshot : TerminalEvidenceSnapshotV1) : Except EvaluationError Unit :=
  if !isSha256 snapshot.capabilityScopeDigest then .error .malformedEvidence
  else if maxSnapshotBytes < (fields (Document.texts (.snapshot snapshot))).length then
    .error .limitExceeded
  else .ok ()

section Checks

variable {run : Run} {call : StartCall} {budget : ℕ} {snapshot : TerminalEvidenceSnapshotV1}
  (hformed : run.WellFormed) (hshows : Shows run call budget snapshot)

include hformed hshows

/-- The events of the evidence are numbered from one, have kinds and are within their bound. -/
theorem validateEvent_of_shows : ∀ entry ∈ snapshot.events.zipIdx,
    validateEvent entry.2 entry.1 = .ok () := by
  rintro ⟨event, index⟩ hentry
  have hevent : snapshot.events[index]? = some event :=
    List.mk_mem_zipIdx_iff_getElem?.mp hentry
  have hlength : 1 + run.events.length < 2 ^ 64 := by
    have hcount := hformed.count
    unfold Workflow.maxEvents at hcount
    omega
  obtain ⟨hsequences, hkinds⟩ := (numberedFrom_iff (n := 1) hlength).mp hformed.numbered
  have hmem : (event.kind, event.data) ∈
      snapshot.events.map fun event => (event.kind, event.data) :=
    List.mem_map_of_mem (List.mem_of_getElem? hevent)
  have hsize : byteLen event.kind + byteLen event.data ≤ Evaluation.maxEventBytes := by
    rw [hshows.texts] at hmem
    rcases List.mem_cons.mp hmem with heq | hmem
    · obtain ⟨hkind, hdata⟩ := Prod.mk.inj heq
      rw [hkind, hdata]
      decide
    · obtain ⟨evidence, hevidence, heq⟩ := List.mem_map.mp hmem
      obtain ⟨hkind, hdata⟩ := Prod.mk.inj heq
      rw [← hkind, ← hdata]
      exact accepted_le _ _ evidence hevidence
  rw [hshows.events, List.getElem?_map, Option.map_eq_some_iff] at hevent
  obtain ⟨stored, hstored, rfl⟩ := hevent
  have hindex := (List.getElem?_eq_some_iff.mp hstored).1
  have hsequence : stored.sequence.toNat = index + 1 := by
    have hat := congrArg (fun numbers => numbers[index]?) hsequences
    rw [List.getElem?_map, hstored, List.getElem?_range' hindex] at hat
    have hnumber : stored.sequence.toNat = 1 + 1 * index := Option.some.inj hat
    omega
  unfold validateEvent
  rw [if_neg]
  rintro (hbad | hbad | hbad)
  · refine hbad (UInt64.toNat_inj.mp ?_)
    change stored.sequence.toNat = _
    rw [hsequence, UInt64.toNat_ofNat']
    exact (Nat.mod_eq_of_lt (by omega)).symm
  · exact hkinds stored (List.mem_of_getElem? hstored) hbad
  · exact absurd hsize (Nat.not_le.mpr hbad)

omit hformed in
theorem output_le : byteLen snapshot.output ≤ maxEvidenceChunkBytes := by
  have hmem : (⟨"result", snapshot.output⟩ : InvocationEvidence) ∈
      (EvidenceCollector.initial budget).accepted call.emitted := by
    refine List.mem_of_mem_filter (p := EvidenceCollector.isResult) ?_
    rw [hshows.output]
    exact List.mem_singleton_self _
  have hsize := accepted_le _ _ _ hmem
  dsimp only at hsize
  omega

/-- The guard of the checks, of which only the digest of the scope is open. -/
theorem guard_of_shows : (!isLogicalId snapshot.tenantId || !isLogicalId snapshot.runId ||
    !isLogicalId snapshot.workflowId || !isEvaluatorVersion snapshot.workflowVersion ||
    !isLogicalId snapshot.attemptId || !isLogicalId snapshot.agentId ||
    maxExpectedBytes < byteLen snapshot.output || Evaluation.maxEvents < snapshot.events.length ||
    !isSha256 snapshot.capabilityScopeDigest ||
    !terminalPair snapshot.terminalStatus snapshot.terminalReason) =
      !isSha256 snapshot.capabilityScopeDigest := by
  obtain ⟨attempt, -, hattempt, hagent⟩ := hshows.attempt
  have htenant : isLogicalId snapshot.tenantId = true := by
    rw [hshows.tenantId]
    exact isLogicalId_of_isId run.context.tenantId.valid
  have hrun : isLogicalId snapshot.runId = true := by
    rw [hshows.runId]
    exact isLogicalId_of_isId run.id.valid
  have hworkflow : isLogicalId snapshot.workflowId = true := by
    rw [hshows.workflowId]
    exact isLogicalId_of_isId run.workflowId.valid
  have hversion : isEvaluatorVersion snapshot.workflowVersion = true := by
    rw [hshows.workflowVersion]
    cases run.workflowVersion
    rfl
  have hattemptId : isLogicalId snapshot.attemptId = true := by
    rw [hattempt]
    exact isLogicalId_of_isId attempt.id.valid
  have hagentId : isLogicalId snapshot.agentId = true := by
    rw [hagent]
    exact isLogicalId_of_isId attempt.agentId.valid
  have houtput : decide (maxExpectedBytes < byteLen snapshot.output) = false := by
    have hle := output_le hshows
    unfold maxEvidenceChunkBytes at hle
    unfold maxExpectedBytes
    exact decide_eq_false (by omega)
  have hevents : decide (Evaluation.maxEvents < snapshot.events.length) = false := by
    have hcount := hformed.count
    rw [hshows.events, List.length_map]
    exact decide_eq_false (Nat.not_lt.mpr hcount)
  have hpair : terminalPair snapshot.terminalStatus snapshot.terminalReason = true := by
    rw [hshows.status, hshows.reason]
    rfl
  rw [htenant, hrun, hworkflow, hversion, hattemptId, hagentId, houtput, hevents, hpair]
  simp only [Bool.not_true, Bool.false_or, Bool.or_false]

theorem checkEvidence_of_shows :
    checkEvidence run.context.tenantId.asStr run.id.asStr snapshot = evidenceVerdict snapshot := by
  have hevents : (snapshot.events.zipIdx.forM fun entry => validateEvent entry.2 entry.1) = .ok () :=
    forM_eq_ok.mpr (validateEvent_of_shows hformed hshows)
  have hsnapshot : validateSnapshot snapshot = evidenceVerdict snapshot := by
    unfold validateSnapshot validateAndBoundSnapshot evidenceVerdict
    rw [guard_of_shows hformed hshows]
    by_cases hscope : !isSha256 snapshot.capabilityScopeDigest
    · rw [if_pos hscope, if_pos hscope]
      rfl
    · rw [if_neg hscope, if_neg hscope, hevents, ok_bind,
        snapshotCanonicalLen_eq_checkedSize]
      unfold checkedSize
      by_cases hsize : maxSnapshotBytes < (fields (Document.texts (.snapshot snapshot))).length
      · rw [if_pos hsize]
        split_ifs
        · rw [ok_bind, if_neg (Nat.not_le.mpr hsize)]
          rfl
        · rfl
      · have hword : (fields (Document.texts (.snapshot snapshot))).length < 2 ^ 64 := by
          unfold maxSnapshotBytes at hsize
          omega
        rw [if_neg hsize, if_pos hword, ok_bind, if_pos (Nat.not_lt.mp hsize)]
        rfl
  unfold checkEvidence
  rw [hsnapshot, if_pos ⟨hshows.tenantId, hshows.runId⟩]
  cases evidenceVerdict snapshot with
  | error error => rfl
  | ok done => rfl

end Checks

/-! ## Reading a stored run -/

section Read

variable {run : Run} {call : StartCall} {budget : ℕ}

theorem readRun_of_open (h : run.status.isTerminal = false) : readRun run = .ok none := by
  unfold readRun
  rw [h]
  rfl

theorem readRun_of_terminal (h : run.status.isTerminal = true) :
    readRun run = (terminalSnapshot run).map some := by
  unfold readRun
  rw [h]
  rfl

/-- A run that has failed or was cancelled has no result to hand out. -/
theorem readRun_of_failed (hformed : run.WellFormed)
    (hfaithful : run.Faithful call budget)
    (h : run.status = .failed ∨ run.status = .cancelled) :
    readRun run = .error .malformedEvidence := by
  have hterminal : run.status.isTerminal = true := by
    rcases h with h | h
    · rw [h]
      rfl
    · rw [h]
      rfl
  have hattempt : ∃ attempt, run.attempt = some attempt ∧ attempt.result = none := by
    rcases h with h | h
    · obtain ⟨attempt, error, hattempt, -, hresult, -⟩ := (hfaithful.failed h).failure
      exact ⟨attempt, hattempt, hresult⟩
    · obtain ⟨last, hlast, -, hresult⟩ := hformed.ended hterminal
      exact ⟨last, hlast, hresult h⟩
  obtain ⟨attempt, hattempt, hresult⟩ := hattempt
  rw [readRun_of_terminal hterminal]
  unfold terminalSnapshot
  rw [hattempt, okOr_some, ok_bind, hresult]
  cases terminalOf run.status run.terminalReason attempt.status with
  | none => rfl
  | some terminal =>
    cases attempt.capabilityScopeDigest with
    | none => rfl
    | some digest => rfl

theorem terminalOf_succeeded {reason : Option Workflow.TerminalReason} {status : AttemptStatus}
    (h : outcomeMatches .succeeded reason status = true) :
    terminalOf .succeeded reason status = some (.succeeded, .completed) := by
  cases reason with
  | none => cases h
  | some reason =>
    cases reason with
    | completed =>
      cases status with
      | succeeded => rfl
      | running | failed | cancelled => cases h
    | invocationFailed | cancelled => cases h

theorem readRun_of_succeeded (hformed : run.WellFormed)
    (hfaithful : run.Faithful call budget) (h : run.status = .succeeded) :
    ∃ snapshot, readRun run = .ok (some snapshot) ∧ Shows run call budget snapshot := by
  obtain ⟨htexts, -, attempt, data, result, hattempt, hresult, haccepted, -, houtcome, hscope⟩ :=
    hfaithful.succeeded h
  have hisTerminal : run.status.isTerminal = true := by
    rw [h]
    rfl
  have hterminal : terminalOf run.status run.terminalReason attempt.status =
      some (.succeeded, .completed) := by
    obtain ⟨last, hlast, hmatches, -⟩ := hformed.ended hisTerminal
    rw [hattempt] at hlast
    obtain rfl := Option.some.inj hlast
    rw [h] at hmatches ⊢
    exact terminalOf_succeeded hmatches
  rw [readRun_of_terminal hisTerminal]
  unfold terminalSnapshot
  rw [hattempt, okOr_some, ok_bind, hterminal, okOr_some, ok_bind, hscope, okOr_some, ok_bind, hresult,
    okOr_some, ok_bind]
  refine ⟨_, rfl, rfl, rfl, rfl, rfl, rfl, rfl, rfl, ⟨attempt, hattempt, rfl, rfl⟩,
    ⟨result, houtcome, rfl⟩, haccepted, rfl, ?_⟩
  rw [← htexts]
  unfold Workflow.texts
  rw [List.map_map]
  rfl

end Read

/-! ## Every interleaving -/

section Reached

variable {γ : Type} [DecidableEq γ] {p : Platform} {calls : γ → Workflow.Call}

/-- A stored run holds what the start that created it has collected, and unless it was cancelled it is
still the run of that start. -/
theorem recorded_of_creates (hcollision : NoCollision p calls) {schedule : List γ} {runId : LogicalId}
    {run : Run} (hrun : (reached p calls schedule).shared.store.runs[runId]? = some run) {t : γ}
    {call : StartCall} {prepared : Prepared}
    (h : Creates p calls (reached p calls schedule).log runId t call prepared) :
    run.Faithful call prepared.run.maxEvidenceBytes ∧
      (run.status ≠ .cancelled → run.StartedBy p call prepared) := by
  obtain ⟨stored, hstored, hrecorded⟩ :=
    recorded_reached hcollision h.start h.prepare schedule h.logged
  rw [h.id, hrun] at hstored
  obtain rfl := Option.some.inj hstored
  rcases hrecorded with hcancelled | hrecorded
  · refine ⟨.of_open ?_, fun hopen => absurd hcancelled hopen⟩
    rw [hcancelled]
    exact ⟨by rintro ⟨⟩, by rintro ⟨⟩⟩
  · exact ⟨hrecorded.faithful h.prepare, fun _ => hrecorded.startedBy h.prepare⟩

theorem names_of_creates (hcollision : NoCollision p calls) {schedule : List γ} {runId : LogicalId}
    {run : Run} (hrun : (reached p calls schedule).shared.store.runs[runId]? = some run) {t : γ}
    {call : StartCall} {prepared : Prepared}
    (h : Creates p calls (reached p calls schedule).log runId t call prepared)
    (hsucceeded : run.status = .succeeded) {budget : ℕ} {snapshot : TerminalEvidenceSnapshotV1}
    (hshows : Shows run call budget snapshot) : Names p call prepared snapshot := by
  have hopen : run.status ≠ .cancelled := by
    rw [hsucceeded]
    decide
  exact names_of_shows h.prepare ((recorded_of_creates hcollision hrun h).2 hopen) hshows

/-- **Evidence.**  In every interleaving of starts and cancellations the reader hands out no evidence of
a run that has not ended, refuses the runs that have failed or were cancelled, and of a run that has
succeeded hands out what the one start that created it has emitted and been answered, under the names
of that start.  The checks of the evaluation pass this evidence, unless the invoker has reported no
SHA-256 digest or the evidence is too large. -/
theorem reader_reached (p : Platform) (calls : γ → Workflow.Call) (hcollision : NoCollision p calls)
    (schedule : List γ) (tenant runId : LogicalId) :
    (Store.get (reached p calls schedule).shared.store tenant runId = none →
      strictEvidenceReader (reached p calls schedule).shared.store tenant.asStr runId.asStr =
        .ok none) ∧
    ∀ run, Store.get (reached p calls schedule).shared.store tenant runId = some run →
      (run.status.isTerminal = false →
        strictEvidenceReader (reached p calls schedule).shared.store tenant.asStr runId.asStr =
          .ok none) ∧
      (run.status = .failed ∨ run.status = .cancelled →
        strictEvidenceReader (reached p calls schedule).shared.store tenant.asStr runId.asStr =
          .error .malformedEvidence) ∧
      (run.status = .succeeded → ∃ t call prepared snapshot,
        Creates p calls (reached p calls schedule).log runId t call prepared ∧
        strictEvidenceReader (reached p calls schedule).shared.store tenant.asStr runId.asStr =
          .ok (some snapshot) ∧
        Shows run call prepared.run.maxEvidenceBytes snapshot ∧ Names p call prepared snapshot ∧
        checkEvidence tenant.asStr runId.asStr snapshot = evidenceVerdict snapshot) := by
  refine ⟨reader_of_none, fun run hget => ?_⟩
  have hinv : Inv p calls (reached p calls schedule) := inv_final hcollision schedule
  obtain ⟨hfound, htenant⟩ := Option.filter_eq_some_iff.mp hget
  have htenant : run.context.tenantId = tenant := of_decide_eq_true htenant
  have hid : run.id = runId := hinv.indexed.keyed runId run hfound
  have hformed : run.WellFormed := hinv.wellFormed runId run hfound
  obtain ⟨t, call, prepared, hcreates⟩ := creates_reached schedule hfound
  obtain ⟨hfaithful, -⟩ := recorded_of_creates hcollision hfound hcreates
  rw [reader_of_some hget]
  refine ⟨readRun_of_open, readRun_of_failed hformed hfaithful, fun hsucceeded => ?_⟩
  obtain ⟨snapshot, hread, hshows⟩ := readRun_of_succeeded hformed hfaithful hsucceeded
  refine ⟨t, call, prepared, snapshot, hcreates, hread, hshows,
    names_of_creates hcollision hfound hcreates hsucceeded hshows, ?_⟩
  rw [← htenant, ← hid]
  exact checkEvidence_of_shows hformed hshows

/-- The run of the sample, which has succeeded with a scope that is no digest. -/
theorem reader_reached_sampleStored : ∃ tenant runId run snapshot,
    Store.get sampleStored.shared.store tenant runId = some run ∧
    strictEvidenceReader sampleStored.shared.store tenant.asStr runId.asStr = .ok (some snapshot) ∧
    checkEvidence tenant.asStr runId.asStr snapshot = evidenceVerdict snapshot := by
  have hstored : sampleStored.shared.store.runs.toList.any fun entry =>
      Store.get sampleStored.shared.store entry.2.context.tenantId entry.1 = some entry.2 &&
        entry.2.status = .succeeded := by
    decide +kernel
  obtain ⟨⟨runId, run⟩, -, hrun⟩ := List.any_eq_true.mp hstored
  rw [Bool.and_eq_true, decide_eq_true_eq, decide_eq_true_eq] at hrun
  obtain ⟨hget, hsucceeded⟩ := hrun
  obtain ⟨t, call, prepared, snapshot, -, hread, -, -, hchecked⟩ :=
    ((reader_reached samplePlatform (sampleAlone 65536 sampleEmitted (.ok ⟨"scope"⟩))
      (noCollision_of_prepared fun _ _ _ => rfl) (List.replicate 8 ()) run.context.tenantId
      runId).2 run hget).2.2 hsucceeded
  exact ⟨run.context.tenantId, runId, run, snapshot, hget, hread, hchecked⟩

end Reached

end RustFactory.Demo
