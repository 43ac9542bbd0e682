import RustFactory.Demo.Composition

/-!
# The demo: one outcome for every call

The identity of the run is fixed, so all calls of `run_demo` share a run, whatever their
interleaving: the first one creates it, and all that succeed report one result of it, which is stored
once and emitted by each of them.  A call that comes after one that succeeded replays its outcome.
-/

namespace RustFactory.Demo

open Lib Workflow Evaluation
open Observability (LocalTelemetry TelemetryEnvelopeV1)

/-! ## One identity -/

section Starts

variable {p : Platform} {a b : Invocation} {x y : Prepared}

/-- What a start prepares depends on the runtime through the check of the agent only. -/
theorem prepare_congr (h : a.agentValid = b.agentValid) :
    prepare p (startCall a) = prepare p (startCall b) := by
  cases a
  cases b
  obtain rfl := h
  rfl

theorem agentValid_of_prepare (h : prepare p (startCall a) = .ok x) : a.agentValid = .ok true := by
  unfold prepare at h
  obtain ⟨⟨⟩, -, h⟩ := bind_eq_ok.mp h
  split_ifs at h
  obtain ⟨resolved, -, h⟩ := bind_eq_ok.mp h
  obtain ⟨definition, -, h⟩ := bind_eq_ok.mp h
  obtain ⟨⟨⟩, hvalidate, -⟩ := bind_eq_ok.mp h
  obtain ⟨⟨⟩, -, hagent⟩ := bind_eq_ok.mp hvalidate
  obtain ⟨valid, hvalid, hif⟩ := bind_eq_ok.mp hagent
  cases valid with
  | true => exact hvalid
  | false => cases hif

theorem prepare_unique (ha : prepare p (startCall a) = .ok x) (hb : prepare p (startCall b) = .ok y) :
    x = y := by
  rw [prepare_congr ((agentValid_of_prepare ha).trans (agentValid_of_prepare hb).symm), hb] at ha
  exact (Except.ok.inj ha).symm

variable {γ : Type} {invocations : γ → Invocation}

theorem noCollision_starts : NoCollision p (starts invocations) := by
  intro t t' call call' prepared prepared' hcall hcall' hprepare hprepare' _
  cases hcall
  cases hcall'
  rw [prepare_unique hprepare hprepare']

/-- The store has at most one run. -/
theorem runId_unique {s : Store.State} (h : Indexed p (starts invocations) s) {i j : LogicalId}
    {run run' : Run} (hi : s.runs[i]? = some run) (hj : s.runs[j]? = some run') : i = j := by
  obtain ⟨t, call, prepared, hcall, hprepare, hid, -⟩ := h.origin i run hi
  obtain ⟨t', call', prepared', hcall', hprepare', hid', -⟩ := h.origin j run' hj
  cases hcall
  cases hcall'
  rw [← hid, ← hid', prepare_unique hprepare hprepare']

end Starts

/-! ## Evaluations -/

/-- A result of evaluating a run of the store. -/
def Evaluated (p : Platform) (store : Store.State) (result : EvaluationResultV1) : Prop :=
  ∃ runId, evaluateRun p store runId = .ok result

section Evaluations

variable {p : Platform} {store store' : Store.State} {runId : LogicalId} {result : EvaluationResultV1}

theorem reader_congr (h : Store.get store' tenant runId = Store.get store tenant runId) :
    strictEvidenceReader store' tenant.asStr runId.asStr =
      strictEvidenceReader store tenant.asStr runId.asStr := by
  cases hget : Store.get store tenant runId with
  | none =>
    rw [hget] at h
    rw [reader_of_none hget, reader_of_none h]
  | some run =>
    rw [hget] at h
    rw [reader_of_some hget, reader_of_some h]

theorem evaluateRun_congr (h : Store.get store' tenant runId = Store.get store tenant runId) :
    evaluateRun p store' runId = evaluateRun p store runId := by
  unfold evaluateRun
  rw [service_evaluate_eq, service_evaluate_eq]
  exact InMemoryEvaluationStore.evaluate_congr (reader_congr h) evaluationDefinition

/-- What is behind a result: the run has ended and the reader hands out its evidence. -/
theorem evaluateRun_eq_ok (h : evaluateRun p store runId = .ok result) :
    ∃ run snapshot key, Store.get store tenant runId = some run ∧ run.status.isTerminal = true ∧
      readRun run = .ok (some snapshot) ∧
      requestKey p.sha256 tenant.asStr runId.asStr evaluationDefinition snapshot.runRevision =
        .ok key ∧
      ((checkEvidence tenant.asStr runId.asStr snapshot = .ok () ∧
          buildResult p.sha256 key snapshot (deterministicAssessment evaluationDefinition snapshot) =
            .ok result) ∨
        ∃ error, checkEvidence tenant.asStr runId.asStr snapshot = .error error ∧
          invalidResult p.sha256 key tenant.asStr runId.asStr error = .ok result) := by
  unfold evaluateRun at h
  rw [service_evaluate_eq] at h
  obtain ⟨snapshot, key, -, hread, hkey, hresult⟩ := evaluate_eq_ok h
  cases hget : Store.get store tenant runId with
  | none =>
    rw [reader_of_none hget] at hread
    cases hread
  | some run =>
    rw [reader_of_some hget] at hread
    refine ⟨run, snapshot, key, rfl, ?_, hread, hkey, hresult⟩
    by_contra hopen
    rw [readRun_of_open (Bool.eq_false_iff.mpr hopen)] at hread
    cases hread

theorem validateResult_evaluateRun (h : evaluateRun p store runId = .ok result) :
    validateResult p.sha256 result = .ok () := by
  unfold evaluateRun at h
  rw [service_evaluate_eq] at h
  exact validateResult_evaluate h

variable {γ : Type} [DecidableEq γ] {invocations : γ → Invocation} {s : Sys γ}

/-- A run that was evaluated has ended, so it stays as it is. -/
theorem evaluateRun_step (h : Workflow.Inv p (starts invocations) s) (t : γ)
    (heval : evaluateRun p s.shared.store runId = .ok result) :
    evaluateRun p ((runner p (starts invocations)).step s t).2.shared.store runId = .ok result := by
  obtain ⟨run, -, -, hget, hterminal, -⟩ := evaluateRun_eq_ok heval
  have hmove : Move p (starts invocations t) s.shared (s.pc t) _ _ _ := advance_move _ (s.pc t)
  obtain ⟨hrun, htenant⟩ := Option.filter_eq_some_iff.mp hget
  have hkept := hmove.terminal noCollision_starts h.indexed hrun hterminal
  have hsame : Store.get ((runner p (starts invocations)).step s t).2.shared.store tenant runId =
      Store.get s.shared.store tenant runId := by
    rw [hget]
    exact Option.filter_eq_some_iff.mpr ⟨hkept, htenant⟩
  rw [evaluateRun_congr hsame, heval]

theorem Evaluated.step (h : Workflow.Inv p (starts invocations) s) (t : γ)
    (heval : Evaluated p s.shared.store result) :
    Evaluated p ((runner p (starts invocations)).step s t).2.shared.store result :=
  heval.imp fun _ => evaluateRun_step h t

omit [DecidableEq γ] in
theorem Evaluated.unique (h : Indexed p (starts invocations) store) {other : EvaluationResultV1}
    (hresult : Evaluated p store result) (hother : Evaluated p store other) : result = other := by
  obtain ⟨i, hi⟩ := hresult
  obtain ⟨j, hj⟩ := hother
  obtain ⟨run, -, -, hrun, -⟩ := evaluateRun_eq_ok hi
  obtain ⟨run', -, -, hrun', -⟩ := evaluateRun_eq_ok hj
  obtain rfl := runId_unique h (Option.filter_eq_some_iff.mp hrun).1
    (Option.filter_eq_some_iff.mp hrun').1
  rw [hi] at hj
  exact Except.ok.inj hj

end Evaluations

/-! ## Events -/

def envelope (result : EvaluationResultV1) : TelemetryEnvelopeV1 :=
  ⟨telemetryTenant, 1,
    ⟨eventName, eventTarget, .info, "workflow evaluation completed", attributes result⟩⟩

theorem validateEnvelope_envelope (result : EvaluationResultV1) :
    Observability.validateEnvelope (envelope result) =
      Observability.validateEvent (envelope result).event := by
  have htenant : Observability.validateTenantId (envelope result).tenantId.asStr = .ok () := rfl
  unfold Observability.validateEnvelope
  rw [htenant]
  rfl

/-- The checks on the way to the local store are those of the store. -/
theorem emitTelemetry_eq (state : LocalTelemetry.State) (result : EvaluationResultV1) :
    emitTelemetry state result = localTelemetry.emit state (envelope result) := by
  have hnew : telemetryEvent result = (Observability.validateEvent (envelope result).event).map
      fun _ => (envelope result).event := by
    unfold telemetryEvent Observability.TelemetryEventV1.new
    change (Observability.validateEvent (envelope result).event >>= fun _ => Except.ok _) = _
    cases Observability.validateEvent (envelope result).event with
    | error error => rfl
    | ok _ => rfl
  unfold emitTelemetry
  rw [hnew]
  cases hvalid : Observability.validateEvent (envelope result).event with
  | error error =>
    unfold LocalTelemetry.emit
    rw [validateEnvelope_envelope, hvalid]
    rfl
  | ok _ => exact telemetry.emit_eq state telemetryTenant 1 (envelope result).event

/-- The local store after the events of some results. -/
structure Emits (results : List EvaluationResultV1) (state : LocalTelemetry.State) : Prop where
  retained : LocalTelemetry.Inv localTelemetry (results.map envelope) state
  next : state.nextSequence = results.length + 1
  total : state.totalEvents = (LocalTelemetry.queueOf state telemetryTenant).length

theorem Emits.initial : Emits [] .initial where
  retained := .initial
  next := rfl
  total := by
    rw [LocalTelemetry.queueOf_initial]
    rfl

theorem Emits.emit {results : List EvaluationResultV1} {state : LocalTelemetry.State}
    {result : EvaluationResultV1} (h : Emits results state)
    (hok : (localTelemetry.emit state (envelope result)).1.isOk) :
    Emits (results ++ [result]) (localTelemetry.emit state (envelope result)).2 := by
  obtain ⟨hrefused, -⟩ | ⟨-, -, -, hnext, hfulltotal, htotal, htenants⟩ :=
    LocalTelemetry.emit_cases localTelemetry state (envelope result)
  · exact absurd hok hrefused
  refine ⟨?_, ?_, ?_⟩
  · rw [List.map_append]
    exact h.retained.emit hok
  · rw [hnext, h.next, List.length_append]
    rfl
  · have hqueue := LocalTelemetry.queueOf_of_insert htenants telemetryTenant
    rw [if_pos (show (envelope result).tenantId = telemetryTenant from rfl)] at hqueue
    rw [hqueue, LocalTelemetry.length_pushed]
    by_cases hfull : LocalTelemetry.isFull localTelemetry state telemetryTenant
    · rw [hfulltotal hfull, h.total]
      exact (if_pos hfull).symm
    · rw [htotal hfull, h.total]
      exact (if_neg hfull).symm

/-! ## Every interleaving -/

/-- The result that a call holds, evaluated but not reported yet. -/
def Pc.result? : Pc → Option EvaluationResultV1
  | .storing result | .emitting result => some result
  | _ => none

section Runs

variable {γ : Type} [DecidableEq γ] {p : Platform} {invocations : γ → Invocation}

/-- What holds of the calls in every state. -/
structure Inv (p : Platform) (invocations : γ → Invocation) (s : System γ) : Prop where
  reached : ∃ schedule, s.workflow = Workflow.reached p (starts invocations) schedule
  held : ∀ t result, (s.pc t).result? = some result → Evaluated p s.workflow.shared.store result
  emitting : ∀ t result, s.pc t = .emitting result →
    s.results[result.logicalKey]? = some result
  stored : InMemoryEvaluationStore.Inv .new p.sha256 s.results
  results : BTreeMap.Forall (fun _ result => Evaluated p s.workflow.shared.store result) s.results
  reported : ∃ results, s.log = results.map outcomeOf ∧
    (∀ result ∈ results, s.results[result.logicalKey]? = some result) ∧ Emits results s.telemetry

theorem Inv.new : Inv p invocations (System.new γ) where
  reached := ⟨[], rfl⟩
  held := by rintro t result ⟨⟩
  emitting := by rintro t result ⟨⟩
  stored := .empty
  results := .empty
  reported := ⟨[], rfl, List.forall_mem_nil _, .initial⟩

variable {s : System γ} {t : γ} {pc' : Pc}

theorem Inv.workflow (h : Inv p invocations s) :
    Workflow.Inv p (starts invocations) s.workflow := by
  obtain ⟨schedule, hschedule⟩ := h.reached
  rw [hschedule]
  exact inv_final noCollision_starts schedule

/-- A property of the places holds after a move if it holds of the new place and of the others. -/
theorem pc_moved {P : Pc → Prop} (hothers : ∀ u, P (s.pc u)) (hmoved : P pc') (u : γ) :
    P (Function.update s.pc t pc' u) := by
  rw [Function.update_apply]
  split_ifs
  · exact hmoved
  · exact hothers u

/-- A step of a start. -/
theorem Inv.start (h : Inv p invocations s) (t : γ) {workflow : Sys γ}
    (hworkflow : workflow = ((runner p (starts invocations)).step s.workflow t).2)
    (hpc : pc'.result? = none) :
    Inv p invocations { s with workflow, pc := Function.update s.pc t pc' } := by
  have heval : ∀ result, Evaluated p s.workflow.shared.store result →
      Evaluated p workflow.shared.store result := by
    intro result hresult
    rw [hworkflow]
    exact hresult.step h.workflow t
  refine ⟨?_, ?_, ?_, h.stored, fun key result hfound => heval result (h.results key result hfound),
    h.reported⟩
  · obtain ⟨schedule, hschedule⟩ := h.reached
    refine ⟨schedule ++ [t], ?_⟩
    rw [reached_concat, ← hschedule]
    exact hworkflow
  · refine pc_moved (P := fun pc => ∀ result, pc.result? = some result →
      Evaluated p workflow.shared.store result)
      (fun u result hresult => heval result (h.held u result hresult)) ?_
    intro result hresult
    rw [hpc] at hresult
    cases hresult
  · refine pc_moved (P := fun pc => ∀ result, pc = .emitting result →
      s.results[result.logicalKey]? = some result) h.emitting ?_
    rintro result rfl
    cases hpc

/-- A step that leaves the workflow runner alone and keeps what is stored. -/
theorem Inv.moved (h : Inv p invocations s) {results : InMemoryEvaluationStore.State}
    {telemetry : LocalTelemetry.State} {log : List RunDemoOutcome}
    (hkeeps : InMemoryEvaluationStore.Keeps s.results results)
    (hheld : ∀ result, pc'.result? = some result → Evaluated p s.workflow.shared.store result)
    (hemitting : ∀ result, pc' = .emitting result → results[result.logicalKey]? = some result)
    (hstored : InMemoryEvaluationStore.Inv .new p.sha256 results)
    (hresults : BTreeMap.Forall (fun _ result => Evaluated p s.workflow.shared.store result) results)
    (hreported : ∃ reported, log = reported.map outcomeOf ∧
      (∀ result ∈ reported, results[result.logicalKey]? = some result) ∧ Emits reported telemetry) :
    Inv p invocations
      { workflow := s.workflow, results, telemetry, pc := Function.update s.pc t pc', log } := by
  refine ⟨h.reached, ?_, ?_, hstored, hresults, hreported⟩
  · exact pc_moved (P := fun pc => ∀ result, pc.result? = some result →
      Evaluated p s.workflow.shared.store result) h.held hheld
  · exact pc_moved (P := fun pc => ∀ result, pc = .emitting result →
      results[result.logicalKey]? = some result)
      (fun u result hpc => hkeeps _ _ (h.emitting u result hpc)) hemitting

theorem result?_started (pc : Workflow.Pc) : (started pc).result? = none := by
  cases pc with
  | returned result =>
    cases result with
    | ok summary => rfl
    | error error => rfl
  | _ => rfl

theorem success_started (pc : Workflow.Pc) : success (returns .starting (started pc)) = [] := by
  cases pc with
  | returned result =>
    cases result with
    | ok summary => rfl
    | error error => rfl
  | _ => rfl

/-- What a call stores is stored, unless it is refused. -/
theorem Inv.store (h : Inv p invocations s) {result : EvaluationResultV1}
    (heval : Evaluated p s.workflow.shared.store result) (t : γ) :
    Inv p invocations
      { s with
        results := (InMemoryEvaluationStore.new.createOrMatch p.sha256 s.results result).2
        pc := Function.update s.pc t
          (Demo.stored (InMemoryEvaluationStore.new.createOrMatch p.sha256 s.results result).1) } := by
  have hkeeps : InMemoryEvaluationStore.Keeps s.results
      (InMemoryEvaluationStore.new.createOrMatch p.sha256 s.results result).2 :=
    InMemoryEvaluationStore.keeps_createOrMatch result
  have hreported : ∃ reported, s.log = reported.map outcomeOf ∧
      (∀ reported' ∈ reported, (InMemoryEvaluationStore.new.createOrMatch p.sha256 s.results
        result).2[reported'.logicalKey]? = some reported') ∧ Emits reported s.telemetry := by
    obtain ⟨reported, hlog, hall, hemits⟩ := h.reported
    exact ⟨reported, hlog, fun result hresult => hkeeps _ _ (hall result hresult), hemits⟩
  refine h.moved hkeeps ?_ ?_ (h.stored.createOrMatch result) ?_ hreported
  all_goals
    obtain ⟨⟨error, herror⟩, hsame⟩ | ⟨-, hnone, -, -, hcreated⟩ | ⟨existing, hfound, hmatch⟩ :=
      InMemoryEvaluationStore.createOrMatch_cases .new p.sha256 s.results result
  · rw [herror]
    rintro result ⟨⟩
  · rw [hcreated]
    rintro result ⟨⟩
    exact heval
  · rw [hmatch]
    by_cases hsame : existing.contentHash = result.contentHash
    · rw [if_pos hsame]
      rintro result ⟨⟩
      exact h.results _ _ hfound
    · rw [if_neg hsame]
      rintro result ⟨⟩
  · rw [herror]
    rintro result ⟨⟩
  · rw [hcreated]
    rintro result ⟨⟩
    exact Std.ExtTreeMap.getElem?_insert_self
  · rw [hmatch]
    by_cases hsame : existing.contentHash = result.contentHash
    · rw [if_pos hsame]
      rintro result ⟨⟩
      have hkey := (h.stored.stored _ _ hfound).1
      rwa [hkey]
    · rw [if_neg hsame]
      rintro result ⟨⟩
  · rw [hsame]
    exact h.results
  · rw [hcreated]
    exact h.results.insert heval
  · rw [hmatch]
    exact h.results

/-- The event of a result that is emitted. -/
theorem Inv.emit (h : Inv p invocations s) {result : EvaluationResultV1}
    (hpc : s.pc t = .emitting result) :
    Inv p invocations
      { s with
        telemetry := (emitTelemetry s.telemetry result).2
        pc := Function.update s.pc t (emitted result (emitTelemetry s.telemetry result).1)
        log := s.log ++ success (returns (.emitting result)
          (emitted result (emitTelemetry s.telemetry result).1)) } := by
  obtain ⟨reported, hlog, hall, hemits⟩ := h.reported
  rw [emitTelemetry_eq]
  cases hemit : (localTelemetry.emit s.telemetry (envelope result)).1 with
  | error error =>
    have hsame : (localTelemetry.emit s.telemetry (envelope result)).2 = s.telemetry := by
      refine LocalTelemetry.emit_refused ?_
      rw [hemit]
      exact Bool.false_ne_true
    rw [hsame]
    refine h.moved (.refl _) (by rintro result ⟨⟩) (by rintro result ⟨⟩) h.stored h.results
      ⟨reported, ?_, hall, hemits⟩
    show s.log ++ [] = _
    rw [List.append_nil, hlog]
  | ok done =>
    have hok : (localTelemetry.emit s.telemetry (envelope result)).1.isOk := by
      rw [hemit]
      rfl
    refine h.moved (.refl _) (by rintro result ⟨⟩) (by rintro result ⟨⟩) h.stored h.results
      ⟨reported ++ [result], ?_, ?_, hemits.emit hok⟩
    · show s.log ++ [outcomeOf result] = _
      rw [hlog, List.map_append]
      rfl
    · rw [List.forall_mem_append, List.forall_mem_singleton]
      exact ⟨hall, h.emitting t result hpc⟩

theorem Inv.step (h : Inv p invocations s) (t : γ) :
    Inv p invocations ((composition p invocations).step s t).2 := by
  change Inv p invocations (System.mk (advance p invocations s.toStores t (s.pc t)).2
    (Function.update s.pc t (advance p invocations s.toStores t (s.pc t)).1)
    (s.log ++ success (returns (s.pc t) (advance p invocations s.toStores t (s.pc t)).1)))
  cases hpc : s.pc t with
  | starting =>
    have hlog := success_started (((runner p (starts invocations)).step s.workflow t).2.pc t)
    unfold advance
    dsimp only
    rw [hlog, List.append_nil]
    exact h.start t rfl (result?_started _)
  | evaluating runId =>
    unfold advance
    dsimp only
    cases heval : evaluateRun p s.workflow.shared.store runId with
    | error error =>
      refine h.moved (.refl _) (by rintro result ⟨⟩) (by rintro result ⟨⟩) h.stored h.results ?_
      show ∃ reported, s.log ++ [] = _ ∧ _
      rw [List.append_nil]
      exact h.reported
    | ok result =>
      refine h.moved (.refl _) ?_ (by rintro result ⟨⟩) h.stored h.results ?_
      · rintro result ⟨⟩
        exact ⟨runId, heval⟩
      · show ∃ reported, s.log ++ [] = _ ∧ _
        rw [List.append_nil]
        exact h.reported
  | storing result =>
    have hheld : Evaluated p s.workflow.shared.store result := h.held t result (by rw [hpc]; rfl)
    have hlog : success (returns (.storing result)
        (Demo.stored (InMemoryEvaluationStore.new.createOrMatch p.sha256 s.results result).1)) = [] := by
      cases (InMemoryEvaluationStore.new.createOrMatch p.sha256 s.results result).1 with
      | error error => rfl
      | ok answer =>
        cases answer with
        | created result => rfl
        | existing result => rfl
        | conflict => rfl
    unfold advance
    dsimp only
    rw [hlog, List.append_nil]
    exact h.store hheld t
  | emitting result => exact h.emit hpc
  | returned result =>
    refine h.moved (.refl _) (by rintro result ⟨⟩) (by rintro result ⟨⟩) h.stored h.results ?_
    show ∃ reported, s.log ++ [] = _ ∧ _
    rw [List.append_nil]
    exact h.reported

theorem inv_final_composition (p : Platform) (invocations : γ → Invocation) (schedule : List γ) :
    Inv p invocations ((composition p invocations).final (.new γ) schedule) :=
  Machine.invariant_final (fun _ t h => h.step t) .new schedule

end Runs

/-! ## What is reported -/

/-- The verdict over evidence that a run shows. -/
def demoVerdict (snapshot : TerminalEvidenceSnapshotV1) : Verdict :=
  match evidenceVerdict snapshot with
  | .error _ => .error
  | .ok _ => if snapshot.output = "done" then .pass else .fail

def attributesOf (outcome : RunDemoOutcome) : TelemetryAttributes :=
  ⟨some outcome.runId, some outcome.evidenceDigest, some outcome.resultDigest, some outcome.verdict⟩

section Reports

variable {run : Run} {call : StartCall} {budget : ℕ} {snapshot : TerminalEvidenceSnapshotV1}
  {result : EvaluationResultV1} {sha256 : Sha256} {key : LogicalEvaluationKey}

theorem resultEvents_of_shows (h : Shows run call budget snapshot) :
    (snapshot.events.filter fun event => event.kind == "result").length = 1 := by
  have hcount : (snapshot.events.filter fun event => event.kind == "result").length =
      ((snapshot.events.map fun event => (event.kind, event.data)).filter
        fun text => text.1 == "result").length := by
    rw [List.filter_map, List.length_map]
    rfl
  have hstarted : ("started" == "result") = false := by decide
  have hfilter : ((EvidenceCollector.initial budget).accepted call.emitted).filter
      (fun evidence => evidence.kind == "result") = [⟨"result", snapshot.output⟩] := by
    rw [← h.output]
    refine List.filter_congr fun evidence _ => ?_
    unfold EvidenceCollector.isResult
    exact beq_eq_decide ..
  rw [hcount, h.texts, List.filter_cons, if_neg (by rw [hstarted]; exact Bool.false_ne_true)]
  unfold evidenceTexts
  rw [List.filter_map, List.length_map]
  exact congrArg List.length hfilter

theorem verdict_of_shows (h : Shows run call budget snapshot) :
    (deterministicAssessment evaluationDefinition snapshot).verdict =
      if snapshot.output = "done" then .pass else .fail := by
  have hcount : passed snapshot (.eventKindCount "result" 1) = true := by
    show ((snapshot.events.filter fun event => event.kind == "result").length == 1) = true
    rw [resultEvents_of_shows h]
    rfl
  have hfindings : (deterministicAssessment evaluationDefinition snapshot).findings =
      if passed snapshot (.exactOutput "done") then [] else [criterionFailed 0] := by
    have hzip : evaluationDefinition.criteria.zipIdx =
        [(.exactOutput "done", 0), (.eventKindCount "result" 1, 1)] := rfl
    unfold deterministicAssessment
    dsimp only
    rw [hzip]
    simp only [List.filterMap_cons, hcount, if_true, List.filterMap_nil]
    cases passed snapshot (.exactOutput "done") with
    | true => rfl
    | false => rfl
  change (if (deterministicAssessment evaluationDefinition snapshot).findings.isEmpty then _ else _) = _
  rw [hfindings, show passed snapshot (.exactOutput "done") = (snapshot.output == "done") from rfl]
  by_cases houtput : snapshot.output = "done"
  · rw [if_pos houtput, if_pos (beq_iff_eq.mpr houtput)]
    rfl
  · rw [if_neg houtput, if_neg (mt beq_iff_eq.mp houtput)]
    rfl

theorem logicalKey_of_withContentHash {draft : EvaluationResultV1}
    (h : withContentHash sha256 draft = .ok result) : result.logicalKey = draft.logicalKey ∧
      result.verdict = draft.verdict ∧ result.evidenceDigest = draft.evidenceDigest := by
  unfold withContentHash at h
  obtain ⟨hash, -, h⟩ := bind_eq_ok.mp h
  cases h
  exact ⟨rfl, rfl, rfl⟩

theorem result_of_shows (h : Shows run call budget snapshot)
    (hresult : (evidenceVerdict snapshot = .ok () ∧
        buildResult sha256 key snapshot (deterministicAssessment evaluationDefinition snapshot) =
          .ok result) ∨
      ∃ error, evidenceVerdict snapshot = .error error ∧
        invalidResult sha256 key tenant.asStr run.id.asStr error = .ok result) :
    result.logicalKey = key ∧ result.verdict = demoVerdict snapshot ∧
      (evidenceVerdict snapshot = .ok () →
        snapshotDigest sha256 snapshot = .ok result.evidenceDigest) ∧
      ∀ error, evidenceVerdict snapshot = .error error → result.evidenceDigest =
        invalidEvidenceDigest sha256 tenant.asStr run.id.asStr key.criterionDigest error := by
  rcases hresult with ⟨hvalid, hbuild⟩ | ⟨error, hinvalid, hbuild⟩
  · unfold buildResult at hbuild
    obtain ⟨⟨⟩, -, hbuild⟩ := bind_eq_ok.mp hbuild
    obtain ⟨digest, hdigest, hbuild⟩ := bind_eq_ok.mp hbuild
    obtain ⟨hkey, hverdict, hevidence⟩ := logicalKey_of_withContentHash hbuild
    refine ⟨hkey, ?_, fun _ => ?_, fun error hinvalid => ?_⟩
    · rw [hverdict]
      unfold demoVerdict
      rw [hvalid]
      exact verdict_of_shows h
    · rw [hevidence]
      exact hdigest
    · rw [hvalid] at hinvalid
      cases hinvalid
  · obtain ⟨hkey, hverdict, hevidence⟩ := logicalKey_of_withContentHash hbuild
    refine ⟨hkey, ?_, fun hvalid => ?_, fun error' hinvalid' => ?_⟩
    · rw [hverdict]
      unfold demoVerdict
      rw [hinvalid]
    · rw [hinvalid] at hvalid
      cases hvalid
    · rw [hinvalid] at hinvalid'
      obtain rfl := Except.error.inj hinvalid'
      exact hevidence

theorem requestKey_eq_ok {runId : String} {revision : UInt64}
    (h : requestKey sha256 tenant.asStr runId evaluationDefinition revision = .ok key) :
    key.workflowRunId = runId ∧
      definitionDigest sha256 evaluationDefinition = .ok key.criterionDigest := by
  unfold requestKey at h
  obtain ⟨digest, hdigest, h⟩ := bind_eq_ok.mp h
  cases h
  exact ⟨rfl, hdigest⟩

/-- What the reader has found in a run whose evidence it hands out. -/
theorem readRun_eq_some (h : readRun run = .ok (some snapshot)) :
    ∃ attempt terminal, run.attempt = some attempt ∧
      terminalOf run.status run.terminalReason attempt.status = some terminal ∧
      attempt.result = some snapshot.output := by
  unfold readRun at h
  split_ifs at h
  · cases h
  cases hsnapshot : terminalSnapshot run with
  | error error =>
    rw [hsnapshot] at h
    cases h
  | ok found =>
    rw [hsnapshot] at h
    obtain rfl := Option.some.inj (Except.ok.inj h)
    unfold terminalSnapshot at hsnapshot
    obtain ⟨attempt, hattempt, hsnapshot⟩ := bind_eq_ok.mp hsnapshot
    obtain ⟨terminal, hterminal, hsnapshot⟩ := bind_eq_ok.mp hsnapshot
    obtain ⟨digest, -, hsnapshot⟩ := bind_eq_ok.mp hsnapshot
    obtain ⟨output, houtput, hsnapshot⟩ := bind_eq_ok.mp hsnapshot
    cases hsnapshot
    exact ⟨attempt, terminal, okOr_eq_ok.mp hattempt, okOr_eq_ok.mp hterminal,
      okOr_eq_ok.mp houtput⟩

theorem getRun_of_succeeded {store : Store.State} {runId : LogicalId}
    (hget : Store.get store tenant runId = some run) (hid : run.id = runId)
    (hread : readRun run = .ok (some snapshot)) (h : run.status = .succeeded) :
    getRun store runId.asStr =
      .ok (some ⟨runId.asStr, "succeeded", some "completed", some snapshot.output⟩) := by
  have hvalid : Agent.isId runId.asStr = true := runId.valid
  have hempty : runId.asStr ≠ "" := by
    intro hempty
    rw [hempty] at hvalid
    exact absurd hvalid (by decide)
  have hsize : byteLen runId.asStr ≤ maxRunIdBytes := by
    unfold Agent.isId at hvalid
    have hle := of_decide_eq_true (Bool.and_eq_true_iff.mp hvalid).1
    exact hle.trans (by decide)
  obtain ⟨attempt, terminal, hattempt, hterminal, houtput⟩ := readRun_eq_some hread
  have hreason : run.terminalReason = some .completed := by
    rw [h] at hterminal
    cases hreason : run.terminalReason with
    | none =>
      rw [hreason] at hterminal
      cases hterminal
    | some reason =>
      rw [hreason] at hterminal
      cases reason with
      | completed => rfl
      | invocationFailed | cancelled => cases hterminal
  unfold getRun
  rw [if_neg hempty, if_neg (Nat.not_lt.mpr hsize), new_asStr]
  simp only [Except.mapError, ok_bind, hget, RunSummary.ofRun, hid, h, hreason, hattempt,
    Option.bind_some, houtput]
  rfl

/-- The projection of a record reads its envelope only. -/
def projectEnvelope (event : TelemetryEnvelopeV1) : TelemetryAttributes :=
  projectAttributes ⟨0, event⟩

theorem projectEnvelope_envelope (result : EvaluationResultV1) :
    projectEnvelope (envelope result) = attributesOf (outcomeOf result) := by
  unfold projectEnvelope projectAttributes envelope attributes attributesOf outcomeOf
  simp only [TelemetryAttributes.mk.injEq]
  refine ⟨?_, ?_, ?_, ?_⟩
  · rw [BTreeMap.getElem?_insert_of_ne (by decide), BTreeMap.getElem?_insert_of_ne (by decide),
      BTreeMap.getElem?_insert_of_ne (by decide), Std.ExtTreeMap.getElem?_insert_self]
  · rw [BTreeMap.getElem?_insert_of_ne (by decide), BTreeMap.getElem?_insert_of_ne (by decide),
      Std.ExtTreeMap.getElem?_insert_self]
  · rw [BTreeMap.getElem?_insert_of_ne (by decide), Std.ExtTreeMap.getElem?_insert_self]
  · rw [Std.ExtTreeMap.getElem?_insert_self]

theorem take_reverse_lastOf {α : Type} {m n : ℕ} (h : m ≤ n) (l : List α) :
    (LocalTelemetry.lastOf n l).reverse.take m = l.reverse.take m := by
  unfold LocalTelemetry.lastOf
  rw [← List.take_reverse, List.take_take, min_eq_left h]

theorem validateQuery_limit {limit bound : ℕ} (hpos : 0 < limit) (h : limit ≤ bound) :
    Observability.validateQuery ⟨none, none, none, none, none, limit⟩ bound = .ok () := by
  unfold Observability.validateQuery
  rw [if_neg (by dsimp only; omega), if_neg (Nat.not_lt.mpr h)]
  rfl

theorem records_of_emits {results : List EvaluationResultV1} {state : LocalTelemetry.State}
    (h : Emits results state) : (LocalTelemetry.queueOf state telemetryTenant).map projectAttributes =
      LocalTelemetry.lastOf telemetryCapacity ((results.map outcomeOf).map attributesOf) := by
  have hlast : ((LocalTelemetry.queueOf state telemetryTenant).map
      Observability.TelemetryRecordV1.envelope) =
      LocalTelemetry.lastOf telemetryCapacity (results.map envelope) := by
    rw [h.retained.retained, List.filter_eq_self.mpr]
    · rfl
    · intro event hevent
      obtain ⟨result, -, rfl⟩ := List.mem_map.mp hevent
      exact beq_self_eq_true telemetryTenant
  have hmap := congrArg (List.map projectEnvelope) hlast
  rw [List.map_map] at hmap
  refine hmap.trans ?_
  unfold LocalTelemetry.lastOf
  rw [List.map_drop, List.length_map, List.length_map, List.length_map, List.map_map, List.map_map]
  exact congrArg _ (List.map_congr_left fun result _ => projectEnvelope_envelope result)

/-- A query answers the last outcomes that were returned, newest first. -/
theorem queryTelemetry_of_emits {results : List EvaluationResultV1}
    {state : LocalTelemetry.State} (h : Emits results state) {limit : ℕ} (hpos : 0 < limit)
    (hlimit : limit ≤ maxTelemetryQueryLimit) : queryTelemetry state limit =
      .ok (((results.map outcomeOf).reverse.map attributesOf).take limit) := by
  have hglobal : limit ≤ Observability.maxQueryLimit := hlimit.trans (by decide)
  have hnew : Observability.TelemetryQueryV1.new limit = .ok ⟨none, none, none, none, none, limit⟩ := by
    unfold Observability.TelemetryQueryV1.new
    simp only [validateQuery_limit hpos hglobal, ok_bind]
  have hservice : telemetry.query state telemetryTenant ⟨none, none, none, none, none, limit⟩ =
      .ok ((LocalTelemetry.queueOf state telemetryTenant).reverse.take limit) := by
    have hall : ((LocalTelemetry.queueOf state telemetryTenant).reverse.filter fun record =>
        Observability.recordMatches record ⟨none, none, none, none, none, limit⟩) =
        (LocalTelemetry.queueOf state telemetryTenant).reverse :=
      List.filter_eq_self.mpr fun _ _ => rfl
    rw [telemetry.query_eq, validateQuery_limit hpos (show limit ≤ telemetry.maxQueryLimit from hlimit),
      h.retained.query_eq, validateQuery_limit hpos hglobal, hall]
    rfl
  unfold queryTelemetry
  rw [if_neg (by omega), if_neg (Nat.not_lt.mpr hlimit), hnew]
  simp only [Except.mapError, ok_bind, hservice]
  rw [List.map_take, List.map_reverse, records_of_emits h,
    take_reverse_lastOf (show limit ≤ telemetryCapacity from hlimit), List.map_reverse]

end Reports

section Agreement

variable {γ : Type} [DecidableEq γ] {p : Platform} {invocations : γ → Invocation} {s : System γ}

theorem Inv.unique (h : Inv p invocations s) {result other : EvaluationResultV1}
    (hresult : Evaluated p s.workflow.shared.store result)
    (hother : Evaluated p s.workflow.shared.store other) : result = other :=
  hresult.unique h.workflow.indexed hother

/-- A result that was evaluated never meets another one in the store. -/
theorem Inv.no_conflict (h : Inv p invocations s) {result : EvaluationResultV1}
    (heval : Evaluated p s.workflow.shared.store result) :
    (InMemoryEvaluationStore.new.createOrMatch p.sha256 s.results result).1 ≠ .ok .conflict := by
  obtain ⟨⟨error, herror⟩, -⟩ | ⟨-, -, -, -, hcreated⟩ | ⟨existing, hfound, hmatch⟩ :=
    InMemoryEvaluationStore.createOrMatch_cases .new p.sha256 s.results result
  · rw [herror]
    rintro ⟨⟩
  · rw [hcreated]
    rintro ⟨⟩
  · rw [hmatch, if_pos (by rw [h.unique heval (h.results _ _ hfound)])]
    rintro ⟨⟩

/-- What is behind a result: the run that the first start has created. -/
theorem Inv.report (h : Inv p invocations s) {result : EvaluationResultV1}
    (heval : Evaluated p s.workflow.shared.store result) :
    ∃ runId run t prepared snapshot, result.logicalKey.workflowRunId = runId.asStr ∧
      Creates p (starts invocations) s.workflow.log runId t (startCall (invocations t)) prepared ∧
      Store.get s.workflow.shared.store tenant runId = some run ∧
      Shows run (startCall (invocations t)) prepared.run.maxEvidenceBytes snapshot ∧
      Names p (startCall (invocations t)) prepared snapshot ∧
      result.verdict = demoVerdict snapshot ∧
      (evidenceVerdict snapshot = .ok () →
        snapshotDigest p.sha256 snapshot = .ok result.evidenceDigest) ∧
      (∀ error, evidenceVerdict snapshot = .error error → ∃ criterionDigest,
        definitionDigest p.sha256 evaluationDefinition = .ok criterionDigest ∧
        result.evidenceDigest = invalidEvidenceDigest p.sha256 tenant.asStr runId.asStr
          criterionDigest error) ∧
      getRun s.workflow.shared.store runId.asStr =
        .ok (some ⟨runId.asStr, "succeeded", some "completed", some snapshot.output⟩) := by
  obtain ⟨schedule, hschedule⟩ := h.reached
  have hinv := h.workflow
  obtain ⟨runId, hrunId⟩ := heval
  obtain ⟨run, snapshot, key, hget, hterminal, hread, hkey, hresult⟩ := evaluateRun_eq_ok hrunId
  obtain ⟨hfound, htenant⟩ := Option.filter_eq_some_iff.mp hget
  have htenant : run.context.tenantId = tenant := of_decide_eq_true htenant
  have hid : run.id = runId := hinv.indexed.keyed runId run hfound
  have hformed : run.WellFormed := hinv.wellFormed runId run hfound
  rw [hschedule] at hfound
  obtain ⟨t, call, prepared, hcreates⟩ := creates_reached schedule hfound
  obtain ⟨hfaithful, -⟩ := recorded_of_creates noCollision_starts hfound hcreates
  have hcall : call = startCall (invocations t) := (Workflow.Call.start.inj hcreates.start).symm
  subst hcall
  have hsucceeded : run.status = .succeeded := by
    have hrefused := readRun_of_failed hformed hfaithful
    rw [hread] at hrefused
    cases hstatus : run.status with
    | pending | running =>
      rw [hstatus] at hterminal
      cases hterminal
    | succeeded => rfl
    | failed => cases hrefused (.inl hstatus)
    | cancelled => cases hrefused (.inr hstatus)
  obtain ⟨shown, hshown, hshows⟩ := readRun_of_succeeded hformed hfaithful hsucceeded
  rw [hread] at hshown
  obtain rfl := Option.some.inj (Except.ok.inj hshown)
  have hnames := names_of_creates noCollision_starts hfound hcreates hsucceeded hshows
  rw [← hschedule] at hcreates
  have hcheck := checkEvidence_of_shows hformed hshows
  rw [htenant, hid] at hcheck
  rw [hcheck, ← hid] at hresult
  obtain ⟨hlogical, hverdict, hdigest, hrefused⟩ := result_of_shows hshows hresult
  obtain ⟨hkeyId, hcriterion⟩ := requestKey_eq_ok hkey
  refine ⟨runId, run, t, prepared, snapshot, ?_, hcreates, hget, hshows, hnames, hverdict, hdigest,
    fun error herror => ⟨key.criterionDigest, hcriterion, ?_⟩,
    getRun_of_succeeded hget hid hread hsucceeded⟩
  · rw [hlogical]
    exact hkeyId
  · rw [← hid]
    exact hrefused error herror

/-- **Agreement.**  In every interleaving of calls all that succeed return one outcome.  It is of the
run that one of them has created and that has succeeded, its verdict and its digest are those of the
evidence that the run shows, or of its refusal, and the store has one result, which is never in
conflict.  The telemetry answers one event for each call that succeeded, the newest first, as many as
it is asked for. -/
theorem run_demo_agrees (p : Platform) (invocations : γ → Invocation) (schedule : List γ) :
    let s := (composition p invocations).final (.new γ) schedule
    (∀ t result, s.pc t = .storing result →
      (InMemoryEvaluationStore.new.createOrMatch p.sha256 s.results result).1 ≠ .ok .conflict) ∧
    (∀ outcome ∈ s.log, (∀ other ∈ s.log, other = outcome) ∧
      (∃ result, outcome = outcomeOf result ∧ ∀ (key : LogicalEvaluationKey) other,
        s.results[key]? = some other ↔ key = result.logicalKey ∧ other = result) ∧
      ∃ runId run t prepared snapshot, outcome.runId = runId.asStr ∧
        Creates p (starts invocations) s.workflow.log runId t (startCall (invocations t)) prepared ∧
        Store.get s.workflow.shared.store tenant runId = some run ∧
        Shows run (startCall (invocations t)) prepared.run.maxEvidenceBytes snapshot ∧
        Names p (startCall (invocations t)) prepared snapshot ∧
        outcome.verdict = verdictName (demoVerdict snapshot) ∧
        (evidenceVerdict snapshot = .ok () →
          snapshotDigest p.sha256 snapshot = .ok outcome.evidenceDigest) ∧
        (∀ error, evidenceVerdict snapshot = .error error → ∃ criterionDigest,
          definitionDigest p.sha256 evaluationDefinition = .ok criterionDigest ∧
          outcome.evidenceDigest = invalidEvidenceDigest p.sha256 tenant.asStr outcome.runId
            criterionDigest error) ∧
        getRun s.workflow.shared.store outcome.runId =
          .ok (some ⟨outcome.runId, "succeeded", some "completed", some snapshot.output⟩)) ∧
    ∀ limit, 0 < limit → limit ≤ maxTelemetryQueryLimit →
      queryTelemetry s.telemetry limit = .ok ((s.log.reverse.map attributesOf).take limit) := by
  intro s
  have hinv : Inv p invocations s := inv_final_composition p invocations schedule
  obtain ⟨reported, hlog, hstored, hemits⟩ := hinv.reported
  have heval : ∀ result ∈ reported, Evaluated p s.workflow.shared.store result :=
    fun result hresult => hinv.results _ _ (hstored result hresult)
  refine ⟨fun t result hpc => hinv.no_conflict (hinv.held t result (by rw [hpc]; rfl)), ?_, ?_⟩
  · rw [hlog]
    intro outcome houtcome
    obtain ⟨result, hresult, rfl⟩ := List.mem_map.mp houtcome
    refine ⟨fun other hother => ?_, ⟨result, rfl, fun key other => ⟨fun hother => ?_, ?_⟩⟩, ?_⟩
    · obtain ⟨result', hresult', rfl⟩ := List.mem_map.mp hother
      rw [hinv.unique (heval result' hresult') (heval result hresult)]
    · have hsame := hinv.unique (hinv.results _ _ hother) (heval result hresult)
      refine ⟨?_, hsame⟩
      rw [← hsame]
      exact ((hinv.stored.stored _ _ hother).1).symm
    · rintro ⟨rfl, rfl⟩
      exact hstored _ hresult
    · obtain ⟨runId, run, t, prepared, snapshot, hrunId, hcreates, hget, hshows, hnames, hverdict,
        hdigest, hrefused, hview⟩ := hinv.report (heval result hresult)
      have hid : (outcomeOf result).runId = runId.asStr := hrunId
      refine ⟨runId, run, t, prepared, snapshot, hrunId, hcreates, hget, hshows, hnames, ?_, hdigest,
        ?_, ?_⟩
      · exact congrArg verdictName hverdict
      · rw [hid]
        exact hrefused
      · rw [hid]
        exact hview
  · intro limit hpos hlimit
    rw [hlog]
    exact queryTelemetry_of_emits hemits hpos hlimit

end Agreement

end RustFactory.Demo
