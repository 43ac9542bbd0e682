import RustFactory.Demo.Pipeline

/-!
# The demo: replays

A call that begins after another one has succeeded finds the run and the result stored and returns the
outcome again; it creates no run and does not reach the agent.
-/

namespace RustFactory.Demo

open Lib Workflow Evaluation
open Observability (LocalTelemetry)

/-! ## The event is accepted -/

theorem foldlM_eventSize (bound : ℕ) (entries : List (String × String)) (size : ℕ)
    (hentries : ∀ entry ∈ entries, byteLen entry.1 + byteLen entry.2 ≤ bound)
    (hword : size + entries.length * bound < 2 ^ 64) :
    ∃ total, total ≤ size + entries.length * bound ∧
      (entries.foldlM (fun size entry => do
        let size ← Observability.checkedAddSize size (byteLen entry.1)
        Observability.checkedAddSize size (byteLen entry.2)) size) = .ok total := by
  induction entries generalizing size with
  | nil => exact ⟨size, Nat.le_add_right _ _, rfl⟩
  | cons entry entries ih =>
    have hentry := hentries entry (List.mem_cons_self ..)
    have hmul : (entry :: entries).length * bound = bound + entries.length * bound := by
      rw [List.length_cons, Nat.succ_mul, Nat.add_comm]
    rw [hmul] at hword ⊢
    obtain ⟨total, hle, htotal⟩ := ih (size + byteLen entry.1 + byteLen entry.2)
      (fun other hother => hentries other (List.mem_cons_of_mem _ hother)) (by omega)
    refine ⟨total, by omega, ?_⟩
    rw [List.foldlM_cons]
    unfold Observability.checkedAddSize at htotal ⊢
    rw [if_pos (by omega), ok_bind, if_pos (by omega), ok_bind]
    exact htotal

theorem mem_attributes {result : EvaluationResultV1} {entry : String × String}
    (h : entry ∈ (attributes result).toList) :
    entry = ("verdict", verdictName result.verdict) ∨ entry = ("result_digest", result.contentHash) ∨
      entry = ("evidence_digest", result.evidenceDigest) ∨
      entry = ("workflow_run_id", result.logicalKey.workflowRunId) := by
  have hentry : (attributes result)[entry.1]? = some entry.2 := BTreeMap.mem_toList.mp h
  unfold attributes at hentry
  by_cases hverdict : "verdict" = entry.1
  · rw [← hverdict, Std.ExtTreeMap.getElem?_insert_self] at hentry
    exact .inl (Prod.ext hverdict.symm (Option.some.inj hentry).symm)
  rw [BTreeMap.getElem?_insert_of_ne hverdict] at hentry
  by_cases hdigest : "result_digest" = entry.1
  · rw [← hdigest, Std.ExtTreeMap.getElem?_insert_self] at hentry
    exact .inr (.inl (Prod.ext hdigest.symm (Option.some.inj hentry).symm))
  rw [BTreeMap.getElem?_insert_of_ne hdigest] at hentry
  by_cases hevidence : "evidence_digest" = entry.1
  · rw [← hevidence, Std.ExtTreeMap.getElem?_insert_self] at hentry
    exact .inr (.inr (.inl (Prod.ext hevidence.symm (Option.some.inj hentry).symm)))
  rw [BTreeMap.getElem?_insert_of_ne hevidence] at hentry
  by_cases hrun : "workflow_run_id" = entry.1
  · rw [← hrun, Std.ExtTreeMap.getElem?_insert_self] at hentry
    exact .inr (.inr (.inr (Prod.ext hrun.symm (Option.some.inj hentry).symm)))
  rw [BTreeMap.getElem?_insert_of_ne hrun] at hentry
  cases hentry

theorem byteLen_of_validateResult {sha256 : Sha256} {result : EvaluationResultV1}
    (h : validateResult sha256 result = .ok ()) :
    byteLen result.logicalKey.workflowRunId ≤ 128 ∧ byteLen result.evidenceDigest = 64 ∧
      byteLen result.contentHash = 64 := by
  unfold validateResult at h
  obtain ⟨⟨⟩, hfields, h⟩ := bind_eq_ok.mp h
  obtain ⟨digest, -, h⟩ := bind_eq_ok.mp h
  split_ifs at h with hhash
  unfold validateResultFields at hfields
  obtain ⟨⟨⟩, hkey, hfields⟩ := bind_eq_ok.mp hfields
  split_ifs at hfields with hevidence
  unfold validateLogicalKey at hkey
  split_ifs at hkey with hids
  have hrunId := (Bool.and_eq_true_iff.mp hids).2
  have hcontent := (Bool.and_eq_true_iff.mp hhash).1
  rw [Bool.not_eq_true', Bool.not_eq_false] at hevidence
  refine ⟨?_, ?_, ?_⟩
  · unfold isLogicalId at hrunId
    exact of_decide_eq_true (Bool.and_eq_true_iff.mp hrunId).1
  · unfold isSha256 at hevidence
    exact of_decide_eq_true (Bool.and_eq_true_iff.mp hevidence).1
  · unfold isSha256 at hcontent
    exact of_decide_eq_true (Bool.and_eq_true_iff.mp hcontent).1

theorem size_attributes_le (result : EvaluationResultV1) : (attributes result).size ≤ 4 := by
  unfold attributes
  refine Std.ExtTreeMap.size_insert_le.trans (Nat.succ_le_succ ?_)
  refine Std.ExtTreeMap.size_insert_le.trans (Nat.succ_le_succ ?_)
  refine Std.ExtTreeMap.size_insert_le.trans (Nat.succ_le_succ ?_)
  refine Std.ExtTreeMap.size_insert_le.trans (Nat.succ_le_succ ?_)
  exact Nat.le_of_eq Std.ExtTreeMap.size_empty

section Valid

variable {sha256 : Sha256} {result : EvaluationResultV1}
  (h : validateResult sha256 result = .ok ())

include h

theorem valid_of_mem_attributes {entry : String × String}
    (hentry : entry ∈ (attributes result).toList) :
    Observability.validateAttributeKey entry.1 = .ok () ∧ byteLen entry.2 ≤ 128 ∧
      byteLen entry.1 + byteLen entry.2 ≤ 143 := by
  obtain ⟨hrunId, hevidence, hcontent⟩ := byteLen_of_validateResult h
  have hverdict : byteLen (verdictName result.verdict) ≤ 5 := by
    cases result.verdict with
    | pass | fail | error => decide
  have hlengths : byteLen "verdict" = 7 ∧ byteLen "result_digest" = 13 ∧
      byteLen "evidence_digest" = 15 ∧ byteLen "workflow_run_id" = 15 := by decide
  rcases mem_attributes hentry with rfl | rfl | rfl | rfl
  · exact ⟨rfl, by dsimp only; omega, by dsimp only; omega⟩
  · exact ⟨rfl, by dsimp only; omega, by dsimp only; omega⟩
  · exact ⟨rfl, by dsimp only; omega, by dsimp only; omega⟩
  · exact ⟨rfl, by dsimp only; omega, by dsimp only; omega⟩

theorem eventSize_envelope : ∃ total, total ≤ Observability.maxEventBytes ∧
    Observability.eventSize (envelope result).event = .ok total := by
  have hlength : (attributes result).toList.length ≤ 4 := by
    rw [Std.ExtTreeMap.length_toList]
    exact size_attributes_le result
  obtain ⟨total, hle, htotal⟩ := foldlM_eventSize 143 (attributes result).toList 71
    (fun entry hentry => (valid_of_mem_attributes h hentry).2.2) (by omega)
  refine ⟨total, hle.trans ?_, htotal⟩
  unfold Observability.maxEventBytes
  omega

theorem validateEvent_envelope : Observability.validateEvent (envelope result).event = .ok () := by
  have hcount := size_attributes_le result
  have hattributes : ((attributes result).toList.forM fun entry =>
      Observability.validateAttribute entry.1 entry.2) = .ok () := by
    refine forM_eq_ok.mpr fun entry hentry => ?_
    obtain ⟨hkey, hvalue, -⟩ := valid_of_mem_attributes h hentry
    unfold Observability.validateAttribute
    rw [hkey, ok_bind, if_neg (by unfold Observability.maxAttributeValueBytes; omega)]
  obtain ⟨total, hle, htotal⟩ := eventSize_envelope h
  have hbody : byteLen (envelope result).event.body ≤ Observability.maxBodyBytes := by
    change byteLen "workflow evaluation completed" ≤ Observability.maxBodyBytes
    decide
  have hname : Observability.validateEventName (envelope result).event.name.asStr = .ok () := rfl
  have htarget : Observability.validateEventTarget (envelope result).event.target.asStr = .ok () := rfl
  unfold Observability.validateEvent
  rw [hname, ok_bind, htarget, ok_bind, if_neg]
  · change ((attributes result).toList.forM _ >>= _) = _
    rw [hattributes, ok_bind, htotal, ok_bind, if_pos hle]
  · rintro (hbad | hbad)
    · exact absurd hbody (Nat.not_le.mpr hbad)
    · change 32 < (attributes result).size at hbad
      omega

end Valid

/-! ## A later call -/

section Replay

variable {γ : Type} [DecidableEq γ] {p : Platform} {invocations : γ → Invocation} {s : System γ}
  {runId : LogicalId} {result : EvaluationResultV1} {t u : γ}

/-- The run and its result are stored. -/
structure Settled (p : Platform) (runId : LogicalId) (result : EvaluationResultV1) (s : System γ) :
    Prop where
  evaluated : evaluateRun p s.workflow.shared.store runId = .ok result
  stored : s.results[result.logicalKey]? = some result

/-- Where the call `u` is, and how many steps it has left. -/
inductive Due (runId : LogicalId) (result : EvaluationResultV1) (s : System γ) (u : γ) : ℕ → Prop where
  | start (pc : s.pc u = .starting) (ready : s.workflow.pc u = .ready) : Due runId result s u 4
  | evaluate (pc : s.pc u = .evaluating runId) : Due runId result s u 3
  | store (pc : s.pc u = .storing result) : Due runId result s u 2
  | emit (pc : s.pc u = .emitting result) : Due runId result s u 1
  | done (pc : s.pc u = .returned (.ok (outcomeOf result))) : Due runId result s u 0

/-- The call `u` has neither created a run nor called the agent nor ended a run. -/
def Silent (s : System γ) (u : γ) : Prop := ∀ entry ∈ s.workflow.log, entry.1 ≠ u

theorem step_workflow (p : Platform) (invocations : γ → Invocation) (s : System γ) (t : γ) :
    ((composition p invocations).step s t).2.workflow = s.workflow ∨
      ((composition p invocations).step s t).2.workflow =
        ((runner p (starts invocations)).step s.workflow t).2 := by
  change (advance p invocations s.toStores t (s.pc t)).2.workflow = _ ∨
    (advance p invocations s.toStores t (s.pc t)).2.workflow = _
  cases s.pc t with
  | starting => exact .inr rfl
  | evaluating | storing | emitting | returned => exact .inl rfl

theorem step_results (s : System γ) (t : γ) :
    InMemoryEvaluationStore.Keeps s.results ((composition p invocations).step s t).2.results := by
  change InMemoryEvaluationStore.Keeps s.results
    (advance p invocations s.toStores t (s.pc t)).2.results
  cases s.pc t with
  | storing result => exact InMemoryEvaluationStore.keeps_createOrMatch result
  | starting | evaluating | emitting | returned => exact .refl _

theorem step_pc_self (p : Platform) (invocations : γ → Invocation) (s : System γ) (t : γ) :
    ((composition p invocations).step s t).2.pc t =
      (advance p invocations s.toStores t (s.pc t)).1 := Function.update_self ..

theorem step_pc_of_ne (h : u ≠ t) : ((composition p invocations).step s t).2.pc u = s.pc u :=
  Function.update_of_ne h ..

theorem length_log_step (p : Platform) (invocations : γ → Invocation) (s : System γ) (t : γ) :
    ((composition p invocations).step s t).2.log.length ≤ s.log.length + 1 := by
  change (s.log ++ success _).length ≤ _
  rw [List.length_append]
  refine Nat.add_le_add_left ?_ _
  unfold success
  split
  · exact Nat.le_refl 1
  · exact Nat.zero_le 1

theorem Settled.step (h : Settled p runId result s) (hinv : Inv p invocations s) (t : γ) :
    Settled p runId result ((composition p invocations).step s t).2 := by
  refine ⟨?_, step_results s t _ _ h.stored⟩
  rcases step_workflow p invocations s t with hworkflow | hworkflow
  · rw [hworkflow]
    exact h.evaluated
  · rw [hworkflow]
    exact evaluateRun_step hinv.workflow t h.evaluated

theorem Due.step_of_ne {n : ℕ} (h : Due runId result s u n) (hne : u ≠ t) :
    Due runId result ((composition p invocations).step s t).2 u n := by
  have hpc : ((composition p invocations).step s t).2.pc u = s.pc u := step_pc_of_ne hne
  cases h with
  | start pc ready =>
    refine .start (hpc.trans pc) ?_
    rcases step_workflow p invocations s t with hworkflow | hworkflow
    · rw [hworkflow]
      exact ready
    · rw [hworkflow, Workflow.step_pc_of_ne hne]
      exact ready
  | evaluate pc => exact .evaluate (hpc.trans pc)
  | store pc => exact .store (hpc.trans pc)
  | emit pc => exact .emit (hpc.trans pc)
  | done pc => exact .done (hpc.trans pc)

theorem Silent.step_of_ne (h : Silent s u) (hne : u ≠ t) :
    Silent ((composition p invocations).step s t).2 u := by
  intro entry hentry
  rcases step_workflow p invocations s t with hworkflow | hworkflow
  · rw [hworkflow] at hentry
    exact h entry hentry
  · rw [hworkflow] at hentry
    rcases List.mem_append.mp hentry with hold | hnew
    · exact h entry hold
    · obtain ⟨event, -, rfl⟩ := List.mem_map.mp hnew
      exact hne.symm

/-- The first step finds the run, with an identity that all starts share. -/
theorem start_of_settled (h : Settled p runId result s) (hinv : Inv p invocations s)
    (hagent : (invocations u).agentValid = .ok true) (hready : s.workflow.pc u = .ready) :
    ∃ run, run.id = runId ∧ ((runner p (starts invocations)).step s.workflow u).2 =
      s.workflow.answered u (.ok (.ofRun run)) := by
  obtain ⟨run, -, -, hget, -⟩ := evaluateRun_eq_ok h.evaluated
  have hrun := (Option.filter_eq_some_iff.mp hget).1
  obtain ⟨t, call, prepared, hcall, hprepare, -, hidentity⟩ :=
    hinv.workflow.indexed.origin runId run hrun
  cases hcall
  have hprepare' : prepare p (startCall (invocations u)) = .ok prepared := by
    rw [← hprepare]
    exact prepare_congr (hagent.trans (agentValid_of_prepare hprepare).symm)
  have hfound := hinv.workflow.indexed.found runId run hrun
  rw [← hidentity] at hfound
  exact ⟨run, hinv.workflow.indexed.keyed runId run hrun,
    step_of_existing rfl hprepare' hready hfound hrun⟩

/-- The events of a result are accepted while there are sequence numbers. -/
theorem emit_of_settled (h : Settled p runId result s) (hinv : Inv p invocations s)
    (hword : s.log.length + 2 < 2 ^ 64) :
    (emitTelemetry s.telemetry result).1 = .ok () := by
  obtain ⟨reported, hlog, -, hemits⟩ := hinv.reported
  have hvalid := validateEvent_envelope (validateResult_evaluateRun h.evaluated)
  have hcapacity : s.telemetry.totalEvents ≤ telemetryCapacity := by
    rw [hemits.total, ← List.length_map (f := Observability.TelemetryRecordV1.envelope),
      hemits.retained.retained, LocalTelemetry.length_lastOf]
    exact Nat.min_le_left _ _
  have hlength : reported.length = s.log.length := by
    rw [hlog, List.length_map]
  have hnext := hemits.next
  rw [emitTelemetry_eq]
  unfold LocalTelemetry.emit
  rw [validateEnvelope_envelope, hvalid]
  dsimp only
  rw [if_neg, if_neg (by omega)]
  · intro hfull
    have htotal := beq_iff_eq.mp (Bool.and_eq_true_iff.mp hfull).2
    rw [htotal] at hcapacity
    exact absurd hcapacity (by decide)

theorem Due.step_self {n : ℕ} (h : Due runId result s u n) (hsettled : Settled p runId result s)
    (hinv : Inv p invocations s) (hagent : (invocations u).agentValid = .ok true)
    (hword : s.log.length + 2 < 2 ^ 64) :
    Due runId result ((composition p invocations).step s u).2 u (n - 1) := by
  have hself := step_pc_self p invocations s u
  cases h with
  | start pc ready =>
    obtain ⟨run, hid, hstep⟩ := start_of_settled hsettled hinv hagent ready
    refine .evaluate ?_
    rw [hself, pc]
    change started (((runner p (starts invocations)).step s.workflow u).2.pc u) = _
    rw [hstep, show (s.workflow.answered u (.ok (.ofRun run))).pc u = .returned (.ok (.ofRun run)) from
      Function.update_self .., ← hid]
    rfl
  | evaluate pc =>
    refine .store ?_
    rw [hself, pc]
    change evaluated (evaluateRun p s.workflow.shared.store runId) = _
    rw [hsettled.evaluated]
    rfl
  | store pc =>
    refine .emit ?_
    rw [hself, pc]
    change Demo.stored (InMemoryEvaluationStore.new.createOrMatch p.sha256 s.results result).1 = _
    rw [InMemoryEvaluationStore.createOrMatch_of_stored hsettled.stored,
      validateResult_evaluateRun hsettled.evaluated]
    simp only [Except.map, if_true]
    rfl
  | emit pc =>
    refine .done ?_
    rw [hself, pc]
    change emitted result (emitTelemetry s.telemetry result).1 = _
    rw [emit_of_settled hsettled hinv hword]
    rfl
  | done pc =>
    refine .done ?_
    rw [hself, pc]
    rfl

theorem Silent.step_self {n : ℕ} (h : Silent s u) (hdue : Due runId result s u n)
    (hsettled : Settled p runId result s) (hinv : Inv p invocations s)
    (hagent : (invocations u).agentValid = .ok true) :
    Silent ((composition p invocations).step s u).2 u := by
  change ∀ entry ∈ (advance p invocations s.toStores u (s.pc u)).2.workflow.log, entry.1 ≠ u
  cases hdue with
  | start pc ready =>
    obtain ⟨run, -, hstep⟩ := start_of_settled hsettled hinv hagent ready
    rw [pc]
    change ∀ entry ∈ ((runner p (starts invocations)).step s.workflow u).2.log, entry.1 ≠ u
    rw [hstep]
    exact h
  | evaluate pc | store pc | emit pc | done pc =>
    rw [pc]
    exact h

/-- A call that finds the run and its result stored returns the outcome after four steps. -/
theorem due_final {n : ℕ} (later : List γ) (hagent : (invocations u).agentValid = .ok true)
    (hinv : Inv p invocations s) (hsettled : Settled p runId result s)
    (hdue : Due runId result s u n) (hsilent : Silent s u)
    (hword : s.log.length + later.length + 2 < 2 ^ 64) :
    Due runId result ((composition p invocations).final s later) u (n - later.count u) ∧
      Silent ((composition p invocations).final s later) u := by
  induction later generalizing s n with
  | nil => exact ⟨hdue, hsilent⟩
  | cons t later ih =>
    have hlog := length_log_step p invocations s t
    rw [List.length_cons] at hword
    have hrest := ih (hinv.step t) (hsettled.step hinv t) (n := if t = u then n - 1 else n)
    by_cases htu : t = u
    · subst htu
      rw [if_pos rfl] at hrest
      rw [List.count_cons_self, Nat.add_comm, Nat.sub_add_eq]
      exact hrest (hdue.step_self hsettled hinv hagent (by omega))
        (hsilent.step_self hdue hsettled hinv hagent) (by omega)
    · rw [if_neg htu] at hrest
      rw [List.count_cons_of_ne htu]
      exact hrest (hdue.step_of_ne (Ne.symm htu)) (hsilent.step_of_ne (Ne.symm htu)) (by omega)

theorem fresh_final (p : Platform) (invocations : γ → Invocation) (schedule : List γ)
    (hfresh : u ∉ schedule) :
    let s := (composition p invocations).final (.new γ) schedule
    s.pc u = .starting ∧ s.workflow.pc u = .ready ∧ Silent s u ∧ s.log.length ≤ schedule.length := by
  induction schedule using List.reverseRecOn with
  | nil => exact ⟨rfl, rfl, List.forall_mem_nil _, Nat.le_refl 0⟩
  | append_singleton schedule t ih =>
    rw [List.mem_append, List.mem_singleton, not_or] at hfresh
    obtain ⟨hpc, hready, hsilent, hlog⟩ := ih hfresh.1
    rw [Machine.final_concat, List.length_append]
    refine ⟨(step_pc_of_ne hfresh.2).trans hpc, ?_, hsilent.step_of_ne hfresh.2,
      (length_log_step _ _ _ t).trans (Nat.succ_le_succ hlog)⟩
    rcases step_workflow p invocations
      ((composition p invocations).final (.new γ) schedule) t with hworkflow | hworkflow
    · rw [hworkflow]
      exact hready
    · rw [hworkflow, Workflow.step_pc_of_ne hfresh.2]
      exact hready

/-- **Replay.**  Once a call has succeeded, a call that begins later and takes its four steps returns the
same outcome, whatever the others do; it creates no run, and the agent is not called for it. -/
theorem run_demo_replays (p : Platform) (invocations : γ → Invocation) (schedule later : List γ)
    (outcome : RunDemoOutcome) (u : γ)
    (houtcome : outcome ∈ ((composition p invocations).final (.new γ) schedule).log)
    (hfresh : u ∉ schedule) (hagent : (invocations u).agentValid = .ok true)
    (hturns : 4 ≤ later.count u) (hword : schedule.length + later.length + 2 < 2 ^ 64) :
    ((composition p invocations).final (.new γ) (schedule ++ later)).pc u =
        .returned (.ok outcome) ∧
      ∀ entry ∈ ((composition p invocations).final (.new γ) (schedule ++ later)).workflow.log,
        entry.1 ≠ u := by
  have hinv := inv_final_composition p invocations schedule
  obtain ⟨hpc, hready, hsilent, hlog⟩ := fresh_final p invocations schedule hfresh
  obtain ⟨reported, hreported, hstored, -⟩ := hinv.reported
  rw [hreported] at houtcome
  obtain ⟨result, hresult, rfl⟩ := List.mem_map.mp houtcome
  obtain ⟨runId, hevaluated⟩ := hinv.results _ _ (hstored result hresult)
  obtain ⟨hdue, hsilent⟩ := due_final later hagent hinv ⟨hevaluated, hstored result hresult⟩
    (.start hpc hready) hsilent (by omega)
  rw [Nat.sub_eq_zero_of_le hturns, ← Machine.final_append] at hdue
  rw [← Machine.final_append] at hsilent
  refine ⟨?_, hsilent⟩
  cases hdue with
  | done pc => exact pc

end Replay

/-- The SHA-256 digests of the texts that a call of the demo hashes: the input, the identity, the
attempt, the control, the definition, the evidence and the result. -/
def sampleDigests : List (String × Bytes) :=
  [("\x7b\x7d",
      [68, 19, 111, 163, 85, 179, 103, 138, 17, 70, 173, 22, 247, 232, 100, 158, 148, 251, 79,
      194, 31, 231, 126, 131, 16, 192, 96, 246, 28, 170, 255, 138]),
    ("demo-tenant\x00demo-workflow\x00v1\x00demo-run\x0044136fa355b3678a1146ad16f7e8649e94" ++
      "fb4fc21fe77e8310c060f61caaff8a",
      [253, 82, 203, 48, 100, 33, 89, 21, 84, 200, 132, 60, 16, 47, 74, 83, 168, 164, 126, 192,
      249, 207, 179, 50, 144, 174, 105, 61, 156, 102, 64, 45]),
    ("run-fd52cb306421591554c8843c102f4a53:1",
      [90, 137, 233, 137, 174, 226, 74, 20, 246, 86, 252, 118, 235, 90, 51, 164, 28, 179, 105,
      98, 216, 177, 139, 6, 22, 37, 215, 30, 118, 235, 106, 183]),
    ("demo-tenant:run-fd52cb306421591554c8843c102f4a53:attempt-5a89e989aee24a14f656fc76eb5" ++
      "a33a4",
      [25, 23, 166, 89, 4, 49, 11, 71, 21, 197, 222, 194, 185, 106, 71, 126, 231, 115, 212,
      247, 148, 158, 224, 141, 181, 44, 103, 184, 153, 85, 169, 172]),
    ("2:v1\n14:demo-evaluator\n2:v1\n1:2\n12:exact_output\n4:done\n16:event_kind_count\n6:" ++
      "result\n1:1\n",
      [227, 5, 193, 155, 179, 89, 118, 16, 31, 98, 139, 199, 248, 198, 61, 50, 240, 185, 253,
      96, 203, 172, 222, 81, 90, 21, 58, 227, 10, 0, 166, 188]),
    ("2:v1\n11:demo-tenant\n36:run-fd52cb306421591554c8843c102f4a53\n13:demo-workflow\n2:v" ++
      "1\n1:2\n9:succeeded\n9:completed\n40:attempt-5a89e989aee24a14f656fc76eb5a33a4\n10:de" ++
      "mo-agent\n64:0000000000000000000000000000000000000000000000000000000000000000\n4:don" ++
      "e\n1:2\n1:1\n7:started\n0:\n1:2\n6:result\n4:done\n",
      [80, 165, 16, 214, 204, 22, 126, 39, 203, 19, 29, 247, 108, 208, 228, 88, 105, 33, 221,
      158, 7, 170, 52, 24, 185, 52, 11, 246, 108, 185, 32, 129]),
    ("2:v1\n11:demo-tenant\n14:demo-evaluator\n2:v1\n64:e305c19bb35976101f628bc7f8c63d32f0" ++
      "b9fd60cbacde515a153ae30a00a6bc\n36:run-fd52cb306421591554c8843c102f4a53\n1:2\n64:50a" ++
      "510d6cc167e27cb131df76cd0e4586921dd9e07aa3418b9340bf66cb92081\n4:pass\n1:0\n",
      [4, 255, 30, 246, 67, 195, 218, 155, 203, 184, 96, 196, 37, 175, 13, 56, 29, 217, 50, 90,
      26, 59, 180, 95, 28, 5, 17, 206, 102, 4, 143, 156])]

def sampleSha256 : Sha256 where
  digest input :=
    match sampleDigests.find? fun entry => utf8 entry.1 == input with
    | some entry => entry.2
    | none => List.replicate 32 0
  length_digest input := by
    have hall : ∀ entry ∈ sampleDigests, entry.2.length = 32 := by decide
    cases h : sampleDigests.find? fun entry => utf8 entry.1 == input with
    | some entry => exact hall entry (List.mem_of_find?_eq_some h)
    | none => exact List.length_replicate ..

def samplePlatform : Platform := ⟨sampleSha256, fun input _ => .ok input⟩

/-- Two calls whose agent answers "done". -/
def sampleInvocations (_ : Bool) : Invocation :=
  ⟨agentKnown, true, [⟨"result", "done"⟩], some (.ok ⟨"".pushn '0' 64⟩)⟩

/-- The second call begins when the first has returned. -/
theorem run_demo_replays_sample : ∃ outcome : RunDemoOutcome, outcome.verdict = "pass" ∧
    ((composition samplePlatform sampleInvocations).final (.new Bool)
      (List.replicate 11 false ++ List.replicate 4 true)).pc true = .returned (.ok outcome) := by
  have hlog : ((composition samplePlatform sampleInvocations).final (.new Bool)
      (List.replicate 11 false)).log.any fun outcome => outcome.verdict = "pass" := by
    decide +kernel
  obtain ⟨outcome, houtcome, hverdict⟩ := List.any_eq_true.mp hlog
  exact ⟨outcome, of_decide_eq_true hverdict, (run_demo_replays samplePlatform sampleInvocations
    (List.replicate 11 false) (List.replicate 4 true) outcome true houtcome (by decide) agentKnown_eq
    (by decide) (by decide)).1⟩

end RustFactory.Demo
