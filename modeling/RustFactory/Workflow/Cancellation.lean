import RustFactory.Workflow.Starts

/-!
# Workflows: cancellation against completion

An execution and any number of cancellations race for the one terminal transition of a run.  The
guard lets one of them win; all others read the run again and report what the winner wrote.
-/

namespace RustFactory.Workflow

open RustFactory.Lib RustFactory.Agent

/-! ## One move -/

/-- The run that a terminal transition was applied to. -/
def Event.terminalId? : Event → Option LogicalId
  | .applied run => if run.status.isTerminal then some run.id else none
  | _ => none

/-- The events of a run at the stages that the runner determines. -/
structure Run.Shaped (run : Run) : Prop where
  running : run.status = .running → run.events = [⟨1, "started", ""⟩]
  cancelled : run.status = .cancelled → run.events = [⟨1, "started", ""⟩, ⟨2, "cancelled", ""⟩]

theorem Run.Shaped.apply {run : Run} {expected : RunStatus} {change : Transition}
    (h : run.Shaped) (hformed : run.WellFormed) (hbuilt : Built change)
    (hvalid : transitionIsValid run expected change = true) : (Store.apply run change).Shaped := by
  obtain ⟨hstatus, -, -, -, hseq, hchange⟩ := transitionIsValid_iff.mp hvalid
  cases hbuilt with
  | started hto hevents =>
    refine ⟨fun _ => ?_, fun hcancelled => ?_⟩
    · rcases changeAllowed_cases hchange with ⟨rfl, -⟩ | ⟨-, _, _, -, -, -, houtcome, -⟩
      · cases hformed.phase with
        | pending _ _ _ _ hnone =>
          show run.events ++ change.events = _
          rw [hnone, hevents]
          rfl
        | running _ _ hrunning =>
          rw [hstatus] at hrunning
          cases hrunning
        | terminal _ _ _ houtcome =>
          have hterminal := isTerminal_of_outcomeMatches houtcome
          rw [hstatus] at hterminal
          cases hterminal
      · rw [hto] at houtcome
        cases houtcome
    · rw [show (Store.apply run change).status = change.status from rfl, hto] at hcancelled
      cases hcancelled
  | finished hto =>
    refine ⟨fun hrunning => ?_, fun hcancelled => ?_⟩
    · rw [show (Store.apply run change).status = change.status from rfl] at hrunning
      rw [hrunning] at hto
      rcases hto with hto | hto
      · cases hto
      · cases hto
    · rw [show (Store.apply run change).status = change.status from rfl] at hcancelled
      rw [hcancelled] at hto
      rcases hto with hto | hto
      · cases hto
      · cases hto
  | cancelled sequence hto hevents =>
    refine ⟨fun hrunning => ?_, fun _ => ?_⟩
    · rw [show (Store.apply run change).status = change.status from rfl, hto] at hrunning
      cases hrunning
    · rcases changeAllowed_cases hchange with ⟨-, hto', -⟩ | ⟨rfl, -⟩
      · rw [hto] at hto'
        cases hto'
      · have hold := h.running hstatus
        rw [nextSequence_eq hformed.numbered, hold, hevents] at hseq
        simp only [numberedFrom, Bool.and_true, Bool.and_eq_true, beq_iff_eq] at hseq
        show run.events ++ change.events = _
        rw [hold, hevents, hseq.1]
        rfl

section Moves

variable {γ : Type} {p : Platform} {calls : γ → Call} {t : γ} {s s' : Shared} {pc pc' : Pc}
  {events : List Event}

/-- A stored terminal run stays as it is. -/
theorem Move.terminal (h : Move p (calls t) s pc pc' s' events) (hcollision : NoCollision p calls)
    (hindexed : Indexed p calls s.store) {id : LogicalId} {run : Run}
    (hrun : s.store.runs[id]? = some run) (hterminal : run.status.isTerminal = true) :
    s'.store.runs[id]? = some run := by
  cases h with
  | quiet hstore => rwa [hstore]
  | create hcall hprepare hfresh _ hstore =>
    rw [hstore, Std.ExtTreeMap.getElem?_insert, if_neg]
    · exact hrun
    · intro hid
      have hnew := hindexed.fresh hcollision hcall hprepare hfresh
      rw [compare_eq_iff_eq.mp hid, hrun] at hnew
      cases hnew
  | read => exact hrun
  | invoke => exact hrun
  | apply _ hfound hvalid _ _ hstore =>
    rw [hstore, Std.ExtTreeMap.getElem?_insert, if_neg]
    · exact hrun
    · intro hid
      rw [compare_eq_iff_eq.mp hid, hrun] at hfound
      obtain rfl := Option.some.inj hfound
      rw [(transitionIsValid_iff.mp hvalid).2.1] at hterminal
      cases hterminal

/-- A terminal transition is applied to a run that was not terminal and then is. -/
theorem Move.terminalIds (h : Move p (calls t) s pc pc' s' events)
    (hindexed : Indexed p calls s.store) :
    events.filterMap Event.terminalId? = [] ∨ ∃ id current run,
      events.filterMap Event.terminalId? = [id] ∧ s.store.runs[id]? = some current ∧
        current.status.isTerminal = false ∧ s'.store.runs[id]? = some run ∧
        run.status.isTerminal = true := by
  cases h with
  | quiet => exact .inl rfl
  | create => exact .inl rfl
  | read => exact .inl rfl
  | invoke => exact .inl rfl
  | @apply _ _ _ id current _ change _ hfound hvalid _ _ hstore =>
    cases hterminal : change.status.isTerminal with
    | false =>
      refine .inl ?_
      rw [List.filterMap_cons_none, List.filterMap_nil]
      show (if change.status.isTerminal = true then _ else _) = none
      rw [hterminal]
      rfl
    | true =>
      refine .inr ⟨id, current, Store.apply current change, ?_, hfound,
        (transitionIsValid_iff.mp hvalid).2.1, ?_, hterminal⟩
      · rw [List.filterMap_cons_some (b := id), List.filterMap_nil]
        show (if change.status.isTerminal = true then some current.id else none) = some id
        rw [hterminal, hindexed.keyed _ _ hfound]
        rfl
      · rw [hstore]
        exact Std.ExtTreeMap.getElem?_insert_self

theorem Move.shaped (h : Move p (calls t) s pc pc' s' events) (hformed : s.store.WellFormed)
    (hshaped : ∀ (id : LogicalId) (run : Run), s.store.runs[id]? = some run → run.Shaped)
    (id : LogicalId) (run : Run) : s'.store.runs[id]? = some run → run.Shaped := by
  cases h with
  | quiet hstore =>
    rw [hstore]
    exact hshaped id run
  | create _ hprepare _ _ hstore =>
    rw [hstore, Std.ExtTreeMap.getElem?_insert]
    split_ifs with hid
    · rintro ⟨⟩
      rw [(prepare_eq_ok hprepare).2.2.2.1]
      exact ⟨nofun, nofun⟩
    · exact hshaped id run
  | read => exact hshaped id run
  | invoke => exact hshaped id run
  | apply _ hfound hvalid hbuilt _ hstore =>
    rw [hstore, Std.ExtTreeMap.getElem?_insert]
    split_ifs with hid
    · rintro ⟨⟩
      exact (hshaped _ _ hfound).apply (hformed _ _ hfound) hbuilt hvalid
    · exact hshaped id run

end Moves

/-! ## Summaries -/

theorem Shared.get_eq_ok {s : Shared} {tenant runId : LogicalId} {summary : RunSummary}
    (h : s.get tenant runId = .ok summary) :
    ∃ run, s.store.runs[runId]? = some run ∧ summary = .ofRun run := by
  obtain ⟨run, hrun, hsummary⟩ := Option.map_eq_some_iff.mp (okOr_eq_ok.mp h)
  exact ⟨run, (Option.filter_eq_some_iff.mp hrun).1, hsummary.symm⟩

theorem resultOf_eq_ok {summary summary' : RunSummary} {error : Option WorkflowError}
    (h : resultOf summary error = .ok summary') : summary' = summary := by
  unfold resultOf at h
  split at h
  · cases h
  · exact (Except.ok.inj h).symm

section Returns

variable {p : Platform} {s : Shared} {summary : RunSummary}

/-- The summary of a stored run is that of the run stored under its id. -/
theorem stored_of_found {id : LogicalId} {run : Run}
    (hkeyed : ∀ (id : LogicalId) (run : Run), s.store.runs[id]? = some run → run.id = id)
    (hfound : s.store.runs[id]? = some run) :
    ∃ stored, s.store.runs[(RunSummary.ofRun run).id]? = some stored ∧
      RunSummary.ofRun run = .ofRun stored := by
  refine ⟨run, ?_, rfl⟩
  show s.store.runs[run.id]? = _
  rwa [hkeyed _ _ hfound]

/-- The summary of an applied transition is that of the run now stored. -/
theorem stored_of_applied {s' : Shared} {id : LogicalId} {current : Run} {change : Transition}
    (hkeyed : ∀ (id : LogicalId) (run : Run), s.store.runs[id]? = some run → run.id = id)
    (hfound : s.store.runs[id]? = some current)
    (hstore : s'.store =
      { s.store with runs := s.store.runs.insert id (Store.apply current change) })
    (hsummary : summary = .ofRun (Store.apply current change)) :
    ∃ run, s'.store.runs[summary.id]? = some run ∧ summary = .ofRun run := by
  refine ⟨Store.apply current change, ?_, hsummary⟩
  rw [hsummary, hstore, show (RunSummary.ofRun (Store.apply current change)).id = current.id from rfl,
    hkeyed _ _ hfound]
  exact Std.ExtTreeMap.getElem?_insert_self

/-- A start that returns a summary returns that of the run stored then. -/
theorem advanceStart_returned {call : StartCall} {pc : Pc}
    (hkeyed : ∀ (id : LogicalId) (run : Run), s.store.runs[id]? = some run → run.id = id)
    (hpc : ∀ result, pc ≠ .returned result)
    (h : (advanceStart p call s pc).1 = .returned (.ok summary)) :
    ∃ run, (advanceStart p call s pc).2.1.store.runs[summary.id]? = some run ∧
      summary = .ofRun run := by
  cases pc with
  | ready =>
    cases hprepare : prepare p call with
    | error e =>
      simp only [advanceStart, hprepare] at h
      cases h
    | ok prepared =>
      simp only [advanceStart, hprepare] at h ⊢
      rcases createOrReturn_cases s.store prepared.identity prepared.run with
        ⟨id, existing, -, hrun, heq⟩ | ⟨id, -, -, heq⟩ | ⟨-, -, heq⟩ | ⟨-, -, -, heq⟩ | ⟨-, -, -, heq⟩
      · rw [heq] at h ⊢
        cases h
        refine ⟨existing, ?_, rfl⟩
        show s.store.runs[existing.id]? = _
        rwa [hkeyed _ _ hrun]
      · rw [heq] at h
        cases h
      · rw [heq] at h
        cases h
      · rw [heq] at h
        cases h
      · rw [heq] at h
        cases h
  | created prepared run =>
    cases hid : p.derivedId "attempt" (run.id.asStr ++ ":1") with
    | error e =>
      simp only [advanceStart, hid] at h
      cases h
    | ok attemptId =>
      simp only [advanceStart, hid] at h
      rcases s.transition_cases run.context.tenantId run.id run.revision .pending
        (startedTransition attemptId prepared.definition.step.agentId call.policy) with
        heq | heq | ⟨current, -, -, -, -, heq⟩
      · rw [heq] at h
        cases h
      · rw [heq] at h
        cases h
      · rw [heq] at h
        cases h
  | started prepared attemptId active =>
    simp only [advanceStart] at h
    split at h
    · cases h
    · split at h
      · cases h
      · cases h
  | registered prepared attemptId active evidence token =>
    simp only [advanceStart] at h
    split at h
    · cases h
    · split_ifs at h
  | invoking prepared active evidence token =>
    simp only [advanceStart] at h
    split at h
    · cases h
    · cases h
  | invoked prepared active evidence outcome =>
    cases hterminal : terminalTransition active evidence outcome with
    | none =>
      simp only [advanceStart, hterminal] at h
      cases h
    | some result =>
      obtain ⟨change, resultError⟩ := result
      simp only [advanceStart, hterminal] at h ⊢
      rcases s.transition_cases active.context.tenantId active.id active.revision .running change
        with heq | heq | ⟨current, hfound, -, -, -, heq⟩
      · rw [heq] at h
        cases h
      · rw [heq] at h
        cases h
      · rw [heq] at h ⊢
        have hsummary := resultOf_eq_ok (Pc.returned.inj h)
        exact stored_of_applied hkeyed hfound rfl hsummary
  | failing prepared active reason error =>
    cases hfailure : finishFailure active reason with
    | none =>
      simp only [advanceStart, hfailure] at h
      cases h
    | some change =>
      simp only [advanceStart, hfailure] at h
      rcases s.transition_cases active.context.tenantId active.id active.revision .running change
        with heq | heq | ⟨current, -, -, -, -, heq⟩
      · rw [heq] at h
        cases h
      · rw [heq] at h
        cases h
      · rw [heq] at h
        cases h
  | rereading tenant runId =>
    obtain ⟨run, hrun, rfl⟩ := Shared.get_eq_ok (Pc.returned.inj h)
    exact stored_of_found hkeyed hrun
  | returned result => exact absurd rfl (hpc result)
  | numbered | signalling | cancelling | dropped | panicked => cases h

theorem advanceCancel_returned {tenant runId : LogicalId} {pc : Pc}
    (hkeyed : ∀ (id : LogicalId) (run : Run), s.store.runs[id]? = some run → run.id = id)
    (hpc : ∀ result, pc ≠ .returned result)
    (h : (advanceCancel tenant runId s pc).1 = .returned (.ok summary)) :
    ∃ run, (advanceCancel tenant runId s pc).2.1.store.runs[summary.id]? = some run ∧
      summary = .ofRun run := by
  cases pc with
  | ready =>
    cases hget : Store.get s.store tenant runId with
    | none =>
      simp only [advanceCancel, hget] at h
      cases h
    | some run =>
      simp only [advanceCancel, hget] at h ⊢
      have hrun := (Option.filter_eq_some_iff.mp hget).1
      split_ifs at h ⊢
      cases h
      exact stored_of_found hkeyed hrun
  | signalling tenant run =>
    simp only [advanceCancel] at h
    split_ifs at h
    cases h
  | cancelling tenant run =>
    simp only [advanceCancel] at h ⊢
    rcases s.transition_cases tenant run.id run.revision .running (cancelledTransition run) with
      heq | heq | ⟨current, hfound, -, -, -, heq⟩
    · rw [heq] at h
      cases h
    · rw [heq] at h
      cases h
    · rw [heq] at h ⊢
      exact stored_of_applied hkeyed hfound rfl (Except.ok.inj (Pc.returned.inj h)).symm
  | rereading tenant runId =>
    obtain ⟨run, hrun, rfl⟩ := Shared.get_eq_ok (Pc.returned.inj h)
    exact stored_of_found hkeyed hrun
  | returned result => exact absurd rfl (hpc result)
  | created | started | numbered | registered | invoking | invoked | failing | dropped | panicked =>
    cases h

/-- Every summary that a call returns is that of the run stored in the step of its return. -/
theorem advance_returned {call : Call} {pc : Pc}
    (hkeyed : ∀ (id : LogicalId) (run : Run), s.store.runs[id]? = some run → run.id = id)
    (hpc : ∀ result, pc ≠ .returned result)
    (h : (advance p call s pc).1 = .returned (.ok summary)) :
    ∃ run, (advance p call s pc).2.1.store.runs[summary.id]? = some run ∧
      summary = .ofRun run := by
  cases call with
  | start call => exact advanceStart_returned hkeyed hpc h
  | cancel tenant runId => exact advanceCancel_returned hkeyed hpc h

end Returns

/-! ## Whole interleavings -/

section Family

variable {γ : Type} {p : Platform} {calls : γ → Call}

/-- The runs to which terminal transitions were applied. -/
def terminalIds (log : List (γ × Event)) : List LogicalId :=
  log.filterMap fun entry => entry.2.terminalId?

theorem terminalIds_append (log : List (γ × Event)) (t : γ) (events : List Event) :
    terminalIds (log ++ events.map fun event => (t, event)) =
      terminalIds log ++ events.filterMap Event.terminalId? := by
  unfold terminalIds
  rw [List.filterMap_append, List.filterMap_map]
  rfl

/-- The invariant of a race for terminal transitions. -/
structure RaceInv (p : Platform) (calls : γ → Call) (s : Sys γ) : Prop extends Inv p calls s where
  once : (terminalIds s.log).Nodup
  terminal : ∀ id ∈ terminalIds s.log, ∃ run, s.shared.store.runs[id]? = some run ∧
    run.status.isTerminal = true
  shaped : ∀ (id : LogicalId) (run : Run), s.shared.store.runs[id]? = some run → run.Shaped

theorem RaceInv.new : RaceInv p calls (Sys.new γ) where
  toInv := .new
  once := List.nodup_nil
  terminal := fun _ h => nomatch h
  shaped := fun _ _ h => nomatch h

variable [DecidableEq γ] {s : Sys γ}

theorem RaceInv.step (h : RaceInv p calls s) (hcollision : NoCollision p calls) (t : γ) :
    RaceInv p calls ((runner p calls).step s t).2 := by
  have hmove : Move p (calls t) s.shared (s.pc t) _ _ _ := advance_move (calls t) (s.pc t)
  refine ⟨h.toInv.step hcollision t, ?_, ?_, hmove.shaped h.wellFormed h.shaped⟩
  · show (terminalIds (s.log ++ _)).Nodup
    rw [terminalIds_append]
    rcases hmove.terminalIds h.indexed with hnil | ⟨id, current, run, heq, hcurrent, hopen, -⟩
    · rw [hnil, List.append_nil]
      exact h.once
    · rw [heq]
      refine h.once.append (List.nodup_singleton id) ?_
      rw [List.disjoint_singleton]
      intro hmem
      obtain ⟨stored, hstored, hterminal⟩ := h.terminal id hmem
      rw [hcurrent] at hstored
      obtain rfl := Option.some.inj hstored
      rw [hopen] at hterminal
      cases hterminal
  · intro id hmem
    change id ∈ terminalIds (s.log ++ _) at hmem
    rw [terminalIds_append] at hmem
    rcases List.mem_append.mp hmem with hold | hnew
    · obtain ⟨run, hrun, hterminal⟩ := h.terminal id hold
      exact ⟨run, hmove.terminal hcollision h.indexed hrun hterminal, hterminal⟩
    · rcases hmove.terminalIds h.indexed with hnil | ⟨id', current, run, heq, -, -, hrun, hterminal⟩
      · rw [hnil] at hnew
        cases hnew
      · rw [heq] at hnew
        obtain rfl := List.mem_singleton.mp hnew
        exact ⟨run, hrun, hterminal⟩

theorem raceInv_reached (hcollision : NoCollision p calls) (schedule : List γ) :
    RaceInv p calls (reached p calls schedule) :=
  Machine.invariant_final (fun _ t h => h.step hcollision t) .new schedule

/-- A terminal run stays stored as it is for the rest of every interleaving. -/
theorem RaceInv.terminal_final (h : RaceInv p calls s) (hcollision : NoCollision p calls)
    {id : LogicalId} {run : Run} (hrun : s.shared.store.runs[id]? = some run)
    (hterminal : run.status.isTerminal = true) (later : List γ) :
    ((runner p calls).final s later).shared.store.runs[id]? = some run := by
  induction later generalizing s with
  | nil => exact hrun
  | cons t later ih =>
    have hmove : Move p (calls t) s.shared (s.pc t) _ _ _ := advance_move (calls t) (s.pc t)
    exact ih (h.step hcollision t) (hmove.terminal hcollision h.indexed hrun hterminal)

end Family

/-! ## One execution and its cancellations -/

section Race

variable {ι : Type} [DecidableEq ι]

/-- One start, at `none`, and any number of calls of `cancel`. -/
def race (start : StartCall) (cancels : ι → LogicalId × LogicalId) : Option ι → Call
  | none => .start start
  | some i => .cancel (cancels i).1 (cancels i).2

omit [DecidableEq ι] in
theorem noCollision_race (p : Platform) (start : StartCall) (cancels : ι → LogicalId × LogicalId) :
    NoCollision p (race start cancels) := by
  intro t t' call call' prepared prepared' hcall hcall' hprepare hprepare' _
  cases t with
  | some i => cases hcall
  | none =>
    cases t' with
    | some i => cases hcall'
    | none =>
      cases hcall
      cases hcall'
      rw [hprepare] at hprepare'
      rw [Except.ok.inj hprepare']

/-- In every interleaving of one execution with any number of cancellations:

* at most one terminal transition is applied to a run;
* a cancelled run has no result and no events but its start and the cancellation, and stays so;
* a call that returns a summary when a terminal transition has been applied to the run returns
  the summary of the terminal run, which stays stored. -/
theorem one_terminal_transition (p : Platform) (start : StartCall)
    (cancels : ι → LogicalId × LogicalId) (schedule : List (Option ι)) :
    (∀ id, (terminalIds (reached p (race start cancels) schedule).log).count id ≤ 1) ∧
    (∀ (id : LogicalId) (run : Run),
      (reached p (race start cancels) schedule).shared.store.runs[id]? = some run →
      run.status = .cancelled →
        (∃ attempt, run.attempt = some attempt ∧ attempt.result = none) ∧
        run.events = [⟨1, "started", ""⟩, ⟨2, "cancelled", ""⟩] ∧
        ∀ later, (reached p (race start cancels) (schedule ++ later)).shared.store.runs[id]? =
          some run) ∧
    ∀ (t : Option ι) (summary : RunSummary),
      (∀ result, (reached p (race start cancels) schedule).pc t ≠ .returned result) →
      (reached p (race start cancels) (schedule ++ [t])).pc t = .returned (.ok summary) →
      summary.id ∈ terminalIds (reached p (race start cancels) (schedule ++ [t])).log →
        ∃ run : Run, run.status.isTerminal = true ∧ summary = .ofRun run ∧
          ∀ later, (reached p (race start cancels)
            (schedule ++ t :: later)).shared.store.runs[summary.id]? = some run := by
  have hcollision := noCollision_race p start cancels
  have hinv := raceInv_reached hcollision schedule
  refine ⟨fun id => List.nodup_iff_count_le_one.mp hinv.once id, ?_, ?_⟩
  · intro id run hrun hcancelled
    have hterminal : run.status.isTerminal = true := by
      rw [hcancelled]
      rfl
    refine ⟨?_, (hinv.shaped id run hrun).cancelled hcancelled, fun later => ?_⟩
    · obtain ⟨last, hattempt, -, hresult⟩ := (hinv.wellFormed id run hrun).ended hterminal
      exact ⟨last, hattempt, hresult hcancelled⟩
    · unfold reached
      rw [Machine.final_append]
      exact hinv.terminal_final hcollision hrun hterminal later
  · intro t summary hopen hreturned hmem
    have hinv' := raceInv_reached hcollision (schedule ++ [t])
    have hstep : reached p (race start cancels) (schedule ++ [t]) =
        ((runner p (race start cancels)).step (reached p (race start cancels) schedule) t).2 :=
      reached_concat schedule t
    have hpc : (advance p (race start cancels t) (reached p (race start cancels) schedule).shared
        ((reached p (race start cancels) schedule).pc t)).1 = .returned (.ok summary) := by
      rwa [hstep, step_pc_self] at hreturned
    obtain ⟨run, hrun, hsummary⟩ := advance_returned hinv.indexed.keyed hopen hpc
    have hrun' : (reached p (race start cancels) (schedule ++ [t])).shared.store.runs[summary.id]? =
        some run := by
      rw [hstep]
      exact hrun
    obtain ⟨stored, hstored, hterminal⟩ := hinv'.terminal summary.id hmem
    rw [hrun'] at hstored
    obtain rfl := Option.some.inj hstored
    refine ⟨run, hterminal, hsummary, fun later => ?_⟩
    have happend : schedule ++ t :: later = (schedule ++ [t]) ++ later := by simp
    unfold reached
    rw [happend, Machine.final_append]
    exact hinv'.terminal_final hcollision hrun' hterminal later

end Race

end RustFactory.Workflow
