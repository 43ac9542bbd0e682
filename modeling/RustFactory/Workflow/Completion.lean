import RustFactory.Workflow.Cancellation
import RustFactory.Workflow.Evidence

/-!
# Workflows: completion of an execution

The call that creates a run is the only one to move it, cancellations apart.  `Tracked` says where
the run is at each stage of that call; after eight turns the call has returned, and the run is
terminal exactly if the last transition fitted its budget.
-/

namespace RustFactory.Workflow

open RustFactory.Lib RustFactory.Agent

/-! ## Turns -/

/-- How many turns a start has had at each of its stages. -/
def Stage (turns : ℕ) : Pc → Prop
  | .ready => turns = 0
  | .created .. => turns = 1
  | .started _ _ active => turns = 2 ∧ active.attempt.isSome = true
  | .numbered _ _ active _ _ => turns = 3 ∧ active.attempt.isSome = true
  | .registered _ _ active _ _ => turns = 4 ∧ active.attempt.isSome = true
  | .invoking _ active _ _ => turns = 5 ∧ active.attempt.isSome = true
  | .invoked _ active _ _ => turns = 6 ∧ active.attempt.isSome = true
  | .failing _ active _ _ => 3 ≤ turns ∧ turns ≤ 5 ∧ active.attempt.isSome = true
  | .rereading .. => turns = 7
  | .returned _ => True
  | _ => False

theorem terminalTransition_isSome {active : Run} (h : active.attempt.isSome = true)
    (evidence : EvidenceCollector) (outcome : Except WorkflowError AgentInvocationResult) :
    ∃ result, terminalTransition active evidence outcome = some result := by
  obtain ⟨attempt, hattempt⟩ := Option.isSome_iff_exists.mp h
  unfold terminalTransition finishFailure
  rw [hattempt]
  cases outcome with
  | error e => exact ⟨_, rfl⟩
  | ok result =>
    cases hsuccess : finishSuccess active result evidence with
    | ok change => exact ⟨(change, none), by simp only [hsuccess]⟩
    | error e =>
      simp only [hsuccess]
      exact ⟨_, rfl⟩

/-- Every turn of a start that is not dropped brings it on. -/
theorem Stage.advance {p : Platform} {call : StartCall} {s : Shared} {turns : ℕ} {pc : Pc}
    (houtcome : call.outcome ≠ none) (h : Stage turns pc) :
    Stage (turns + 1) (advanceStart p call s pc).1 := by
  cases pc with
  | ready =>
    simp only [advanceStart]
    split
    · trivial
    · split
      · trivial
      · trivial
      · trivial
      · exact congrArg (· + 1) h
  | created prepared run =>
    cases hid : p.derivedId "attempt" (run.id.asStr ++ ":1") with
    | error e =>
      simp only [advanceStart, hid]
      trivial
    | ok attemptId =>
      simp only [advanceStart, hid]
      rcases s.transition_cases run.context.tenantId run.id run.revision .pending
        (startedTransition attemptId prepared.definition.step.agentId call.policy) with
        heq | heq | ⟨current, -, -, -, -, heq⟩
      · rw [heq]
        trivial
      · rw [heq]
        trivial
      · rw [heq]
        exact ⟨congrArg (· + 1) h, rfl⟩
  | started prepared attemptId active =>
    obtain ⟨rfl, hattempt⟩ := h
    simp only [advanceStart]
    split
    · exact ⟨by decide, by decide, hattempt⟩
    · split
      · exact ⟨by decide, by decide, hattempt⟩
      · exact ⟨rfl, hattempt⟩
  | numbered prepared attemptId active evidence token => exact ⟨congrArg (· + 1) h.1, h.2⟩
  | registered prepared attemptId active evidence token =>
    obtain ⟨rfl, hattempt⟩ := h
    simp only [advanceStart]
    split
    · exact ⟨by decide, by decide, hattempt⟩
    · split_ifs
      · exact ⟨rfl, hattempt⟩
      · exact ⟨by decide, by decide, hattempt⟩
  | invoking prepared active evidence token =>
    obtain ⟨outcome, hsome⟩ := Option.ne_none_iff_exists'.mp houtcome
    simp only [advanceStart, hsome]
    exact ⟨congrArg (· + 1) h.1, h.2⟩
  | invoked prepared active evidence outcome =>
    obtain ⟨⟨change, error⟩, hterminal⟩ := terminalTransition_isSome h.2 evidence outcome
    simp only [advanceStart, hterminal]
    split
    · trivial
    · exact congrArg (· + 1) h.1
    · trivial
  | failing prepared active reason error =>
    obtain ⟨attempt, hattempt⟩ := Option.isSome_iff_exists.mp h.2.2
    simp only [advanceStart, finishFailure, hattempt, Option.map_some]
    split
    · trivial
    · trivial
    · trivial
  | rereading tenant runId => trivial
  | returned result => trivial
  | signalling | cancelling | dropped | panicked => exact h.elim

theorem Stage.returned {turns : ℕ} {pc : Pc} (h : Stage turns pc) (hturns : 8 ≤ turns) :
    ∃ result, pc = .returned result := by
  cases pc with
  | returned result => exact ⟨result, rfl⟩
  | ready =>
    change turns = 0 at h
    omega
  | created =>
    change turns = 1 at h
    omega
  | rereading =>
    change turns = 7 at h
    omega
  | started => exact absurd h.1 (by omega)
  | numbered => exact absurd h.1 (by omega)
  | registered => exact absurd h.1 (by omega)
  | invoking => exact absurd h.1 (by omega)
  | invoked => exact absurd h.1 (by omega)
  | failing => exact absurd h.2.1 (by omega)
  | signalling | cancelling | dropped | panicked => exact h.elim

section Family

variable {γ : Type} [DecidableEq γ] {p : Platform} {calls : γ → Call} {t : γ} {call : StartCall}

theorem stage_reached (hcall : calls t = .start call) (houtcome : call.outcome ≠ none)
    (schedule : List γ) : Stage (schedule.count t) ((reached p calls schedule).pc t) := by
  induction schedule using List.reverseRecOn with
  | nil => rfl
  | append_singleton schedule u ih =>
    rw [reached_concat, List.count_append, List.count_singleton]
    by_cases hu : u = t
    · subst hu
      rw [step_pc_self, beq_self_eq_true, if_pos rfl, hcall]
      exact ih.advance houtcome
    · rw [step_pc_of_ne (Ne.symm hu), if_neg (by simpa using hu)]
      exact ih

/-! ## The registration counter -/

/-- The registration counter is used up when the call `t`, at its third turn, takes a number. -/
def Exhausted (p : Platform) (calls : γ → Call) (t : γ) (schedule : List γ) : Prop :=
  ∃ pre post, schedule = pre ++ t :: post ∧ pre.count t = 2 ∧
    checkedAdd (reached p calls pre).shared.nextRegistration 1 = none

theorem exhausted_concat {schedule : List γ} {u : γ} :
    Exhausted p calls t (schedule ++ [u]) ↔ Exhausted p calls t schedule ∨
      (u = t ∧ schedule.count t = 2 ∧
        checkedAdd (reached p calls schedule).shared.nextRegistration 1 = none) := by
  constructor
  · rintro ⟨pre, post, heq, hcount, hfull⟩
    rcases List.eq_nil_or_concat post with rfl | ⟨post, last, rfl⟩
    · obtain ⟨rfl, hlast⟩ := List.append_inj' heq rfl
      exact .inr ⟨List.singleton_injective hlast, hcount, hfull⟩
    · rw [List.concat_eq_append, ← List.cons_append, ← List.append_assoc] at heq
      exact .inl ⟨pre, post, (List.append_inj' heq rfl).1, hcount, hfull⟩
  · rintro (⟨pre, post, rfl, hcount, hfull⟩ | ⟨rfl, hcount, hfull⟩)
    · exact ⟨pre, post ++ [u], by simp, hcount, hfull⟩
    · exact ⟨schedule, [], rfl, hcount, hfull⟩

theorem Exhausted.three_le {schedule : List γ} (h : Exhausted p calls t schedule) :
    3 ≤ schedule.count t := by
  obtain ⟨pre, post, rfl, hcount, -⟩ := h
  rw [List.count_append, List.count_cons_self]
  omega

theorem exhausted_third {schedule : List γ} (h : schedule.count t = 2) :
    Exhausted p calls t (schedule ++ [t]) ↔
      checkedAdd (reached p calls schedule).shared.nextRegistration 1 = none := by
  rw [exhausted_concat]
  constructor
  · rintro (hbefore | ⟨-, -, hfull⟩)
    · have := hbefore.three_le
      omega
    · exact hfull
  · exact fun hfull => .inr ⟨rfl, h, hfull⟩

theorem exhausted_other {schedule : List γ} {u : γ} (h : u = t → schedule.count t ≠ 2) :
    Exhausted p calls t (schedule ++ [u]) ↔ Exhausted p calls t schedule := by
  rw [exhausted_concat]
  constructor
  · rintro (hbefore | ⟨hu, hcount, -⟩)
    · exact hbefore
    · exact absurd hcount (h hu)
  · exact .inl

end Family

/-! ## The run of a tracked call -/

/-- The run of a start once it is running. -/
def activeRun (call : StartCall) (prepared : Prepared) (attemptId : LogicalId) : Run :=
  Store.apply prepared.run
    (startedTransition attemptId prepared.definition.step.agentId call.policy)

section Own

variable {p : Platform} {call : StartCall} {prepared : Prepared}

theorem activeRun_active (hprepare : prepare p call = .ok prepared) (attemptId : LogicalId) :
    ∃ attempt, (activeRun call prepared attemptId).Active attempt := by
  obtain ⟨-, hdefinition, -, hrun, -⟩ := prepare_eq_ok hprepare
  obtain ⟨-, -, -, hleast, hmost⟩ := validateDefinition_eq_ok.mp hdefinition
  unfold activeRun
  rw [hrun]
  exact ⟨_, rfl, rfl, rfl, rfl, rfl, rfl, rfl, hleast, hmost⟩

theorem started_valid (hprepare : prepare p call = .ok prepared) (attemptId : LogicalId) :
    transitionIsValid prepared.run .pending
      (startedTransition attemptId prepared.definition.step.agentId call.policy) = true := by
  obtain ⟨hpolicy, hdefinition, -, hrun, -⟩ := prepare_eq_ok hprepare
  obtain ⟨-, -, -, hleast, hmost⟩ := validateDefinition_eq_ok.mp hdefinition
  rw [minTerminalEvidenceBytes_eq] at hleast
  have hmax : prepared.run.maxEvidenceBytes < 2 ^ 64 := by
    rw [hrun]
    exact lt_of_le_of_lt hmost (by decide)
  have hfit : eventsFit prepared.run startedEvents = true := by
    rw [eventsFit_iff hmax, hrun]
    refine ⟨show 0 + 1 ≤ 64 by decide, ?_⟩
    show totalBytes (texts startedEvents) ≤ prepared.definition.budget.maxEvidenceBytes
    rw [totalBytes_startedEvents]
    omega
  have hallowed : changeAllowed .pending .running none none
      (startedTransition attemptId prepared.definition.step.agentId call.policy).attempt =
      true := by
    show ((validateInvocationPolicy call.policy.effectiveCapabilityCeiling
      call.policy.policyDecisionDigest).isOk && _ && _ && _ && _) = true
    rw [hpolicy]
    rfl
  rw [transitionIsValid_iff]
  refine ⟨?_, ?_, List.cons_ne_nil _ _, hfit, ?_, ?_⟩
  · rw [hrun]
    rfl
  · rw [hrun]
    rfl
  · rw [hrun]
    rfl
  · rw [hrun]
    exact hallowed

/-- The condition under which the execution of a start ends in a terminal run. -/
def Completable (call : StartCall) (budget : ℕ) (exhausted : Prop) : Prop :=
  (exhausted → reasonFits budget "cancellation_registration_failed") ∧
  (¬exhausted → call.instantFits = false → reasonFits budget "invocation_control_failed") ∧
  ∀ outcome, ¬exhausted → call.instantFits = true → call.outcome = some outcome →
    OutcomeFits budget call.emitted outcome

/-- Why a start fails before it calls the invoker. -/
inductive SetupFailure (call : StartCall) (exhausted : Prop) : String → Prop where
  | registration (h : exhausted) : SetupFailure call exhausted "cancellation_registration_failed"
  | control (h : ¬exhausted) (instant : call.instantFits = false) :
      SetupFailure call exhausted "invocation_control_failed"

theorem SetupFailure.fits_iff {budget : ℕ} {exhausted : Prop} {reason : String}
    (h : SetupFailure call exhausted reason) :
    reasonFits budget reason ↔ Completable call budget exhausted := by
  cases h with
  | registration h =>
    exact ⟨fun hfits => ⟨fun _ => hfits, fun h' => absurd h h', fun _ h' => absurd h h'⟩,
      fun hcompletable => hcompletable.1 h⟩
  | control h hinstant =>
    refine ⟨fun hfits => ⟨fun h' => absurd h' h, fun _ _ => hfits, fun _ _ hinstant' => ?_⟩,
      fun hcompletable => hcompletable.2.1 h hinstant⟩
    rw [hinstant] at hinstant'
    cases hinstant'

/-- The stored run at each stage of the call that created it. -/
inductive Tracked (call : StartCall) (prepared : Prepared) (exhausted : Prop) (turns : ℕ) :
    Pc → Run → Prop where
  | created : Tracked call prepared exhausted turns (.created prepared prepared.run) prepared.run
  | started (attemptId : LogicalId) : Tracked call prepared exhausted turns
      (.started prepared attemptId (activeRun call prepared attemptId))
      (activeRun call prepared attemptId)
  | numbered (attemptId : LogicalId) (token : UInt64) (counted : ¬exhausted) :
      Tracked call prepared exhausted turns
        (.numbered prepared attemptId (activeRun call prepared attemptId)
          (.initial prepared.run.maxEvidenceBytes) token)
        (activeRun call prepared attemptId)
  | registered (attemptId : LogicalId) (token : UInt64) (counted : ¬exhausted) :
      Tracked call prepared exhausted turns
        (.registered prepared attemptId (activeRun call prepared attemptId)
          (.initial prepared.run.maxEvidenceBytes) token)
        (activeRun call prepared attemptId)
  | invoking (attemptId : LogicalId) (token : UInt64) (counted : ¬exhausted)
      (instant : call.instantFits = true) :
      Tracked call prepared exhausted turns
        (.invoking prepared (activeRun call prepared attemptId)
          (.initial prepared.run.maxEvidenceBytes) token)
        (activeRun call prepared attemptId)
  | invoked (attemptId : LogicalId) (outcome : Except WorkflowError AgentInvocationResult)
      (counted : ¬exhausted) (instant : call.instantFits = true)
      (answered : call.outcome = some outcome) :
      Tracked call prepared exhausted turns
        (.invoked prepared (activeRun call prepared attemptId)
          ((EvidenceCollector.initial prepared.run.maxEvidenceBytes).collect call.emitted) outcome)
        (activeRun call prepared attemptId)
  | failing (attemptId : LogicalId) (reason : String) (error : WorkflowError)
      (failure : SetupFailure call exhausted reason) :
      Tracked call prepared exhausted turns
        (.failing prepared (activeRun call prepared attemptId) reason error)
        (activeRun call prepared attemptId)
  | rereading (tenant runId : LogicalId) (run : Run) (still : run.status.isTerminal = false)
      (rejected : ¬Completable call prepared.run.maxEvidenceBytes exhausted) :
      Tracked call prepared exhausted turns (.rereading tenant runId) run
  | returned (result : Except WorkflowError RunSummary) (run : Run) (late : 3 ≤ turns)
      (iff : run.status.isTerminal = true ↔
        Completable call prepared.run.maxEvidenceBytes exhausted) :
      Tracked call prepared exhausted turns (.returned result) run

theorem Shared.transition_of_found {s : Shared} {tenant runId : LogicalId} {revision : UInt64}
    {current : Run} (hfound : s.store.runs[runId]? = some current)
    (htenant : current.context.tenantId = tenant) (hrevision : current.revision = revision)
    (status : RunStatus) (change : Transition) :
    s.transition tenant runId revision status change =
      if transitionIsValid current status change = true then
        (.applied (Store.apply current change),
          { s with store :=
            { s.store with runs := s.store.runs.insert runId (Store.apply current change) } })
      else (.conflict, s) := by
  unfold Shared.transition Store.transition
  simp only [hfound, htenant, hrevision, ne_eq, not_true_eq_false, if_false, false_or,
    Bool.not_eq_true']
  cases transitionIsValid current status change with
  | true => rfl
  | false => rfl

/-- A transition of the active run is applied, or it does not fit and nothing changes. -/
theorem Shared.transition_active {s : Shared} {attemptId : LogicalId}
    (hfound : s.store.runs[prepared.run.id]? = some (activeRun call prepared attemptId))
    (change : Transition) :
    (transitionIsValid (activeRun call prepared attemptId) .running change = true ∧
      ∃ s', s.transition (activeRun call prepared attemptId).context.tenantId
          (activeRun call prepared attemptId).id (activeRun call prepared attemptId).revision
          .running change =
            (.applied (Store.apply (activeRun call prepared attemptId) change), s') ∧
        s'.store.runs[prepared.run.id]? =
          some (Store.apply (activeRun call prepared attemptId) change)) ∨
    (transitionIsValid (activeRun call prepared attemptId) .running change = false ∧
      s.transition (activeRun call prepared attemptId).context.tenantId
        (activeRun call prepared attemptId).id (activeRun call prepared attemptId).revision
        .running change = (.conflict, s)) := by
  have htransition : s.transition (activeRun call prepared attemptId).context.tenantId
      (activeRun call prepared attemptId).id (activeRun call prepared attemptId).revision
      .running change = _ := Shared.transition_of_found hfound rfl rfl .running change
  cases hguard : transitionIsValid (activeRun call prepared attemptId) .running change with
  | true =>
    rw [hguard, if_pos rfl] at htransition
    exact .inl ⟨rfl, _, htransition, Std.ExtTreeMap.getElem?_insert_self⟩
  | false =>
    rw [hguard, if_neg Bool.false_ne_true] at htransition
    exact .inr ⟨rfl, htransition⟩

/-- The last step of an execution: a transition of the active run that fits or does not. -/
theorem Tracked.finish {s : Shared} {exhausted : Prop} {turns : ℕ} {attemptId : LogicalId}
    {change : Transition}
    (hfound : s.store.runs[prepared.run.id]? = some (activeRun call prepared attemptId))
    (hterminal : change.status.isTerminal = true) (hturns : 3 ≤ turns)
    (hvalid : transitionIsValid (activeRun call prepared attemptId) .running change = true ↔
      Completable call prepared.run.maxEvidenceBytes exhausted) :
    (∃ run s', s.transition (activeRun call prepared attemptId).context.tenantId
        (activeRun call prepared attemptId).id (activeRun call prepared attemptId).revision
        .running change = (.applied run, s') ∧
      s'.store.runs[prepared.run.id]? = some run ∧
      ∀ result, Tracked call prepared exhausted turns (.returned result) run) ∨
    (s.transition (activeRun call prepared attemptId).context.tenantId
        (activeRun call prepared attemptId).id (activeRun call prepared attemptId).revision
        .running change = (.conflict, s) ∧
      ¬Completable call prepared.run.maxEvidenceBytes exhausted ∧
      ∀ result, Tracked call prepared exhausted turns (.returned result)
        (activeRun call prepared attemptId)) := by
  rcases Shared.transition_active hfound change with
    ⟨hguard, s', htransition, hstored⟩ | ⟨hguard, htransition⟩
  · refine .inl ⟨_, s', htransition, hstored, fun result => ?_⟩
    exact .returned result _ hturns (iff_of_true hterminal (hvalid.mp hguard))
  · have hrejected : ¬Completable call prepared.run.maxEvidenceBytes exhausted := by
      intro h
      rw [hvalid.mpr h] at hguard
      cases hguard
    refine .inr ⟨htransition, hrejected, fun result => ?_⟩
    exact .returned result _ hturns (iff_of_false Bool.false_ne_true hrejected)

/-- A turn of the call that created the run. -/
theorem Tracked.advance {s : Shared} {exhausted exhausted' : Prop} {turns : ℕ} {pc : Pc}
    {stored : Run} (hprepare : prepare p call = .ok prepared)
    (h : Tracked call prepared exhausted turns pc stored) (hstage : Stage turns pc)
    (houtcome : call.outcome ≠ none) (hfound : s.store.runs[prepared.run.id]? = some stored)
    (hthird : turns = 2 → (exhausted' ↔ checkedAdd s.nextRegistration 1 = none))
    (hother : turns ≠ 2 → (exhausted' ↔ exhausted)) :
    ∃ stored', (advanceStart p call s pc).2.1.store.runs[prepared.run.id]? = some stored' ∧
      Tracked call prepared exhausted' (turns + 1) (advanceStart p call s pc).1 stored' := by
  have hactive := activeRun_active hprepare
  cases h with
  | created =>
    obtain ⟨attemptId, hid⟩ := derivedId_attempt p (prepared.run.id.asStr ++ ":1")
    have htransition := Shared.transition_of_found hfound rfl rfl .pending
      (startedTransition attemptId prepared.definition.step.agentId call.policy)
    rw [if_pos (started_valid hprepare attemptId)] at htransition
    simp only [advanceStart, hid, htransition]
    exact ⟨_, Std.ExtTreeMap.getElem?_insert_self, .started attemptId⟩
  | started attemptId =>
    obtain ⟨attempt, hrun⟩ := hactive attemptId
    have hiff := hthird hstage.1
    have hnew : EvidenceCollector.new (activeRun call prepared attemptId).maxEvidenceBytes
        (activeRun call prepared attemptId).events =
        .ok (.initial prepared.run.maxEvidenceBytes) := hrun.collector
    cases hnext : checkedAdd s.nextRegistration 1 with
    | none =>
      simp only [advanceStart, hnew, hnext]
      exact ⟨_, hfound, .failing attemptId _ _ (.registration (hiff.mpr hnext))⟩
    | some next =>
      simp only [advanceStart, hnew, hnext]
      refine ⟨_, hfound, .numbered attemptId _ fun hfull => ?_⟩
      rw [hiff.mp hfull] at hnext
      cases hnext
  | numbered attemptId token hcounted =>
    obtain rfl : exhausted' = exhausted := propext (hother (by rw [hstage.1]; decide))
    exact ⟨_, hfound, .registered attemptId token hcounted⟩
  | registered attemptId token hcounted =>
    obtain rfl : exhausted' = exhausted := propext (hother (by rw [hstage.1]; decide))
    obtain ⟨key, hkey⟩ := identifier_hexDigest p (utf8
      ((activeRun call prepared attemptId).context.tenantId.asStr ++ ":" ++
        (activeRun call prepared attemptId).id.asStr ++ ":" ++ attemptId.asStr))
    cases hinstant : call.instantFits with
    | true =>
      simp only [advanceStart, hkey, hinstant, if_true]
      exact ⟨_, hfound, .invoking attemptId token hcounted hinstant⟩
    | false =>
      simp only [advanceStart, hkey, hinstant, Bool.false_eq_true, if_false]
      refine ⟨_, ?_, .failing attemptId _ _ (.control hcounted hinstant)⟩
      rw [Shared.unregister_store]
      exact hfound
  | invoking attemptId token hcounted hinstant =>
    obtain rfl : exhausted' = exhausted := propext (hother (by rw [hstage.1]; decide))
    obtain ⟨outcome, hsome⟩ := Option.ne_none_iff_exists'.mp houtcome
    simp only [advanceStart, hsome]
    refine ⟨_, ?_, .invoked attemptId outcome hcounted hinstant hsome⟩
    rw [Shared.unregister_store]
    exact hfound
  | invoked attemptId outcome hcounted hinstant hanswered =>
    obtain rfl : exhausted' = exhausted := propext (hother (by rw [hstage.1]; decide))
    obtain ⟨attempt, hrun⟩ := hactive attemptId
    obtain ⟨change, error, hchange, hterminal, -, hvalid⟩ :=
      terminalTransition_valid hrun call.emitted outcome
    have hcompletable : OutcomeFits (activeRun call prepared attemptId).maxEvidenceBytes
        call.emitted outcome ↔ Completable call prepared.run.maxEvidenceBytes exhausted' := by
      refine ⟨fun hfits => ⟨fun hfull => absurd hfull hcounted, fun _ hinstant' => ?_,
        fun outcome' _ _ houtcome' => ?_⟩, fun hall => hall.2.2 outcome hcounted hinstant hanswered⟩
      · rw [hinstant] at hinstant'
        cases hinstant'
      · rw [hanswered] at houtcome'
        obtain rfl := Option.some.inj houtcome'
        exact hfits
    have hturns : 3 ≤ turns + 1 := by
      have := hstage.1
      omega
    have hchange' : terminalTransition (activeRun call prepared attemptId)
        ((EvidenceCollector.initial prepared.run.maxEvidenceBytes).collect call.emitted) outcome =
        some (change, error) := hchange
    rcases Tracked.finish hfound hterminal hturns (hvalid.trans hcompletable) with
      ⟨run, s', heq, hstored, htracked⟩ | ⟨heq, hrejected, -⟩
    · simp only [advanceStart, hchange', heq]
      exact ⟨run, hstored, htracked _⟩
    · simp only [advanceStart, hchange', heq]
      exact ⟨_, hfound, .rereading _ _ _ rfl hrejected⟩
  | failing attemptId reason error hfailure =>
    obtain rfl : exhausted' = exhausted := propext (hother (by have := hstage.1; omega))
    obtain ⟨attempt, hrun⟩ := hactive attemptId
    have hchange : ∃ change, finishFailure (activeRun call prepared attemptId) reason =
        some change ∧ change.status.isTerminal = true := ⟨_, rfl, rfl⟩
    obtain ⟨change, hchange, hterminal⟩ := hchange
    have hvalid := (finishFailure_valid_iff hrun hchange).trans hfailure.fits_iff
    have hturns : 3 ≤ turns + 1 := by
      have := hstage.1
      omega
    rcases Tracked.finish hfound hterminal hturns hvalid with
      ⟨run, s', heq, hstored, htracked⟩ | ⟨heq, -, htracked⟩
    · simp only [advanceStart, hchange, heq]
      exact ⟨run, hstored, htracked _⟩
    · simp only [advanceStart, hchange, heq]
      exact ⟨_, hfound, htracked _⟩
  | rereading tenant runId run hopen hrejected =>
    obtain rfl : exhausted' = exhausted := propext (hother (by rw [hstage]; decide))
    refine ⟨_, hfound, .returned _ _ ?_ (iff_of_false ?_ hrejected)⟩
    · rw [hstage]
      decide
    · rw [hopen]
      exact Bool.false_ne_true
  | returned result run hlate hiff =>
    obtain rfl : exhausted' = exhausted := propext (hother (by omega))
    exact ⟨_, hfound, .returned _ _ (by omega) hiff⟩

end Own

/-! ## Whole interleavings -/

section Runs

variable {γ : Type} {p : Platform} {calls : γ → Call} {t : γ} {call : StartCall}
  {prepared : Prepared}

/-- Other calls do not touch the run, unless one cancels it. -/
theorem Inv.frame {s : Sys γ} (h : Inv p calls s) (hcollision : NoCollision p calls)
    (hcall : calls t = .start call) (hprepare : prepare p call = .ok prepared)
    (hcreated : (t, Event.created prepared.identity prepared.run) ∈ s.log) {u : γ} (hu : u ≠ t)
    {pc' : Pc} {s' : Shared} {events : List Event}
    (hmove : Move p (calls u) s.shared (s.pc u) pc' s' events) {stored : Run}
    (hstored : s.shared.store.runs[prepared.run.id]? = some stored) :
    ∃ stored', s'.store.runs[prepared.run.id]? = some stored' ∧
      (stored' = stored ∨ stored'.status = .cancelled) := by
  have hbound := h.bound u
  have hholder := h.holder u
  have howner := h.owner u
  generalize s.pc u = pc at hmove hbound hholder howner
  cases hmove with
  | quiet hstore => exact ⟨stored, hstore ▸ hstored, .inl rfl⟩
  | create hcall' hprepare' hfresh _ hstore =>
    refine ⟨stored, ?_, .inl rfl⟩
    rw [hstore, Std.ExtTreeMap.getElem?_insert, if_neg]
    · exact hstored
    · intro hid
      have hnew := h.indexed.fresh hcollision hcall' hprepare' hfresh
      rw [compare_eq_iff_eq.mp hid, hstored] at hnew
      cases hnew
  | read => exact ⟨stored, hstored, .inl rfl⟩
  | invoke => exact ⟨stored, hstored, .inl rfl⟩
  | @apply _ _ _ id current _ change htarget hfound _ _ hcancel hstore =>
    rw [hstore, Std.ExtTreeMap.getElem?_insert]
    split_ifs with hid
    · refine ⟨_, rfl, .inr ?_⟩
      cases hother : calls u with
      | cancel tenant runId => exact hcancel tenant runId hother
      | start call' =>
        -- The call that works on this run would have created it too.
        rw [hother] at hbound
        obtain ⟨prepared', hprepared', hid'⟩ := hbound id htarget
        obtain ⟨-, call'', hcall'', hprepare''⟩ := howner prepared' hprepared'
        have heq := hcollision t u call call'' prepared prepared' hcall hcall'' hprepare
          hprepare'' (by rw [hid', compare_eq_iff_eq.mp hid])
        have hkey : prepared'.identity.key = prepared.identity.key := by rw [heq]
        exact absurd (h.creator_unique (hholder prepared' hprepared') hcreated hkey) hu
    · exact ⟨stored, hstored, .inl rfl⟩

/-- The call whose move logs the creation of the run has just created it. -/
theorem Move.created_pc {s s' : Shared} {pc pc' : Pc} {events : List Event}
    (h : Move p (calls t) s pc pc' s' events) (hcall : calls t = .start call)
    (hprepare : prepare p call = .ok prepared)
    (hmem : Event.created prepared.identity prepared.run ∈ events) :
    pc' = .created prepared prepared.run ∧
      s'.store.runs[prepared.run.id]? = some prepared.run := by
  cases h with
  | create hcall' hprepare' _ _ hstore =>
    rw [hcall] at hcall'
    cases hcall'
    rw [hprepare] at hprepare'
    obtain rfl := Except.ok.inj hprepare'
    refine ⟨rfl, ?_⟩
    rw [hstore]
    exact Std.ExtTreeMap.getElem?_insert_self
  | quiet => cases hmem
  | read => cases hmem
  | invoke => cases List.mem_singleton.mp hmem
  | apply => cases List.mem_singleton.mp hmem

theorem Move.cancelled {s s' : Shared} {pc pc' : Pc} {events : List Event}
    (h : Move p (calls t) s pc pc' s' events) (hcollision : NoCollision p calls)
    (hindexed : Indexed p calls s.store) {id : LogicalId} {run : Run}
    (hrun : s.store.runs[id]? = some run) (hcancelled : run.status = .cancelled) :
    s'.store.runs[id]? = some run :=
  h.terminal hcollision hindexed hrun (by rw [hcancelled]; rfl)

variable [DecidableEq γ]

/-- The run of the call that created it, in every state of every interleaving: what holds of it when
it is created, and is kept by the turns of its call and by those of the others, holds of it until it
is cancelled. -/
theorem created_reached (hcollision : NoCollision p calls) (hcall : calls t = .start call)
    (hprepare : prepare p call = .ok prepared) {P : List γ → Pc → Run → Prop}
    (hcreate : ∀ schedule, P (schedule ++ [t]) (.created prepared prepared.run) prepared.run)
    (hown : ∀ (schedule : List γ) (stored : Run),
      P schedule ((reached p calls schedule).pc t) stored →
      (reached p calls schedule).shared.store.runs[prepared.run.id]? = some stored →
      ∃ stored', (advanceStart p call (reached p calls schedule).shared
          ((reached p calls schedule).pc t)).2.1.store.runs[prepared.run.id]? = some stored' ∧
        P (schedule ++ [t]) (advanceStart p call (reached p calls schedule).shared
          ((reached p calls schedule).pc t)).1 stored')
    (hother : ∀ (schedule : List γ) (u : γ) (pc : Pc) (stored : Run), u ≠ t →
      P schedule pc stored → P (schedule ++ [u]) pc stored)
    (schedule : List γ)
    (hcreated : (t, Event.created prepared.identity prepared.run) ∈
      (reached p calls schedule).log) :
    ∃ stored : Run, (reached p calls schedule).shared.store.runs[prepared.run.id]? = some stored ∧
      (stored.status = .cancelled ∨ P schedule ((reached p calls schedule).pc t) stored) := by
  induction schedule using List.reverseRecOn with
  | nil => cases hcreated
  | append_singleton schedule u ih =>
    have hinv : Inv p calls (reached p calls schedule) := inv_final hcollision schedule
    have hmove : Move p (calls u) (reached p calls schedule).shared
      ((reached p calls schedule).pc u) _ _ _ := advance_move (calls u) _
    rw [reached_concat] at hcreated ⊢
    rcases List.mem_append.mp hcreated with hold | hnew
    · obtain ⟨stored, hstored, hcancelled | hholds⟩ := ih hold
      · exact ⟨stored, hmove.cancelled hcollision hinv.indexed hstored hcancelled, .inl hcancelled⟩
      · by_cases hu : u = t
        · subst hu
          obtain ⟨stored', hstored', hholds'⟩ := hown schedule stored hholds hstored
          refine ⟨stored', ?_, .inr ?_⟩
          · show (advance p (calls u) _ _).2.1.store.runs[prepared.run.id]? = _
            rw [hcall]
            exact hstored'
          · rw [step_pc_self, hcall]
            exact hholds'
        · obtain ⟨stored', hstored', rfl | hcancelled⟩ :=
            hinv.frame hcollision hcall hprepare hold hu hmove hstored
          · refine ⟨stored', hstored', .inr ?_⟩
            rw [step_pc_of_ne (Ne.symm hu)]
            exact hother schedule u _ _ hu hholds
          · exact ⟨stored', hstored', .inl hcancelled⟩
    · obtain ⟨event, hevent, heq⟩ := List.mem_map.mp hnew
      cases heq
      obtain ⟨hpc, hstored⟩ := hmove.created_pc hcall hprepare hevent
      refine ⟨prepared.run, hstored, .inr ?_⟩
      rw [step_pc_self, hpc]
      exact hcreate schedule

theorem tracked_reached (hcollision : NoCollision p calls) (hcall : calls t = .start call)
    (hprepare : prepare p call = .ok prepared) (houtcome : call.outcome ≠ none)
    (schedule : List γ)
    (hcreated : (t, Event.created prepared.identity prepared.run) ∈
      (reached p calls schedule).log) :
    ∃ stored : Run, (reached p calls schedule).shared.store.runs[prepared.run.id]? = some stored ∧
      (stored.status = .cancelled ∨ Tracked call prepared (Exhausted p calls t schedule)
        (schedule.count t) ((reached p calls schedule).pc t) stored) := by
  refine created_reached hcollision hcall hprepare
    (P := fun schedule => Tracked call prepared (Exhausted p calls t schedule) (schedule.count t))
    (fun schedule => .created) (fun schedule stored htracked hstored => ?_)
    (fun schedule u pc stored hu htracked => ?_) schedule hcreated
  · rw [List.count_append, List.count_singleton_self]
    exact htracked.advance hprepare (stage_reached (p := p) hcall houtcome schedule) houtcome
      hstored (fun hcount => exhausted_third hcount) (fun hcount => exhausted_other fun _ => hcount)
  · rw [List.count_append, List.count_singleton, if_neg (by simpa using hu), Nat.add_zero]
    rwa [propext (exhausted_other fun h => absurd h hu)]

/-- The call that creates a run and is not dropped has returned after eight turns, in every
interleaving, and unless the run was cancelled it is then terminal exactly if the failure or the
evidence that the call had to store passes the guard. -/
theorem completes_iff_completable (p : Platform) (calls : γ → Call)
    (hcollision : NoCollision p calls) (t : γ) (call : StartCall) (prepared : Prepared)
    (hcall : calls t = .start call) (hprepare : prepare p call = .ok prepared)
    (houtcome : call.outcome ≠ none) (schedule : List γ)
    (hcreated : (t, Event.created prepared.identity prepared.run) ∈
      (reached p calls schedule).log) (hturns : 8 ≤ schedule.count t) :
    (∃ result, (reached p calls schedule).pc t = .returned result) ∧
    ∃ stored : Run, (reached p calls schedule).shared.store.runs[prepared.run.id]? = some stored ∧
      (stored.status ≠ .cancelled → (stored.status.isTerminal = true ↔
        Completable call prepared.run.maxEvidenceBytes (Exhausted p calls t schedule))) := by
  have hreturned := (stage_reached (p := p) hcall houtcome schedule).returned hturns
  obtain ⟨stored, hstored, htracked⟩ :=
    tracked_reached hcollision hcall hprepare houtcome schedule hcreated
  refine ⟨hreturned, stored, hstored, fun hcancelled => ?_⟩
  obtain ⟨result, hresult⟩ := hreturned
  rcases htracked with h | htracked
  · exact absurd h hcancelled
  · rw [hresult] at htracked
    cases htracked with
    | returned _ _ _ hiff => exact hiff

end Runs

/-- A start alone, with the given budget, evidence and outcome. -/
def sampleAlone (budget : ℕ) (emitted : List InvocationEvidence)
    (outcome : Except WorkflowError AgentInvocationResult) : Unit → Call
  | () => .start (sampleStart "\x7b\x7d" budget emitted outcome)

/-- The run is terminal after a success with a result. -/
theorem completes_iff_completable_sampleAlone :
    ∃ prepared, prepare samplePlatform
        (sampleStart "\x7b\x7d" 65536 [⟨"result", "done"⟩] (.ok ⟨"scope"⟩)) = .ok prepared ∧
      ∃ stored : Run, (reached samplePlatform (sampleAlone 65536 [⟨"result", "done"⟩] (.ok ⟨"scope"⟩))
        (List.replicate 8 ())).shared.store.runs[prepared.run.id]? = some stored ∧
      (stored.status ≠ .cancelled → (stored.status.isTerminal = true ↔
        Completable (sampleStart "\x7b\x7d" 65536 [⟨"result", "done"⟩] (.ok ⟨"scope"⟩))
          prepared.run.maxEvidenceBytes (Exhausted samplePlatform
            (sampleAlone 65536 [⟨"result", "done"⟩] (.ok ⟨"scope"⟩)) () (List.replicate 8 ())))) := by
  have hsome : ((prepare samplePlatform (sampleStart "\x7b\x7d" 65536 [⟨"result", "done"⟩]
      (.ok ⟨"scope"⟩))).toOption.any fun prepared =>
        ((), Event.created prepared.identity prepared.run) ∈ (reached samplePlatform
          (sampleAlone 65536 [⟨"result", "done"⟩] (.ok ⟨"scope"⟩)) (List.replicate 8 ())).log) =
      true := by decide +kernel
  cases hprepare : prepare samplePlatform
      (sampleStart "\x7b\x7d" 65536 [⟨"result", "done"⟩] (.ok ⟨"scope"⟩)) with
  | error e =>
    rw [hprepare] at hsome
    cases hsome
  | ok prepared =>
    rw [hprepare] at hsome
    refine ⟨prepared, rfl, (completes_iff_completable samplePlatform _
      (noCollision_of_prepared fun _ _ _ => rfl) () _ prepared rfl hprepare ?_
      (List.replicate 8 ()) (of_decide_eq_true hsome) (by decide)).2⟩
    exact Option.some_ne_none _

/-- Two executions that are neither cancelled nor dropped leave their runs running: one whose
invoker succeeds without a result under the least budget, and one whose invoker emits evidence
with an empty kind. -/
theorem runs_left_running :
    (reached samplePlatform (sampleAlone 47 [] (.ok ⟨"scope"⟩))
      (List.replicate 8 ())).shared.store.runs.values.map Run.status = [.running] ∧
    (reached samplePlatform (sampleAlone 65536 [⟨"result", "done"⟩, ⟨"", "note"⟩] (.ok ⟨"scope"⟩))
      (List.replicate 8 ())).shared.store.runs.values.map Run.status = [.running] :=
  ⟨by decide +kernel, by decide +kernel⟩

end RustFactory.Workflow
