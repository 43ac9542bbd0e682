import RustFactory.Workflow.Store

/-!
# Workflows: the life of a run

A run moves from revision 0 (pending) to 1 (running) to 2 (terminal) and no further.  One step
lemma, `Run.WellFormed.apply`, says that the guard lets nothing else through; the laws of all
reachable stores follow by induction over the calls.
-/

namespace RustFactory.Workflow

open RustFactory.Lib RustFactory.Agent

/-! ## Evidence sizes -/

/-- The total size of kinds and data. -/
def totalBytes (values : List (String × String)) : ℕ :=
  (values.map fun value => byteLen value.1 + byteLen value.2).sum

theorem totalBytes_append (a b : List (String × String)) :
    totalBytes (a ++ b) = totalBytes a + totalBytes b := by
  unfold totalBytes
  rw [List.map_append, List.sum_append]

theorem texts_append (a b : List WorkflowEvent) : texts (a ++ b) = texts a ++ texts b := by
  unfold texts
  rw [List.map_append]

theorem checkedAddSize_eq_some {a b c : ℕ} :
    checkedAddSize a b = some c ↔ a + b = c ∧ c < 2 ^ 64 := by
  unfold checkedAddSize
  split_ifs with h
  · rw [Option.some.injEq]
    constructor
    · rintro rfl
      exact ⟨rfl, h⟩
    · exact fun hc => hc.1
  · simp only [false_iff, not_and]
    rintro rfl
    exact h

theorem foldlM_evidence (values : List (String × String)) {total n : ℕ} (htotal : total < 2 ^ 64) :
    values.foldlM (fun total value => okOr WorkflowError.limitExceeded
      ((checkedAddSize total (byteLen value.1)).bind fun sum =>
        checkedAddSize sum (byteLen value.2))) total = .ok n ↔
      n = total + totalBytes values ∧ n < 2 ^ 64 := by
  induction values generalizing total with
  | nil =>
    show Except.ok total = .ok n ↔ n = total + 0 ∧ n < 2 ^ 64
    rw [Except.ok.injEq]
    constructor
    · rintro rfl
      exact ⟨rfl, htotal⟩
    · exact fun h => h.1.symm
  | cons value values ih =>
    have hcons : totalBytes (value :: values) =
        byteLen value.1 + byteLen value.2 + totalBytes values := rfl
    rw [List.foldlM_cons, bind_eq_ok, hcons]
    constructor
    · rintro ⟨mid, hmid, hrest⟩
      rw [okOr_eq_ok, Option.bind_eq_some_iff] at hmid
      obtain ⟨sum, hsum, hmid⟩ := hmid
      rw [checkedAddSize_eq_some] at hsum hmid
      obtain ⟨h1, h2⟩ := (ih hmid.2).mp hrest
      exact ⟨by omega, h2⟩
    · rintro ⟨h1, h2⟩
      have hmid : total + byteLen value.1 + byteLen value.2 < 2 ^ 64 := by omega
      refine ⟨total + byteLen value.1 + byteLen value.2, ?_, (ih hmid).mpr ⟨by omega, h2⟩⟩
      rw [okOr_eq_ok, Option.bind_eq_some_iff]
      refine ⟨total + byteLen value.1, ?_, ?_⟩
      · rw [checkedAddSize_eq_some]; omega
      · rw [checkedAddSize_eq_some]; omega

theorem evidenceBytes_eq_ok {values : List (String × String)} {n : ℕ} :
    evidenceBytes values = .ok n ↔ n = totalBytes values ∧ n < 2 ^ 64 := by
  unfold evidenceBytes
  rw [foldlM_evidence values (by norm_num), Nat.zero_add]

/-- The size test of the guard, given a budget that a machine word holds. -/
theorem eventsFit_iff {run : Run} {events : List WorkflowEvent}
    (hmax : run.maxEvidenceBytes < 2 ^ 64) :
    eventsFit run events = true ↔ run.events.length + events.length ≤ maxEvents ∧
      totalBytes (texts (run.events ++ events)) ≤ run.maxEvidenceBytes := by
  unfold eventsFit
  rw [Bool.and_eq_true]
  apply and_congr
  · cases h : checkedAddSize run.events.length events.length with
    | some count =>
      obtain ⟨rfl, -⟩ := checkedAddSize_eq_some.mp h
      exact decide_eq_true_iff
    | none =>
      simp only [Bool.false_eq_true, false_iff, not_le]
      unfold checkedAddSize at h
      split_ifs at h with hlt
      unfold maxEvents
      omega
  · cases h : evidenceBytes (texts (run.events ++ events)) with
    | ok size =>
      obtain ⟨rfl, -⟩ := evidenceBytes_eq_ok.mp h
      exact decide_eq_true_iff
    | error e =>
      simp only [Bool.false_eq_true, false_iff, not_le]
      by_contra hle
      have hok : evidenceBytes (texts (run.events ++ events)) =
          .ok (totalBytes (texts (run.events ++ events))) :=
        evidenceBytes_eq_ok.mpr ⟨rfl, by omega⟩
      rw [h] at hok
      cases hok

/-! ## Event numbers -/

theorem numberedFrom_append (sequence : UInt64) (a b : List WorkflowEvent) :
    numberedFrom sequence (a ++ b) =
      (numberedFrom sequence a && numberedFrom (sequence + UInt64.ofNat a.length) b) := by
  induction a generalizing sequence with
  | nil =>
    show numberedFrom sequence b = (true && numberedFrom (sequence + 0) b)
    rw [UInt64.add_zero, Bool.true_and]
  | cons event a ih =>
    have hlen : sequence + 1 + UInt64.ofNat a.length =
        sequence + UInt64.ofNat (event :: a).length := by
      rw [List.length_cons, UInt64.ofNat_add, UInt64.add_assoc,
        UInt64.add_comm (UInt64.ofNat a.length)]
      rfl
    show (_ && numberedFrom (sequence + 1) (a ++ b)) =
      (_ && numberedFrom (sequence + 1) a && _)
    rw [ih, hlen]
    simp only [Bool.and_assoc]

theorem nextSequence_eq {run : Run} (h : numberedFrom 1 run.events = true) :
    nextSequence run = 1 + UInt64.ofNat run.events.length := by
  unfold nextSequence
  rcases List.eq_nil_or_concat run.events with hnil | ⟨events, event, hevents⟩
  · rw [hnil]
    rfl
  · rw [hevents, List.concat_eq_append] at h ⊢
    rw [numberedFrom_append, Bool.and_eq_true] at h
    have hlast : event.sequence = 1 + UInt64.ofNat events.length := by
      have := h.2
      simp only [numberedFrom, Bool.and_true, Bool.and_eq_true, beq_iff_eq] at this
      exact this.1
    rw [List.getLast?_concat]
    show event.sequence + 1 = _
    rw [hlast, List.length_append, UInt64.ofNat_add, ← UInt64.add_assoc]
    rfl

/-- Numbering as the code checks it, read as a law of numbers and kinds. -/
theorem numberedFrom_iff {events : List WorkflowEvent} {n : ℕ} (h : n + events.length < 2 ^ 64) :
    numberedFrom (UInt64.ofNat n) events = true ↔
      events.map (fun event => event.sequence.toNat) = List.range' n events.length ∧
        ∀ event ∈ events, event.kind ≠ "" := by
  induction events generalizing n with
  | nil => simp [numberedFrom]
  | cons event events ih =>
    rw [List.length_cons] at h
    have hnext : UInt64.ofNat n + 1 = UInt64.ofNat (n + 1) := by
      rw [UInt64.ofNat_add]
      rfl
    have hseq : event.sequence = UInt64.ofNat n ↔ event.sequence.toNat = n := by
      rw [← UInt64.toNat_inj, UInt64.toNat_ofNat_of_lt' (show n < 2 ^ 64 by omega)]
    unfold numberedFrom
    rw [hnext, Bool.and_eq_true, Bool.and_eq_true, beq_iff_eq, bne_iff_ne, ih (by omega), hseq,
      List.map_cons, List.length_cons, List.range'_succ, List.cons.injEq, List.forall_mem_cons]
    tauto

/-! ## The phases of a run -/

/-- The terminal status, its reason and the status of the attempt belong together. -/
def outcomeMatches : RunStatus → Option TerminalReason → AttemptStatus → Bool
  | .succeeded, some .completed, .succeeded => true
  | .failed, some .invocationFailed, .failed => true
  | .cancelled, some .cancelled, .cancelled => true
  | _, _, _ => false

theorem isTerminal_of_outcomeMatches {status : RunStatus} {reason : Option TerminalReason}
    {attempt : AttemptStatus} (h : outcomeMatches status reason attempt = true) :
    status.isTerminal = true := by
  unfold outcomeMatches at h
  split at h
  · rfl
  · rfl
  · rfl
  · cases h

/-- Where a run is in its life. -/
inductive Phase (run : Run) : Prop where
  | pending (revision : run.revision = 0) (status : run.status = .pending)
      (reason : run.terminalReason = none) (attempt : run.attempt = none)
      (events : run.events = [])
  | running (current : Attempt) (revision : run.revision = 1) (status : run.status = .running)
      (reason : run.terminalReason = none) (attempt : run.attempt = some current)
      (active : current.status = .running) (result : current.result = none)
      (error : current.error = none)
  | terminal (last : Attempt) (revision : run.revision = 2) (attempt : run.attempt = some last)
      (outcome : outcomeMatches run.status run.terminalReason last.status = true)
      (result : run.status = .cancelled → last.result = none)

/-- The invariant of a stored run. -/
structure Run.WellFormed (run : Run) : Prop where
  numbered : numberedFrom 1 run.events = true
  count : run.events.length ≤ maxEvents
  size : totalBytes (texts run.events) ≤ run.maxEvidenceBytes
  budget : run.maxEvidenceBytes ≤ Workflow.maxEvidenceBytes
  phase : Phase run

/-- A run that has ended keeps its last attempt, which agrees with its status. -/
theorem Run.WellFormed.ended {run : Run} (h : run.WellFormed)
    (hterminal : run.status.isTerminal = true) :
    ∃ last, run.attempt = some last ∧
      outcomeMatches run.status run.terminalReason last.status = true ∧
      (run.status = .cancelled → last.result = none) := by
  cases h.phase with
  | pending _ hstatus =>
    rw [hstatus] at hterminal
    cases hterminal
  | running _ _ hstatus =>
    rw [hstatus] at hterminal
    cases hterminal
  | terminal last _ hattempt houtcome hresult => exact ⟨last, hattempt, houtcome, hresult⟩

/-- The attempt keeps what it was started with. -/
structure Attempt.Same (first later : Attempt) : Prop where
  id : later.id = first.id
  agentId : later.agentId = first.agentId
  effectiveCapabilityCeiling : later.effectiveCapabilityCeiling = first.effectiveCapabilityCeiling
  policyDecisionDigest : later.policyDecisionDigest = first.policyDecisionDigest

theorem sameAttempt_eq_true {previous next : Attempt} :
    sameAttempt previous next = true ↔ previous.Same next ∧ previous.status = .running := by
  unfold sameAttempt
  simp only [Bool.and_eq_true, beq_iff_eq]
  constructor
  · rintro ⟨⟨⟨⟨hid, hagent⟩, hceiling⟩, hdigest⟩, hstatus⟩
    exact ⟨⟨hid.symm, hagent.symm, hceiling.symm, hdigest.symm⟩, hstatus⟩
  · rintro ⟨h, hstatus⟩
    exact ⟨⟨⟨⟨h.id.symm, h.agentId.symm⟩, h.effectiveCapabilityCeiling.symm⟩,
      h.policyDecisionDigest.symm⟩, hstatus⟩

/-- All the guard lets through: a start, or the end of a running attempt. -/
theorem changeAllowed_cases {expected status : RunStatus} {reason : Option TerminalReason}
    {previous next : Option Attempt}
    (h : changeAllowed expected status reason previous next = true) :
    (expected = .pending ∧ status = .running ∧ reason = none ∧ previous = none ∧
      ∃ first : Attempt, next = some first ∧ first.status = .running ∧ first.result = none ∧
        first.error = none) ∨
    (expected = .running ∧ ∃ current last : Attempt, previous = some current ∧ next = some last ∧
      current.Same last ∧ outcomeMatches status reason last.status = true ∧
      (status = .cancelled → last.result = none)) := by
  unfold changeAllowed at h
  split at h
  · simp only [Bool.and_eq_true, beq_iff_eq, Option.isNone_iff_eq_none] at h
    exact .inl ⟨rfl, rfl, rfl, rfl, _, rfl, h.1.1.1.2, h.1.2, h.2⟩
  · simp only [Bool.and_eq_true, beq_iff_eq] at h
    refine .inr ⟨rfl, _, _, rfl, rfl, (sameAttempt_eq_true.mp h.1.1.1).1, ?_, by rintro ⟨⟩⟩
    rw [h.1.1.2]
    rfl
  · simp only [Bool.and_eq_true, beq_iff_eq] at h
    refine .inr ⟨rfl, _, _, rfl, rfl, (sameAttempt_eq_true.mp h.1.1.1).1, ?_, by rintro ⟨⟩⟩
    rw [h.1.1.2]
    rfl
  · simp only [Bool.and_eq_true, beq_iff_eq, Option.isNone_iff_eq_none] at h
    refine .inr ⟨rfl, _, _, rfl, rfl, (sameAttempt_eq_true.mp h.1.1).1, ?_, fun _ => h.2⟩
    rw [h.1.2]
    rfl
  · cases h

/-- The guard, condition by condition. -/
theorem transitionIsValid_iff {run : Run} {expected : RunStatus} {change : Transition} :
    transitionIsValid run expected change = true ↔
      run.status = expected ∧ run.status.isTerminal = false ∧ change.events ≠ [] ∧
        eventsFit run change.events = true ∧
        numberedFrom (nextSequence run) change.events = true ∧
        changeAllowed expected change.status change.terminalReason run.attempt change.attempt =
          true := by
  unfold transitionIsValid
  split_ifs with h hnumbered
  · simp only [false_iff]
    rintro ⟨hstatus, hterminal, hevents, hfit, -⟩
    rcases h with h | h | h | h
    · exact h hstatus
    · rw [hterminal] at h
      cases h
    · exact hevents (List.isEmpty_iff.mp h)
    · rw [hfit] at h
      cases h
  · simp only [false_iff]
    rintro ⟨-, -, -, -, hseq, -⟩
    rw [hseq] at hnumbered
    cases hnumbered
  · simp only [not_or, ne_eq, not_not, Bool.not_eq_true, List.isEmpty_eq_false_iff,
      Bool.not_eq_true', Bool.not_eq_false] at h hnumbered
    constructor
    · exact fun hchange => ⟨h.1, h.2.1, h.2.2.1, h.2.2.2, hnumbered, hchange⟩
    · exact fun hall => hall.2.2.2.2.2

theorem Run.WellFormed.of_creatable {identity : StartIdentity} {run : Run}
    (h : Store.creatable identity run = true) : run.WellFormed := by
  unfold Store.creatable at h
  simp only [Bool.and_eq_true, beq_iff_eq, Option.isNone_iff_eq_none, List.isEmpty_iff,
    decide_eq_true_eq] at h
  obtain ⟨⟨⟨⟨⟨⟨⟨-, hstatus⟩, hrevision⟩, hreason⟩, hattempt⟩, hevents⟩, -⟩, hbudget⟩ := h
  refine ⟨?_, ?_, ?_, hbudget, .pending hrevision hstatus hreason hattempt hevents⟩
  · rw [hevents]
    rfl
  · rw [hevents]
    exact Nat.zero_le _
  · rw [hevents]
    exact Nat.zero_le _

/-- The step lemma of a run: what the guard accepts keeps the run well formed. -/
theorem Run.WellFormed.apply {run : Run} {expected : RunStatus} {change : Transition}
    (h : run.WellFormed) (hvalid : transitionIsValid run expected change = true) :
    (Store.apply run change).WellFormed := by
  obtain ⟨hstatus, -, -, hfit, hseq, hchange⟩ := transitionIsValid_iff.mp hvalid
  have hmax : run.maxEvidenceBytes < 2 ^ 64 :=
    lt_of_le_of_lt h.budget (by decide)
  rw [eventsFit_iff hmax] at hfit
  refine ⟨?_, ?_, hfit.2, h.budget, ?_⟩
  · show numberedFrom 1 (run.events ++ change.events) = true
    rw [numberedFrom_append, Bool.and_eq_true]
    exact ⟨h.numbered, by rw [← nextSequence_eq h.numbered]; exact hseq⟩
  · show (run.events ++ change.events).length ≤ maxEvents
    rw [List.length_append]
    exact hfit.1
  · rcases changeAllowed_cases hchange with
      ⟨rfl, hto, hreason, -, first, hnext, hactive, hresult, herror⟩ |
      ⟨rfl, current, last, -, hnext, -, houtcome, hresult⟩
    · cases h.phase with
      | pending hrevision =>
        exact .running first (by show run.revision + 1 = 1; rw [hrevision]; rfl) hto hreason hnext
          hactive hresult herror
      | running _ _ hrunning => rw [hstatus] at hrunning; cases hrunning
      | terminal _ _ _ houtcome =>
        have := isTerminal_of_outcomeMatches houtcome
        rw [hstatus] at this
        cases this
    · cases h.phase with
      | pending _ hpending => rw [hstatus] at hpending; cases hpending
      | running _ hrevision =>
        exact .terminal last (by show run.revision + 1 = 2; rw [hrevision]; rfl) hnext houtcome
          hresult
      | terminal _ _ _ houtcome =>
        have := isTerminal_of_outcomeMatches houtcome
        rw [hstatus] at this
        cases this

/-! ## What one call does to the store -/

namespace Store

/-- Every effect a call of the store can have. -/
inductive Effect (s : State) : Call → State → Prop where
  | unchanged (call : Call) : Effect s call s
  | created (identity : StartIdentity) (run : Run) (fresh : s.identities[identity]? = none)
      (free : s.keys.contains identity.key = false) (creatable : creatable identity run = true) :
      Effect s (.createOrReturn identity run)
        { runs := s.runs.insert run.id run
          identities := s.identities.insert identity run.id
          keys := s.keys.insert identity.key identity }
  | applied (tenant runId : LogicalId) (status : RunStatus) (change : Transition) (current : Run)
      (found : s.runs[runId]? = some current) (owner : current.context.tenantId = tenant)
      (valid : transitionIsValid current status change = true) :
      Effect s (.transition tenant runId current.revision status change)
        { s with runs := s.runs.insert runId (apply current change) }

theorem step_effect {s s' : State} {call : Call} (h : (store.step s call).2 = s') :
    Effect s call s' := by
  subst h
  cases call with
  | createOrReturn identity run =>
    show Effect s _ (createOrReturn s identity run).2
    unfold createOrReturn
    split
    · exact .unchanged _
    · rename_i hfresh
      split_ifs with hkey hcreatable
      · exact .unchanged _
      · exact .unchanged _
      · exact .created identity run hfresh (Bool.not_eq_true _ ▸ hkey)
          (Bool.not_eq_false _ ▸ fun h => hcreatable (by rw [h]; rfl))
  | get tenant runId => exact .unchanged _
  | list tenant => exact .unchanged _
  | transition tenant runId revision status change =>
    show Effect s _ (transition s tenant runId revision status change).2
    unfold transition
    split
    · exact .unchanged _
    · rename_i current hfound
      split_ifs with htenant hguard
      · exact .unchanged _
      · exact .unchanged _
      · simp only [not_or, ne_eq, not_not, Bool.not_eq_true', Bool.not_eq_false] at htenant hguard
        obtain ⟨rfl, hvalid⟩ := hguard
        exact .applied tenant runId status change current hfound htenant hvalid

/-! ## Whole runs of the store -/

/-- The invariant of the store. -/
def State.WellFormed (s : State) : Prop :=
  ∀ (id : LogicalId) (run : Run), s.runs[id]? = some run → run.WellFormed

theorem State.WellFormed.step {s : State} (h : s.WellFormed) (call : Call) :
    (store.step s call).2.WellFormed := by
  intro id run
  generalize hs' : (store.step s call).2 = s'
  cases step_effect hs' with
  | unchanged => exact h id run
  | created identity new _ _ hcreatable =>
    rw [Std.ExtTreeMap.getElem?_insert]
    split_ifs with hid
    · rintro ⟨⟩
      exact .of_creatable hcreatable
    · exact h id run
  | applied tenant runId status change current hfound _ hvalid =>
    rw [Std.ExtTreeMap.getElem?_insert]
    split_ifs with hid
    · rintro ⟨⟩
      exact (h runId current hfound).apply hvalid
    · exact h id run

theorem wellFormed_final (calls : List Call) : (store.final .new calls).WellFormed :=
  Machine.invariant_final (fun _ call h => h.step call) (fun _ _ h => nomatch h) calls

/-- The id under which a call may create a run. -/
def Call.createdId? : Call → Option LogicalId
  | .createOrReturn _ run => some run.id
  | _ => none

theorem mem_createdIds {calls : List Call} {id : LogicalId} {run : Run}
    (h : (store.final .new calls).runs[id]? = some run) : id ∈ calls.filterMap Call.createdId? := by
  induction calls using List.reverseRecOn generalizing run with
  | nil => cases h
  | append_singleton calls call ih =>
    rw [Machine.final_concat] at h
    rw [List.filterMap_append, List.mem_append]
    revert h
    generalize hs' : (store.step (store.final .new calls) call).2 = s'
    cases step_effect hs' with
    | unchanged => exact fun h => .inl (ih h)
    | created identity new =>
      rw [Std.ExtTreeMap.getElem?_insert]
      split_ifs with hid
      · rintro -
        rw [compare_eq_iff_eq] at hid
        exact .inr (List.mem_filterMap.mpr ⟨_, List.mem_singleton_self _, congrArg some hid⟩)
      · exact fun h => .inl (ih h)
    | applied tenant runId status change current hfound =>
      rw [Std.ExtTreeMap.getElem?_insert]
      split_ifs with hid
      · rintro -
        rw [compare_eq_iff_eq] at hid
        exact .inl (ih (hid ▸ hfound))
      · exact fun h => .inl (ih h)

/-- `later` is a state that `run` may reach. -/
structure Continues (run later : Run) : Prop where
  attempt : ∀ first, run.attempt = some first → ∃ last, later.attempt = some last ∧ first.Same last
  terminal : run.status.isTerminal = true → later = run

theorem Continues.refl (run : Run) : Continues run run :=
  ⟨fun first h => ⟨first, h, rfl, rfl, rfl, rfl⟩, fun _ => rfl⟩

theorem Continues.trans {a b c : Run} (hab : Continues a b) (hbc : Continues b c) :
    Continues a c := by
  refine ⟨fun first hfirst => ?_, fun hterminal => ?_⟩
  · obtain ⟨mid, hmid, h1⟩ := hab.attempt first hfirst
    obtain ⟨last, hlast, h2⟩ := hbc.attempt mid hmid
    exact ⟨last, hlast, h2.id.trans h1.id, h2.agentId.trans h1.agentId,
      h2.effectiveCapabilityCeiling.trans h1.effectiveCapabilityCeiling,
      h2.policyDecisionDigest.trans h1.policyDecisionDigest⟩
  · obtain rfl := hab.terminal hterminal
    exact hbc.terminal hterminal

theorem Continues.of_valid {run : Run} {status : RunStatus} {change : Transition}
    (h : transitionIsValid run status change = true) : Continues run (apply run change) := by
  obtain ⟨-, hterminal, -, -, -, hchange⟩ := transitionIsValid_iff.mp h
  refine ⟨fun first hfirst => ?_, fun h => ?_⟩
  · rcases changeAllowed_cases hchange with ⟨-, -, -, hnone, -⟩ |
      ⟨-, current, last, hcurrent, hlast, hsame, -⟩
    · rw [hfirst] at hnone
      cases hnone
    · rw [hfirst] at hcurrent
      obtain rfl := Option.some.inj hcurrent
      exact ⟨last, hlast, hsame⟩
  · rw [hterminal] at h
    cases h

/-- A call that does not create the id again leaves a run or moves it on. -/
theorem step_continues {s : State} {call : Call} {id : LogicalId} {run : Run}
    (hrun : s.runs[id]? = some run) (hid : call.createdId? ≠ some id) :
    ∃ later, (store.step s call).2.runs[id]? = some later ∧ Continues run later := by
  generalize hs' : (store.step s call).2 = s'
  cases step_effect hs' with
  | unchanged => exact ⟨run, hrun, .refl run⟩
  | created identity new =>
    refine ⟨run, ?_, .refl run⟩
    rw [Std.ExtTreeMap.getElem?_insert, if_neg]
    · exact hrun
    · rw [compare_eq_iff_eq]
      exact fun h => hid (congrArg some h)
  | applied tenant runId status change current hfound _ hvalid =>
    rw [Std.ExtTreeMap.getElem?_insert]
    split_ifs with heq
    · rw [compare_eq_iff_eq] at heq
      rw [heq, hrun] at hfound
      obtain rfl := Option.some.inj hfound
      exact ⟨_, rfl, .of_valid hvalid⟩
    · exact ⟨run, hrun, .refl run⟩

theorem final_continues {s : State} {calls : List Call} {id : LogicalId} {run : Run}
    (hrun : s.runs[id]? = some run) (hid : id ∉ calls.filterMap Call.createdId?) :
    ∃ later, (store.final s calls).runs[id]? = some later ∧ Continues run later := by
  induction calls generalizing s run with
  | nil => exact ⟨run, hrun, .refl run⟩
  | cons call calls ih =>
    have hcall : call.createdId? ≠ some id := fun h =>
      hid (List.mem_filterMap.mpr ⟨call, List.mem_cons_self, h⟩)
    obtain ⟨mid, hmid, h1⟩ := step_continues hrun hcall
    have hrest : id ∉ calls.filterMap Call.createdId? := by
      rintro h
      obtain ⟨other, hmem, hother⟩ := List.mem_filterMap.mp h
      exact hid (List.mem_filterMap.mpr ⟨other, List.mem_cons_of_mem _ hmem, hother⟩)
    obtain ⟨later, hlater, h2⟩ := ih hmid hrest
    exact ⟨later, hlater, h1.trans h2⟩

end Store

/-! ## The laws -/

/-- The laws of a stored run, field by field. -/
structure Run.Lawful (run : Run) : Prop where
  revisions : run.revision = 0 ∨ run.revision = 1 ∨ run.revision = 2
  pending : run.revision = 0 ↔ run.status = .pending ∧ run.attempt = none ∧ run.events = []
  running : run.revision = 1 ↔ run.status = .running ∧
    (∃ attempt, run.attempt = some attempt ∧ attempt.status = .running) ∧
    run.terminalReason = none
  terminal : run.revision = 2 ↔ run.status.isTerminal = true ∧
    ∃ attempt, run.attempt = some attempt ∧
      outcomeMatches run.status run.terminalReason attempt.status = true
  sequences : run.events.map (fun event => event.sequence.toNat) = List.range' 1 run.events.length
  kinds : ∀ event ∈ run.events, event.kind ≠ ""
  count : run.events.length ≤ maxEvents
  size : totalBytes (texts run.events) ≤ run.maxEvidenceBytes

theorem Run.WellFormed.lawful {run : Run} (h : run.WellFormed) : run.Lawful := by
  have hlen : 1 + run.events.length < 2 ^ 64 := by
    have := h.count
    unfold maxEvents at this
    omega
  obtain ⟨hsequences, hkinds⟩ := (numberedFrom_iff hlen).mp h.numbered
  cases h.phase with
  | pending hrevision hstatus hreason hattempt hevents =>
    refine ⟨.inl hrevision, ?_, ?_, ?_, hsequences, hkinds, h.count, h.size⟩
    · exact iff_of_true hrevision ⟨hstatus, hattempt, hevents⟩
    · rw [hrevision, hstatus]
      exact iff_of_false (by decide) (fun h => nomatch h.1)
    · rw [hrevision, hstatus]
      exact iff_of_false (by decide) (fun h => nomatch h.1)
  | running current hrevision hstatus hreason hattempt hactive =>
    refine ⟨.inr (.inl hrevision), ?_, ?_, ?_, hsequences, hkinds, h.count, h.size⟩
    · rw [hrevision, hstatus]
      exact iff_of_false (by decide) (fun h => nomatch h.1)
    · exact iff_of_true hrevision ⟨hstatus, ⟨current, hattempt, hactive⟩, hreason⟩
    · rw [hrevision, hstatus]
      exact iff_of_false (by decide) (fun h => nomatch h.1)
  | terminal last hrevision hattempt houtcome =>
    have hterminal := isTerminal_of_outcomeMatches houtcome
    refine ⟨.inr (.inr hrevision), ?_, ?_, ?_, hsequences, hkinds, h.count, h.size⟩
    · rw [hrevision]
      refine iff_of_false (by decide) fun h => ?_
      rw [h.1] at hterminal
      cases hterminal
    · rw [hrevision]
      refine iff_of_false (by decide) fun h => ?_
      rw [h.1] at hterminal
      cases hterminal
    · exact iff_of_true hrevision ⟨hterminal, last, hattempt, houtcome⟩

namespace Store

/-- The laws of every reachable store: each stored run is lawful, and from any point on a run stays
stored, its attempt keeps what it was started with and a terminal run does not change. -/
theorem lifecycle (calls : List Call) (hids : (calls.filterMap Call.createdId?).Nodup) :
    (∀ (id : LogicalId) (run : Run),
      (store.final .new calls).runs[id]? = some run → run.Lawful) ∧
    ∀ pre post : List Call, calls = pre ++ post → ∀ (id : LogicalId) (run : Run),
      (store.final .new pre).runs[id]? = some run →
        ∃ later, (store.final .new calls).runs[id]? = some later ∧
          (∀ first, run.attempt = some first →
            ∃ last, later.attempt = some last ∧ first.Same last) ∧
          (run.status.isTerminal = true → later = run) := by
  refine ⟨fun id run hrun => (wellFormed_final calls id run hrun).lawful, ?_⟩
  rintro pre post rfl id run hrun
  rw [List.filterMap_append] at hids
  have hid : id ∉ post.filterMap Call.createdId? := fun h =>
    List.disjoint_of_nodup_append hids (mem_createdIds hrun) h
  obtain ⟨later, hlater, hcontinues⟩ := final_continues hrun hid
  rw [← Machine.final_append] at hlater
  exact ⟨later, hlater, hcontinues.attempt, hcontinues.terminal⟩

/-- A run created, created again by a retry under another id and started. -/
def sampleCalls : List Call :=
  let id : LogicalId := ⟨"r", by decide⟩
  let identity : StartIdentity := ⟨⟨id, id, .v1, "k"⟩, "d"⟩
  let run : Run :=
    { id := id, context := ⟨id, id, id, id⟩, workflowId := id, workflowVersion := .v1,
      runKey := "k", inputDigest := "d", maxEvidenceBytes := 64, status := .pending, revision := 0,
      terminalReason := none, attempt := none, events := [] }
  let attempt : Attempt :=
    { id := id, agentId := ⟨"a", by decide⟩,
      effectiveCapabilityCeiling := ⟨[], false, false, false, false⟩,
      policyDecisionDigest := "".pushn '0' 64, capabilityScopeDigest := none, status := .running,
      result := none, error := none }
  [.createOrReturn identity run, .createOrReturn identity { run with id := ⟨"s", by decide⟩ },
    .transition id id 0 .pending ⟨.running, none, some attempt, [⟨1, "started", ""⟩]⟩]

theorem lifecycle_sampleCalls :
    (sampleCalls.filterMap Call.createdId?).Nodup ∧
    ((store.final .new sampleCalls).runs[(⟨"r", by decide⟩ : LogicalId)]?.map Run.revision) =
      some 1 ∧
    ∀ (id : LogicalId) (run : Run),
      (store.final .new sampleCalls).runs[id]? = some run → run.Lawful :=
  ⟨by decide, by decide +kernel, (lifecycle sampleCalls (by decide)).1⟩

end Store

end RustFactory.Workflow
