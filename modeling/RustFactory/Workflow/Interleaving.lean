import RustFactory.Workflow.Lifecycle
import RustFactory.Workflow.Runner

/-!
# Workflows: interleaved calls

What one step of one call can do to the store (`advance_move`), and the invariant that all
interleavings keep: the indexes agree with the runs, every run has at most one call executing it,
and the log of creations and invocations has no start key twice.
-/

namespace RustFactory.Workflow

open RustFactory.Lib RustFactory.Agent

/-! ## Preparation -/

/-- The identity under which a run is indexed. -/
def Run.identity (run : Run) : StartIdentity :=
  ⟨⟨run.context.tenantId, run.workflowId, run.workflowVersion, run.runKey⟩, run.inputDigest⟩

/-- Everything a successful preparation has established. -/
theorem prepare_eq_ok {p : Platform} {call : StartCall} {prepared : Prepared}
    (h : prepare p call = .ok prepared) :
    (validateInvocationPolicy call.policy.effectiveCapabilityCeiling
        call.policy.policyDecisionDigest).isOk = true ∧
      validateDefinition prepared.definition = .ok () ∧
      p.derivedId "run" (identityMaterial prepared.identity) = .ok prepared.run.id ∧
      prepared.run = pendingRun call prepared.definition prepared.identity prepared.run.id ∧
      prepared.run.identity = prepared.identity := by
  unfold prepare at h
  obtain ⟨⟨⟩, hpolicy, h⟩ := bind_eq_ok.mp h
  split_ifs at h with hkey
  obtain ⟨resolved, -, h⟩ := bind_eq_ok.mp h
  obtain ⟨definition, -, h⟩ := bind_eq_ok.mp h
  obtain ⟨⟨⟩, hvalidate, h⟩ := bind_eq_ok.mp h
  obtain ⟨canonicalInput, -, h⟩ := bind_eq_ok.mp h
  obtain ⟨id, hid, h⟩ := bind_eq_ok.mp h
  obtain ⟨⟨⟩, hdefinition, -⟩ := bind_eq_ok.mp hvalidate
  cases h
  refine ⟨?_, hdefinition, hid, rfl, rfl⟩
  rw [hpolicy]
  rfl

/-- The definition of a start is the one that the catalog has answered. -/
theorem resolved_of_prepare {p : Platform} {call : StartCall} {prepared : Prepared}
    (h : prepare p call = .ok prepared) : call.resolved = .ok (some prepared.definition) := by
  unfold prepare at h
  obtain ⟨⟨⟩, -, h⟩ := bind_eq_ok.mp h
  split_ifs at h with hkey
  obtain ⟨resolved, hresolved, h⟩ := bind_eq_ok.mp h
  obtain ⟨definition, hdefinition, h⟩ := bind_eq_ok.mp h
  obtain ⟨⟨⟩, -, h⟩ := bind_eq_ok.mp h
  obtain ⟨canonicalInput, -, h⟩ := bind_eq_ok.mp h
  obtain ⟨id, -, h⟩ := bind_eq_ok.mp h
  cases h
  rw [hresolved, okOr_eq_ok.mp hdefinition]

theorem validateDefinition_eq_ok {definition : WorkflowDefinition} :
    validateDefinition definition = .ok () ↔ definition.budget.maxAttempts = 1 ∧
      0 < definition.budget.maxInputBytes ∧ definition.budget.maxInputBytes ≤ maxJsonInputBytes ∧
      minTerminalEvidenceBytes ≤ definition.budget.maxEvidenceBytes ∧
      definition.budget.maxEvidenceBytes ≤ maxEvidenceBytes := by
  unfold validateDefinition
  split_ifs with h
  · exact iff_of_true rfl h
  · exact iff_of_false (fun h => nomatch h) h

theorem creatable_of_prepare {p : Platform} {call : StartCall} {prepared : Prepared}
    (h : prepare p call = .ok prepared) :
    Store.creatable prepared.identity prepared.run = true := by
  obtain ⟨-, hdefinition, -, hrun, hidentity⟩ := prepare_eq_ok h
  obtain ⟨-, -, -, hmin, hmax⟩ := validateDefinition_eq_ok.mp hdefinition
  have hpos : 0 < minTerminalEvidenceBytes := by decide +kernel
  rw [← hidentity, hrun]
  unfold Store.creatable Run.identity pendingRun
  simp only [beq_self_eq_true, Bool.true_and, Bool.and_true, Option.isNone_none, List.isEmpty_nil,
    Bool.and_eq_true, bne_iff_ne, decide_eq_true_eq]
  exact ⟨by omega, hmax⟩

theorem id_eq_of_identity_eq {p : Platform} {call call' : StartCall} {a b : Prepared}
    (ha : prepare p call = .ok a) (hb : prepare p call' = .ok b) (h : a.identity = b.identity) :
    a.run.id = b.run.id := by
  have h1 := (prepare_eq_ok ha).2.2.1
  have h2 := (prepare_eq_ok hb).2.2.1
  rw [h, h2] at h1
  exact (Except.ok.inj h1).symm

/-! ## What one step does -/

/-- The start that a call is executing. -/
def Pc.prepared? : Pc → Option Prepared
  | .created prepared _ | .started prepared _ _ | .numbered prepared _ _ _ _
  | .registered prepared _ _ _ _ | .invoking prepared _ _ _ | .invoked prepared _ _ _
  | .failing prepared _ _ _ => some prepared
  | _ => none

/-- The invoker has not been called yet. -/
def Pc.beforeInvoke : Pc → Bool
  | .ready | .created .. | .started .. | .numbered .. | .registered .. => true
  | _ => false

/-- The run that a call works on. -/
def Pc.target? : Pc → Option LogicalId
  | .created _ run | .signalling _ run | .cancelling _ run => some run.id
  | .started _ _ active | .numbered _ _ active _ _ | .registered _ _ active _ _
  | .invoking _ active _ _ | .invoked _ active _ _ | .failing _ active _ _ => some active.id
  | _ => none

/-- The transitions that the runner builds. -/
inductive Built : Transition → Prop where
  | started (change : Transition) (status : change.status = .running)
      (events : change.events = [⟨1, "started", ""⟩]) : Built change
  | finished (change : Transition) (status : change.status = .succeeded ∨ change.status = .failed) :
      Built change
  | cancelled (change : Transition) (sequence : UInt64) (status : change.status = .cancelled)
      (events : change.events = [⟨sequence, "cancelled", ""⟩]) : Built change

/-- A call is done with its run, or goes on with the same start on the run `target`. -/
inductive Goes (target : Option LogicalId) (pc pc' : Pc) : Prop where
  | done (prepared : pc'.prepared? = none) (target : pc'.target? = none)
  | on (prepared : pc'.prepared? = pc.prepared?) (target : pc'.target? = target)
      (before : pc'.beforeInvoke = true → pc.beforeInvoke = true)

/-- All that a step of a call can do to the store and to the log. -/
inductive Move (p : Platform) (call : Call) (s : Shared) : Pc → Pc → Shared → List Event → Prop
  | quiet {pc pc' : Pc} {s' : Shared} (store : s'.store = s.store)
      (goes : Goes pc.target? pc pc') :
      Move p call s pc pc' s' []
  | create {start : StartCall} {prepared : Prepared} {s' : Shared} (isStart : call = .start start)
      (prepare : prepare p start = .ok prepared)
      (fresh : s.store.identities[prepared.identity]? = none)
      (free : s.store.keys.contains prepared.identity.key = false)
      (store : s'.store =
        { runs := s.store.runs.insert prepared.run.id prepared.run
          identities := s.store.identities.insert prepared.identity prepared.run.id
          keys := s.store.keys.insert prepared.identity.key prepared.identity }) :
      Move p call s .ready (.created prepared prepared.run) s'
        [.created prepared.identity prepared.run]
  | read {tenant runId : LogicalId} {run : Run} (isCancel : call = .cancel tenant runId)
      (found : s.store.runs[runId]? = some run) :
      Move p call s .ready (.signalling tenant run) s []
  | invoke {prepared : Prepared} {attemptId : LogicalId} {active : Run}
      {evidence : EvidenceCollector} {token : UInt64} {request : AgentInvocationRequest} :
      Move p call s (.registered prepared attemptId active evidence token)
        (.invoking prepared active evidence token) s [.invoked prepared.identity request]
  | apply {pc pc' : Pc} {s' : Shared} {id : LogicalId} {current : Run} {status : RunStatus}
      {change : Transition} (target : pc.target? = some id)
      (found : s.store.runs[id]? = some current)
      (valid : transitionIsValid current status change = true) (built : Built change)
      (byCancel : ∀ tenant runId, call = .cancel tenant runId → change.status = .cancelled)
      (store : s'.store =
        { s.store with runs := s.store.runs.insert id (Store.apply current change) })
      (goes : Goes (some current.id) pc pc') :
      Move p call s pc pc' s' [.applied (Store.apply current change)]

theorem Shared.transition_cases (s : Shared) (tenant runId : LogicalId) (revision : UInt64)
    (status : RunStatus) (change : Transition) :
    s.transition tenant runId revision status change = (.notFound, s) ∨
    s.transition tenant runId revision status change = (.conflict, s) ∨
    ∃ current, s.store.runs[runId]? = some current ∧ current.context.tenantId = tenant ∧
      current.revision = revision ∧ transitionIsValid current status change = true ∧
      s.transition tenant runId revision status change =
        (.applied (Store.apply current change),
          { s with store :=
            { s.store with runs := s.store.runs.insert runId (Store.apply current change) } }) := by
  unfold Shared.transition Store.transition
  split
  · exact .inl rfl
  · rename_i current hfound
    split_ifs with htenant hguard
    · exact .inl rfl
    · exact .inr (.inl rfl)
    · simp only [not_or, ne_eq, not_not, Bool.not_eq_true', Bool.not_eq_false] at htenant hguard
      exact .inr (.inr ⟨current, hfound, htenant, hguard.1, hguard.2, rfl⟩)

/-- The five answers to a start that reaches the store. -/
theorem createOrReturn_cases (s : Store.State) (identity : StartIdentity) (run : Run) :
    (∃ id existing, s.identities[identity]? = some id ∧ s.runs[id]? = some existing ∧
      Store.createOrReturn s identity run = (.ok (.existing existing), s)) ∨
    (∃ id, s.identities[identity]? = some id ∧ s.runs[id]? = none ∧
      Store.createOrReturn s identity run = (.error .adapterFailure, s)) ∨
    (s.identities[identity]? = none ∧ s.keys.contains identity.key = true ∧
      Store.createOrReturn s identity run = (.ok .conflict, s)) ∨
    (s.identities[identity]? = none ∧ s.keys.contains identity.key = false ∧
      Store.creatable identity run = false ∧
      Store.createOrReturn s identity run = (.error .invalidRequest, s)) ∨
    (s.identities[identity]? = none ∧ s.keys.contains identity.key = false ∧
      Store.creatable identity run = true ∧
      Store.createOrReturn s identity run = (.ok (.created run),
        { runs := s.runs.insert run.id run
          identities := s.identities.insert identity run.id
          keys := s.keys.insert identity.key identity })) := by
  unfold Store.createOrReturn
  cases hidentity : s.identities[identity]? with
  | some id =>
    cases hrun : s.runs[id]? with
    | some existing =>
      refine .inl ⟨id, existing, rfl, hrun, ?_⟩
      simp only [hrun]
      rfl
    | none =>
      refine .inr (.inl ⟨id, rfl, hrun, ?_⟩)
      simp only [hrun]
      rfl
  | none =>
    cases hkey : s.keys.contains identity.key with
    | true => exact .inr (.inr (.inl ⟨rfl, rfl, rfl⟩))
    | false =>
      cases hcreatable : Store.creatable identity run with
      | false => exact .inr (.inr (.inr (.inl ⟨rfl, rfl, rfl, rfl⟩)))
      | true => exact .inr (.inr (.inr (.inr ⟨rfl, rfl, rfl, rfl⟩)))

theorem Shared.unregister_store (s : Shared) (runId : LogicalId) (token : UInt64) :
    (s.unregister runId token).store = s.store := by
  unfold Shared.unregister
  split_ifs
  · rfl
  · rfl

theorem built_of_finishFailure {run : Run} {error : String} {change : Transition}
    (h : finishFailure run error = some change) : Built change := by
  unfold finishFailure at h
  obtain ⟨attempt, -, rfl⟩ := Option.map_eq_some_iff.mp h
  exact .finished _ (.inr rfl)

theorem built_of_terminalTransition {active : Run} {evidence : EvidenceCollector}
    {outcome : Except WorkflowError AgentInvocationResult} {change : Transition}
    {error : Option WorkflowError}
    (h : terminalTransition active evidence outcome = some (change, error)) : Built change := by
  unfold terminalTransition at h
  cases outcome with
  | error e =>
    obtain ⟨change', hchange, heq⟩ := Option.map_eq_some_iff.mp h
    cases heq
    exact built_of_finishFailure hchange
  | ok result =>
    cases hsuccess : finishSuccess active result evidence with
    | error e =>
      simp only [hsuccess] at h
      obtain ⟨change', hchange, heq⟩ := Option.map_eq_some_iff.mp h
      cases heq
      exact built_of_finishFailure hchange
    | ok change' =>
      simp only [hsuccess] at h
      cases h
      unfold finishSuccess at hsuccess
      obtain ⟨output, -, hsuccess⟩ := bind_eq_ok.mp hsuccess
      obtain ⟨attempt, -, hsuccess⟩ := bind_eq_ok.mp hsuccess
      cases hsuccess
      exact .finished _ (.inl rfl)

section Steps

variable {p : Platform} {s : Shared}

theorem advanceStart_move (call : StartCall) (pc : Pc) :
    Move p (.start call) s pc (advanceStart p call s pc).1 (advanceStart p call s pc).2.1
      (advanceStart p call s pc).2.2 := by
  cases pc with
  | ready =>
    cases hprepare : prepare p call with
    | error e =>
      simp only [advanceStart, hprepare]
      exact .quiet rfl (.done rfl rfl)
    | ok prepared =>
      simp only [advanceStart, hprepare]
      rcases createOrReturn_cases s.store prepared.identity prepared.run with
        ⟨id, existing, -, -, h⟩ | ⟨id, -, -, h⟩ | ⟨-, -, h⟩ | ⟨-, -, -, h⟩ | ⟨hfresh, hfree, -, h⟩
      · rw [h]
        exact .quiet rfl (.done rfl rfl)
      · rw [h]
        exact .quiet rfl (.done rfl rfl)
      · rw [h]
        exact .quiet rfl (.done rfl rfl)
      · rw [h]
        exact .quiet rfl (.done rfl rfl)
      · rw [h]
        exact .create rfl hprepare hfresh hfree rfl
  | created prepared run =>
    cases hid : p.derivedId "attempt" (run.id.asStr ++ ":1") with
    | error e =>
      simp only [advanceStart, hid]
      exact .quiet rfl (.done rfl rfl)
    | ok attemptId =>
      simp only [advanceStart, hid]
      rcases s.transition_cases run.context.tenantId run.id run.revision .pending
        (startedTransition attemptId prepared.definition.step.agentId call.policy) with
        h | h | ⟨current, hfound, -, -, hvalid, h⟩
      · rw [h]
        exact .quiet rfl (.done rfl rfl)
      · rw [h]
        exact .quiet rfl (.done rfl rfl)
      · rw [h]
        exact .apply rfl hfound hvalid (.started _ rfl rfl) nofun rfl (.on rfl rfl fun _ => rfl)
  | started prepared attemptId active =>
    cases hnew : EvidenceCollector.new active.maxEvidenceBytes active.events with
    | error e =>
      simp only [advanceStart, hnew]
      exact .quiet rfl (.on rfl rfl nofun)
    | ok evidence =>
      cases hnext : checkedAdd s.nextRegistration 1 with
      | none =>
        simp only [advanceStart, hnew, hnext]
        exact .quiet rfl (.on rfl rfl nofun)
      | some next =>
        simp only [advanceStart, hnew, hnext]
        exact .quiet rfl (.on rfl rfl fun _ => rfl)
  | numbered prepared attemptId active evidence token =>
    exact .quiet rfl (.on rfl rfl fun _ => rfl)
  | registered prepared attemptId active evidence token =>
    simp only [advanceStart]
    split
    · exact .quiet (s.unregister_store _ _) (.on rfl rfl nofun)
    · split_ifs
      · exact .invoke
      · exact .quiet (s.unregister_store _ _) (.on rfl rfl nofun)
  | invoking prepared active evidence token =>
    cases houtcome : call.outcome with
    | none =>
      simp only [advanceStart, houtcome]
      exact .quiet (s.unregister_store _ _) (.done rfl rfl)
    | some outcome =>
      simp only [advanceStart, houtcome]
      exact .quiet (s.unregister_store _ _) (.on rfl rfl nofun)
  | invoked prepared active evidence outcome =>
    cases hterminal : terminalTransition active evidence outcome with
    | none =>
      simp only [advanceStart, hterminal]
      exact .quiet rfl (.done rfl rfl)
    | some result =>
      obtain ⟨change, resultError⟩ := result
      simp only [advanceStart, hterminal]
      rcases s.transition_cases active.context.tenantId active.id active.revision .running change
        with h | h | ⟨current, hfound, -, -, hvalid, h⟩
      · rw [h]
        exact .quiet rfl (.done rfl rfl)
      · rw [h]
        exact .quiet rfl (.done rfl rfl)
      · rw [h]
        exact .apply rfl hfound hvalid (built_of_terminalTransition hterminal) nofun rfl
          (.done rfl rfl)
  | failing prepared active reason error =>
    cases hfailure : finishFailure active reason with
    | none =>
      simp only [advanceStart, hfailure]
      exact .quiet rfl (.done rfl rfl)
    | some change =>
      simp only [advanceStart, hfailure]
      rcases s.transition_cases active.context.tenantId active.id active.revision .running change
        with h | h | ⟨current, hfound, -, -, hvalid, h⟩
      · rw [h]
        exact .quiet rfl (.done rfl rfl)
      · rw [h]
        exact .quiet rfl (.done rfl rfl)
      · rw [h]
        exact .apply rfl hfound hvalid (built_of_finishFailure hfailure) nofun rfl (.done rfl rfl)
  | rereading tenant runId => exact .quiet rfl (.done rfl rfl)
  | signalling tenant run => exact .quiet rfl (.on rfl rfl id)
  | cancelling tenant run => exact .quiet rfl (.on rfl rfl id)
  | returned result => exact .quiet rfl (.done rfl rfl)
  | dropped => exact .quiet rfl (.done rfl rfl)
  | panicked => exact .quiet rfl (.done rfl rfl)

theorem advanceCancel_move (tenant runId : LogicalId) (pc : Pc) :
    Move p (.cancel tenant runId) s pc (advanceCancel tenant runId s pc).1
      (advanceCancel tenant runId s pc).2.1 (advanceCancel tenant runId s pc).2.2 := by
  have hstay : Goes pc.target? pc pc := .on rfl rfl id
  cases pc with
  | ready =>
    simp only [advanceCancel]
    split
    · exact .quiet rfl (.done rfl rfl)
    · rename_i run hrun
      split_ifs
      · exact .quiet rfl (.done rfl rfl)
      · exact .read rfl (Option.filter_eq_some_iff.mp hrun).1
  | signalling tenant run =>
    simp only [advanceCancel]
    split_ifs
    · exact .quiet rfl (.on rfl rfl nofun)
    · exact .quiet rfl (.done rfl rfl)
  | cancelling tenant run =>
    simp only [advanceCancel]
    rcases s.transition_cases tenant run.id run.revision .running (cancelledTransition run) with
      h | h | ⟨current, hfound, -, -, hvalid, h⟩
    · rw [h]
      exact .quiet rfl (.done rfl rfl)
    · rw [h]
      exact .quiet rfl (.done rfl rfl)
    · rw [h]
      exact .apply rfl hfound hvalid (.cancelled _ _ rfl rfl) (fun _ _ _ => rfl) rfl (.done rfl rfl)
  | rereading tenant runId => exact .quiet rfl (.done rfl rfl)
  | created | started | numbered | registered | invoking | invoked | failing | returned | dropped
  | panicked => exact .quiet rfl hstay

theorem advance_move (call : Call) (pc : Pc) :
    Move p call s pc (advance p call s pc).1 (advance p call s pc).2.1
      (advance p call s pc).2.2 := by
  cases call with
  | start call => exact advanceStart_move call pc
  | cancel tenant runId => exact advanceCancel_move tenant runId pc

end Steps

/-! ## The indexes of the store -/

section Family

variable {γ : Type} {p : Platform} {calls : γ → Call}

/-- Different identities among the starts of a family have different run ids. -/
def NoCollision (p : Platform) (calls : γ → Call) : Prop :=
  ∀ t t' call call' prepared prepared', calls t = .start call → calls t' = .start call' →
    prepare p call = .ok prepared → prepare p call' = .ok prepared' →
      prepared.run.id = prepared'.run.id → prepared.identity = prepared'.identity

/-- The indexes of the store agree with its runs, all of which the family has created. -/
structure Indexed (p : Platform) (calls : γ → Call) (s : Store.State) : Prop where
  keyed : ∀ (id : LogicalId) (run : Run), s.runs[id]? = some run → run.id = id
  origin : ∀ (id : LogicalId) (run : Run), s.runs[id]? = some run →
    ∃ t call prepared, calls t = .start call ∧ prepare p call = .ok prepared ∧
      prepared.run.id = id ∧ prepared.identity = run.identity
  found : ∀ (id : LogicalId) (run : Run), s.runs[id]? = some run →
    s.identities[run.identity]? = some id
  stored : ∀ (identity : StartIdentity) (id : LogicalId), s.identities[identity]? = some id →
    ∃ run, s.runs[id]? = some run ∧ run.identity = identity
  byKey : ∀ (identity : StartIdentity) (id : LogicalId), s.identities[identity]? = some id →
    s.keys[identity.key]? = some identity

theorem Indexed.new : Indexed p calls .new := by
  refine ⟨fun _ _ h => ?_, fun _ _ h => ?_, fun _ _ h => ?_, fun _ _ h => ?_, fun _ _ h => ?_⟩
  · cases h
  · cases h
  · cases h
  · cases h
  · cases h

theorem Indexed.fresh {s : Store.State} (h : Indexed p calls s) (hcollision : NoCollision p calls)
    {t : γ} {call : StartCall} {prepared : Prepared} (hcall : calls t = .start call)
    (hprepare : prepare p call = .ok prepared)
    (hfresh : s.identities[prepared.identity]? = none) : s.runs[prepared.run.id]? = none := by
  cases hrun : s.runs[prepared.run.id]? with
  | none => rfl
  | some run =>
    obtain ⟨t', call', prepared', hcall', hprepare', hid, hidentity⟩ := h.origin _ _ hrun
    have heq := hcollision t' t call' call prepared' prepared hcall' hcall hprepare' hprepare hid
    have hfound := h.found _ _ hrun
    rw [← hidentity, heq, hfresh] at hfound
    cases hfound

theorem Indexed.create {s : Store.State} (h : Indexed p calls s) (hcollision : NoCollision p calls)
    {t : γ} {call : StartCall} {prepared : Prepared} (hcall : calls t = .start call)
    (hprepare : prepare p call = .ok prepared)
    (hfresh : s.identities[prepared.identity]? = none)
    (hfree : s.keys.contains prepared.identity.key = false) :
    Indexed p calls
      { runs := s.runs.insert prepared.run.id prepared.run
        identities := s.identities.insert prepared.identity prepared.run.id
        keys := s.keys.insert prepared.identity.key prepared.identity } := by
  have hidentity := (prepare_eq_ok hprepare).2.2.2.2
  have hnew := h.fresh hcollision hcall hprepare hfresh
  refine ⟨fun id run => ?_, fun id run => ?_, fun id run => ?_, fun identity id => ?_,
    fun identity id => ?_⟩
  · rw [Std.ExtTreeMap.getElem?_insert]
    split_ifs with hid
    · rintro ⟨⟩
      exact compare_eq_iff_eq.mp hid
    · exact h.keyed id run
  · rw [Std.ExtTreeMap.getElem?_insert]
    split_ifs with hid
    · rintro ⟨⟩
      exact ⟨t, call, prepared, hcall, hprepare, compare_eq_iff_eq.mp hid, hidentity.symm⟩
    · exact h.origin id run
  · rw [Std.ExtTreeMap.getElem?_insert, Std.ExtTreeMap.getElem?_insert]
    split_ifs with hid heq heq
    · rintro ⟨⟩
      exact congrArg some (compare_eq_iff_eq.mp hid)
    · rintro ⟨⟩
      exact absurd (compare_eq_iff_eq.mpr hidentity.symm) heq
    · intro hrun
      have := h.found id run hrun
      rw [← compare_eq_iff_eq.mp heq, hfresh] at this
      cases this
    · exact h.found id run
  · rw [Std.ExtTreeMap.getElem?_insert]
    split_ifs with heq
    · rintro ⟨⟩
      refine ⟨prepared.run, Std.ExtTreeMap.getElem?_insert_self, ?_⟩
      rw [hidentity]
      exact compare_eq_iff_eq.mp heq
    · intro hfound
      obtain ⟨run, hrun, hrunIdentity⟩ := h.stored identity id hfound
      refine ⟨run, ?_, hrunIdentity⟩
      rw [Std.ExtTreeMap.getElem?_insert, if_neg]
      · exact hrun
      · intro hid
        rw [← compare_eq_iff_eq.mp hid, hnew] at hrun
        cases hrun
  · rw [Std.ExtTreeMap.getElem?_insert]
    split_ifs with heq
    · rintro ⟨⟩
      rw [← compare_eq_iff_eq.mp heq]
      exact Std.ExtTreeMap.getElem?_insert_self
    · intro hfound
      have hkey := h.byKey identity id hfound
      show (s.keys.insert prepared.identity.key prepared.identity)[identity.key]? = _
      rw [Std.ExtTreeMap.getElem?_insert, if_neg]
      · exact hkey
      · intro hid
        rw [Std.ExtTreeMap.contains_eq_isSome_getElem?, compare_eq_iff_eq.mp hid, hkey] at hfree
        cases hfree

theorem Indexed.apply {s : Store.State} (h : Indexed p calls s) {id : LogicalId} {current : Run}
    (hfound : s.runs[id]? = some current) (change : Transition) :
    Indexed p calls { s with runs := s.runs.insert id (Store.apply current change) } := by
  refine ⟨fun id' run => ?_, fun id' run => ?_, fun id' run => ?_, fun identity id' => ?_,
    h.byKey⟩
  · rw [Std.ExtTreeMap.getElem?_insert]
    split_ifs with hid
    · rintro ⟨⟩
      rw [← compare_eq_iff_eq.mp hid]
      exact h.keyed id current hfound
    · exact h.keyed id' run
  · rw [Std.ExtTreeMap.getElem?_insert]
    split_ifs with hid
    · rintro ⟨⟩
      rw [← compare_eq_iff_eq.mp hid]
      exact h.origin id current hfound
    · exact h.origin id' run
  · rw [Std.ExtTreeMap.getElem?_insert]
    split_ifs with hid
    · rintro ⟨⟩
      rw [← compare_eq_iff_eq.mp hid]
      exact h.found id current hfound
    · exact h.found id' run
  · intro hindex
    obtain ⟨run, hrun, hidentity⟩ := h.stored identity id' hindex
    rw [Std.ExtTreeMap.getElem?_insert]
    split_ifs with hid
    · rw [← compare_eq_iff_eq.mp hid, hfound] at hrun
      obtain rfl := Option.some.inj hrun
      exact ⟨_, rfl, hidentity⟩
    · exact ⟨run, hrun, hidentity⟩

/-! ## What every move keeps -/

def Event.createdKey? : Event → Option StartKey
  | .created identity _ => some identity.key
  | _ => none

def Event.invokedKey? : Event → Option StartKey
  | .invoked identity _ => some identity.key
  | _ => none

section Moves

variable {call : Call} {s s' : Shared} {pc pc' : Pc} {events : List Event}

theorem Move.wellFormed (h : Move p call s pc pc' s' events) (hs : s.store.WellFormed) :
    s'.store.WellFormed := by
  cases h with
  | quiet hstore => rwa [hstore]
  | create _ hprepare _ _ hstore =>
    intro id run
    rw [hstore, Std.ExtTreeMap.getElem?_insert]
    split_ifs with hid
    · rintro ⟨⟩
      exact .of_creatable (creatable_of_prepare hprepare)
    · exact hs id run
  | read => exact hs
  | invoke => exact hs
  | apply _ hfound hvalid _ _ hstore =>
    intro id run
    rw [hstore, Std.ExtTreeMap.getElem?_insert]
    split_ifs with hid
    · rintro ⟨⟩
      exact (hs _ _ hfound).apply hvalid
    · exact hs id run

theorem Move.indexed {t : γ} (h : Move p (calls t) s pc pc' s' events)
    (hcollision : NoCollision p calls) (hs : Indexed p calls s.store) :
    Indexed p calls s'.store := by
  cases h with
  | quiet hstore => rwa [hstore]
  | create hcall hprepare hfresh hfree hstore =>
    rw [hstore]
    exact hs.create hcollision hcall hprepare hfresh hfree
  | read => exact hs
  | invoke => exact hs
  | apply _ hfound _ _ _ hstore =>
    rw [hstore]
    exact hs.apply hfound _

theorem Move.identities (h : Move p call s pc pc' s' events) {identity : StartIdentity}
    {id : LogicalId} (hid : s.store.identities[identity]? = some id) :
    s'.store.identities[identity]? = some id := by
  cases h with
  | quiet hstore => rwa [hstore]
  | create _ _ hfresh _ hstore =>
    rw [hstore, Std.ExtTreeMap.getElem?_insert, if_neg]
    · exact hid
    · intro heq
      rw [compare_eq_iff_eq.mp heq, hid] at hfresh
      cases hfresh
  | read => exact hid
  | invoke => exact hid
  | apply _ _ _ _ _ hstore => rwa [hstore]

theorem Move.keys (h : Move p call s pc pc' s' events) {key : StartKey}
    (hkey : s.store.keys.contains key = true) : s'.store.keys.contains key = true := by
  cases h with
  | quiet hstore => rwa [hstore]
  | create _ _ _ _ hstore =>
    rw [hstore, Std.ExtTreeMap.contains_insert, hkey, Bool.or_true]
  | read => exact hkey
  | invoke => exact hkey
  | apply _ _ _ _ _ hstore => rwa [hstore]

/-- A call that executes a start did so before, or has just created its run. -/
theorem Move.prepared (h : Move p call s pc pc' s' events) {prepared : Prepared}
    (hprepared : pc'.prepared? = some prepared) :
    (pc.prepared? = some prepared ∧ (pc'.beforeInvoke = true → pc.beforeInvoke = true)) ∨
    (s.store.keys.contains prepared.identity.key = false ∧
      s'.store.identities[prepared.identity]? = some prepared.run.id ∧
      events = [.created prepared.identity prepared.run] ∧
      ∃ start, call = .start start ∧ prepare p start = .ok prepared) := by
  have hgoes : ∀ target, Goes target pc pc' →
      pc.prepared? = some prepared ∧ (pc'.beforeInvoke = true → pc.beforeInvoke = true) := by
    intro target hgoes
    cases hgoes with
    | done hnone =>
      rw [hprepared] at hnone
      cases hnone
    | on hsame _ hbefore => exact ⟨hsame ▸ hprepared, hbefore⟩
  cases h with
  | quiet _ h => exact .inl (hgoes _ h)
  | create hcall hprepare _ hfree hstore =>
    obtain rfl := Option.some.inj hprepared
    refine .inr ⟨hfree, ?_, rfl, _, hcall, hprepare⟩
    rw [hstore]
    exact Std.ExtTreeMap.getElem?_insert_self
  | read => cases hprepared
  | invoke => exact .inl ⟨hprepared, fun _ => rfl⟩
  | apply _ _ _ _ _ _ h => exact .inl (hgoes _ h)

theorem Move.created (h : Move p call s pc pc' s' events) {identity : StartIdentity} {run : Run}
    (hmem : Event.created identity run ∈ events) :
    s'.store.identities[identity]? = some run.id := by
  cases h with
  | create _ _ _ _ hstore =>
    obtain ⟨rfl, rfl⟩ := Event.created.inj (List.mem_singleton.mp hmem)
    rw [hstore]
    exact Std.ExtTreeMap.getElem?_insert_self
  | quiet => cases hmem
  | read => cases hmem
  | invoke => cases List.mem_singleton.mp hmem
  | apply => cases List.mem_singleton.mp hmem

theorem Move.createdKeys (h : Move p call s pc pc' s' events) :
    events.filterMap Event.createdKey? = [] ∨
      ∃ key, events.filterMap Event.createdKey? = [key] ∧ s.store.keys.contains key = false := by
  cases h with
  | create _ _ _ hfree => exact .inr ⟨_, rfl, hfree⟩
  | quiet => exact .inl rfl
  | read => exact .inl rfl
  | invoke => exact .inl rfl
  | apply => exact .inl rfl

/-- The invoker is called for the start that the call executes, which it then has behind it. -/
theorem Move.invokedKeys (h : Move p call s pc pc' s' events) :
    events.filterMap Event.invokedKey? = [] ∨
      ∃ prepared, pc.prepared? = some prepared ∧ pc.beforeInvoke = true ∧
        pc'.beforeInvoke = false ∧
        events.filterMap Event.invokedKey? = [prepared.identity.key] := by
  cases h with
  | invoke => exact .inr ⟨_, rfl, rfl, rfl, rfl⟩
  | quiet => exact .inl rfl
  | create => exact .inl rfl
  | read => exact .inl rfl
  | apply => exact .inl rfl

/-- A call works on the run of its own start, or on the run it is to cancel. -/
def Pc.Bound (call : Call) (pc : Pc) : Prop :=
  ∀ id, pc.target? = some id → match call with
    | .start _ => ∃ prepared, pc.prepared? = some prepared ∧ prepared.run.id = id
    | .cancel _ runId => id = runId

theorem Move.bound (h : Move p call s pc pc' s' events)
    (hkeyed : ∀ (id : LogicalId) (run : Run), s.store.runs[id]? = some run → run.id = id)
    (hbound : pc.Bound call) : pc'.Bound call := by
  have hgoes : ∀ target, Goes target pc pc' → target = pc.target? → pc'.Bound call := by
    rintro _ hgoes rfl id hid
    cases hgoes with
    | done _ hnone =>
      rw [hid] at hnone
      cases hnone
    | on hsame htarget =>
      rw [hsame]
      exact hbound id (htarget ▸ hid)
  cases h with
  | quiet _ h => exact hgoes _ h rfl
  | create hcall =>
    subst hcall
    rintro id ⟨⟩
    exact ⟨_, rfl, rfl⟩
  | read hcall hfound =>
    subst hcall
    rintro id ⟨⟩
    exact hkeyed _ _ hfound
  | invoke => exact hbound
  | apply htarget hfound _ _ _ _ h => exact hgoes _ h (by rw [htarget, hkeyed _ _ hfound])

end Moves

/-! ## The invariant of all interleavings -/

/-- The start keys under which runs were created. -/
def createdKeys (log : List (γ × Event)) : List StartKey :=
  log.filterMap fun entry => entry.2.createdKey?

/-- The start keys for which the invoker was called. -/
def invokedKeys (log : List (γ × Event)) : List StartKey :=
  log.filterMap fun entry => entry.2.invokedKey?

structure Inv (p : Platform) (calls : γ → Call) (s : Sys γ) : Prop where
  wellFormed : s.shared.store.WellFormed
  indexed : Indexed p calls s.shared.store
  bound : ∀ t, (s.pc t).Bound (calls t)
  owner : ∀ t prepared, (s.pc t).prepared? = some prepared →
    s.shared.store.identities[prepared.identity]? = some prepared.run.id ∧
      ∃ call, calls t = .start call ∧ prepare p call = .ok prepared
  holder : ∀ t prepared, (s.pc t).prepared? = some prepared →
    (t, Event.created prepared.identity prepared.run) ∈ s.log
  logged : ∀ t identity run, (t, Event.created identity run) ∈ s.log →
    s.shared.store.identities[identity]? = some run.id
  created : (createdKeys s.log).Nodup
  known : ∀ key ∈ invokedKeys s.log, s.shared.store.keys.contains key = true
  invoked : (invokedKeys s.log).Nodup
  notYet : ∀ t prepared, (s.pc t).prepared? = some prepared → (s.pc t).beforeInvoke = true →
    prepared.identity.key ∉ invokedKeys s.log

theorem Inv.new : Inv p calls (Sys.new γ) where
  wellFormed := fun _ _ h => nomatch h
  indexed := .new
  bound := fun _ _ h => nomatch h
  owner := fun _ _ h => nomatch h
  holder := fun _ _ h => nomatch h
  logged := fun _ _ _ h => nomatch h
  created := List.nodup_nil
  known := fun _ h => nomatch h
  invoked := List.nodup_nil
  notYet := fun _ _ h => nomatch h

/-- In a list without repeated values of `f`, a value belongs to one member. -/
theorem eq_of_nodup_filterMap {α β : Type*} {f : α → Option β} {l : List α}
    (h : (l.filterMap f).Nodup) {a b : α} {k : β} (ha : a ∈ l) (hb : b ∈ l) (hfa : f a = some k)
    (hfb : f b = some k) : a = b := by
  have hpairwise : l.Pairwise fun a b => ∀ k, f a = some k → ∀ k', f b = some k' → k ≠ k' :=
    List.pairwise_filterMap.mp h
  have : Std.Symm fun a b => ∀ k, f a = some k → ∀ k', f b = some k' → k ≠ k' :=
    ⟨fun _ _ hab k hb k' ha => (hab k' ha k hb).symm⟩
  by_contra hne
  exact hpairwise.forall ha hb hne k hfa k hfb rfl

/-- The system after a move of the call `t`. -/
def Sys.moved [DecidableEq γ] (s : Sys γ) (t : γ) (pc' : Pc) (s' : Shared) (events : List Event) :
    Sys γ where
  shared := s'
  pc := Function.update s.pc t pc'
  log := s.log ++ events.map fun event => (t, event)

theorem createdKeys_append (log : List (γ × Event)) (t : γ) (events : List Event) :
    createdKeys (log ++ events.map fun event => (t, event)) =
      createdKeys log ++ events.filterMap Event.createdKey? := by
  unfold createdKeys
  rw [List.filterMap_append, List.filterMap_map]
  rfl

theorem invokedKeys_append (log : List (γ × Event)) (t : γ) (events : List Event) :
    invokedKeys (log ++ events.map fun event => (t, event)) =
      invokedKeys log ++ events.filterMap Event.invokedKey? := by
  unfold invokedKeys
  rw [List.filterMap_append, List.filterMap_map]
  rfl

theorem Inv.contains_of_mem_createdKeys {s : Sys γ} (h : Inv p calls s) {key : StartKey}
    (hkey : key ∈ createdKeys s.log) : s.shared.store.keys.contains key = true := by
  obtain ⟨⟨t, event⟩, hmem, hevent⟩ := List.mem_filterMap.mp hkey
  cases event with
  | created identity run =>
    obtain rfl := Option.some.inj hevent
    rw [Std.ExtTreeMap.contains_eq_isSome_getElem?,
      h.indexed.byKey _ _ (h.logged t identity run hmem)]
    rfl
  | invoked => cases hevent
  | applied => cases hevent

/-- A start key has one creator. -/
theorem Inv.creator_unique {s : Sys γ} (h : Inv p calls s) {t t' : γ} {identity identity' : StartIdentity}
    {run run' : Run} (ht : (t, Event.created identity run) ∈ s.log)
    (ht' : (t', Event.created identity' run') ∈ s.log) (hkey : identity.key = identity'.key) :
    t = t' := by
  have heq := eq_of_nodup_filterMap h.created ht ht' (k := identity.key) rfl
    (congrArg some hkey.symm)
  exact congrArg Prod.fst heq

/-- No two calls execute starts with one key. -/
theorem Inv.exclusive {s : Sys γ} (h : Inv p calls s) {t t' : γ} {prepared prepared' : Prepared}
    (ht : (s.pc t).prepared? = some prepared) (ht' : (s.pc t').prepared? = some prepared')
    (hkey : prepared.identity.key = prepared'.identity.key) : t = t' :=
  h.creator_unique (h.holder t prepared ht) (h.holder t' prepared' ht') hkey

variable [DecidableEq γ] {s : Sys γ} {s' : Shared} {t : γ} {pc' : Pc} {events : List Event}

/-- What holds of the moved call and of all others holds of all. -/
theorem Sys.moved_pc {P : γ → Pc → Prop} (hmoved : P t pc') (hothers : ∀ u, u ≠ t → P u (s.pc u))
    (u : γ) : P u ((s.moved t pc' s' events).pc u) := by
  show P u (Function.update s.pc t pc' u)
  by_cases hu : u = t
  · subst hu
    rwa [Function.update_self]
  · rw [Function.update_of_ne hu]
    exact hothers u hu

section Fields

variable (h : Inv p calls s) (hmove : Move p (calls t) s.shared (s.pc t) pc' s' events)

include h hmove

theorem Inv.owner_moved (u : γ) (prepared : Prepared)
    (hprepared : ((s.moved t pc' s' events).pc u).prepared? = some prepared) :
    s'.store.identities[prepared.identity]? = some prepared.run.id ∧
      ∃ call, calls u = .start call ∧ prepare p call = .ok prepared := by
  revert hprepared
  refine Sys.moved_pc (P := fun u pc => pc.prepared? = some prepared → _ ∧
    ∃ call, calls u = .start call ∧ prepare p call = .ok prepared) ?_ ?_ u
  · intro hprepared
    rcases hmove.prepared hprepared with ⟨hold, -⟩ | ⟨-, hid, -, hcall⟩
    · exact ⟨hmove.identities (h.owner t prepared hold).1, (h.owner t prepared hold).2⟩
    · exact ⟨hid, hcall⟩
  · intro u _ hold
    exact ⟨hmove.identities (h.owner u prepared hold).1, (h.owner u prepared hold).2⟩

theorem Inv.holder_moved (u : γ) (prepared : Prepared)
    (hprepared : ((s.moved t pc' s' events).pc u).prepared? = some prepared) :
    (u, Event.created prepared.identity prepared.run) ∈ (s.moved t pc' s' events).log := by
  revert hprepared
  refine Sys.moved_pc (P := fun u pc => pc.prepared? = some prepared →
    (u, Event.created prepared.identity prepared.run) ∈ _) ?_ ?_ u
  · intro hprepared
    rcases hmove.prepared hprepared with ⟨hold, -⟩ | ⟨-, -, hevents, -⟩
    · exact List.mem_append_left _ (h.holder t prepared hold)
    · refine List.mem_append_right _ (List.mem_map.mpr ⟨_, ?_, rfl⟩)
      rw [hevents]
      exact List.mem_singleton_self _
  · intro u _ hold
    exact List.mem_append_left _ (h.holder u prepared hold)

theorem Inv.notYet_moved {prepared : Prepared} (hprepared : pc'.prepared? = some prepared)
    (hbefore : pc'.beforeInvoke = true) :
    prepared.identity.key ∉ invokedKeys (s.moved t pc' s' events).log := by
  have hnew : events.filterMap Event.invokedKey? = [] := by
    rcases hmove.invokedKeys with hnil | ⟨-, -, -, hafter, -⟩
    · exact hnil
    · rw [hafter] at hbefore
      cases hbefore
  show _ ∉ invokedKeys (s.log ++ events.map fun event => (t, event))
  rw [invokedKeys_append, hnew, List.append_nil]
  rcases hmove.prepared hprepared with ⟨hold, hsame⟩ | ⟨hfree, -⟩
  · exact h.notYet t prepared hold (hsame hbefore)
  · intro hmem
    rw [h.known _ hmem] at hfree
    cases hfree

end Fields

theorem Inv.moved (h : Inv p calls s) (hcollision : NoCollision p calls)
    (hmove : Move p (calls t) s.shared (s.pc t) pc' s' events) :
    Inv p calls (s.moved t pc' s' events) where
  wellFormed := hmove.wellFormed h.wellFormed
  indexed := hmove.indexed hcollision h.indexed
  bound := Sys.moved_pc (P := fun u pc => pc.Bound (calls u))
    (hmove.bound h.indexed.keyed (h.bound t)) fun u _ => h.bound u
  owner := h.owner_moved hmove
  holder := h.holder_moved hmove
  logged := by
    intro u identity run hmem
    rcases List.mem_append.mp hmem with hold | hnew
    · exact hmove.identities (h.logged u identity run hold)
    · obtain ⟨event, hevent, heq⟩ := List.mem_map.mp hnew
      cases heq
      exact hmove.created hevent
  created := by
    show (createdKeys (s.log ++ events.map fun event => (t, event))).Nodup
    rw [createdKeys_append]
    rcases hmove.createdKeys with hnil | ⟨key, hkey, hfree⟩
    · rw [hnil, List.append_nil]
      exact h.created
    · rw [hkey]
      refine h.created.append (List.nodup_singleton key) ?_
      rw [List.disjoint_singleton]
      intro hmem
      rw [h.contains_of_mem_createdKeys hmem] at hfree
      cases hfree
  known := by
    intro key hmem
    change key ∈ invokedKeys (s.log ++ events.map fun event => (t, event)) at hmem
    rw [invokedKeys_append] at hmem
    rcases List.mem_append.mp hmem with hold | hnew
    · exact hmove.keys (h.known key hold)
    · rcases hmove.invokedKeys with hnil | ⟨prepared, hprepared, -, -, heq⟩
      · rw [hnil] at hnew
        cases hnew
      · rw [heq] at hnew
        obtain rfl := List.mem_singleton.mp hnew
        refine hmove.keys ?_
        rw [Std.ExtTreeMap.contains_eq_isSome_getElem?,
          h.indexed.byKey _ _ (h.owner t prepared hprepared).1]
        rfl
  invoked := by
    show (invokedKeys (s.log ++ events.map fun event => (t, event))).Nodup
    rw [invokedKeys_append]
    rcases hmove.invokedKeys with hnil | ⟨prepared, hprepared, hbefore, -, heq⟩
    · rw [hnil, List.append_nil]
      exact h.invoked
    · rw [heq]
      refine h.invoked.append (List.nodup_singleton _) ?_
      rw [List.disjoint_singleton]
      exact h.notYet t prepared hprepared hbefore
  notYet := by
    intro u prepared hprepared hbefore
    by_cases hu : u = t
    · subst hu
      rw [show (s.moved u pc' s' events).pc u = pc' from Function.update_self ..] at hprepared hbefore
      exact h.notYet_moved hmove hprepared hbefore
    · rw [show (s.moved t pc' s' events).pc u = s.pc u from Function.update_of_ne hu ..]
        at hprepared hbefore
      show _ ∉ invokedKeys (s.log ++ events.map fun event => (t, event))
      rw [invokedKeys_append, List.mem_append, not_or]
      refine ⟨h.notYet u prepared hprepared hbefore, ?_⟩
      rcases hmove.invokedKeys with hnil | ⟨prepared', hprepared', -, -, heq⟩
      · rw [hnil]
        exact List.not_mem_nil
      · rw [heq, List.mem_singleton]
        exact fun hkey => hu (h.exclusive hprepared hprepared' hkey)

theorem Inv.step (h : Inv p calls s) (hcollision : NoCollision p calls) (t : γ) :
    Inv p calls ((runner p calls).step s t).2 :=
  h.moved hcollision (advance_move (calls t) (s.pc t))

/-- The invariant holds in every state of every interleaving. -/
theorem inv_final (hcollision : NoCollision p calls) (schedule : List γ) :
    Inv p calls ((runner p calls).final (Sys.new γ) schedule) :=
  Machine.invariant_final (fun _ t h => h.step hcollision t) .new schedule

end Family

end RustFactory.Workflow
