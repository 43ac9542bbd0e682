import RustFactory.Lib.Update
import RustFactory.Workflow.Completion

/-!
# Workflows: what a run stores

The invoker writes its evidence into a collector while it works, and may go on after a rejection.
`EvidenceCollector.sink` is the collector as it is written in place; in the end it holds what it
would hold if the rejected evidence had never been emitted.  From there `Recorded` follows the
evidence through the two finishing functions and the guard of the store into the run, in every
interleaving of starts and cancellations.
-/

namespace RustFactory.Workflow

open RustFactory.Lib RustFactory.Agent

/-! ## The collector in place -/

namespace EvidenceCollector

/-- `emit` statement by statement. -/
def emitInPlace (evidence : InvocationEvidence) :
    Update EvidenceCollector WorkflowError PUnit := do
  let collector ← Update.read
  let itemBytes ← Update.check
    (okOr .limitExceeded (checkedAddSize (byteLen evidence.kind) (byteLen evidence.data)))
  let total ← Update.check (okOr .limitExceeded (checkedAddSize collector.usedBytes itemBytes))
  let eventCount ← Update.check (okOr .limitExceeded
    ((checkedAddSize collector.existingEvents collector.events.length).bind fun count =>
      checkedAddSize count 1))
  if maxEvents < eventCount ∨ maxEvidenceChunkBytes < itemBytes ∨ collector.limit < total then
    throw .limitExceeded
  if evidence.kind = "result" then
    if collector.output.isSome then
      throw .invalidRequest
    Update.write fun collector => { collector with output := some evidence.data }
  Update.write fun collector => { collector with usedBytes := total }
  Update.write fun collector => { collector with events := collector.events ++ [evidence] }

/-- The collector as the invoker sees it: what each emit is answered. -/
def sink : Machine EvidenceCollector InvocationEvidence (Except WorkflowError PUnit) where
  step collector evidence := (emitInPlace evidence).exec collector

/-- The evidence that is accepted, with the answers to all that is emitted before. -/
def accepted (collector : EvidenceCollector) (emitted : List InvocationEvidence) :
    List InvocationEvidence :=
  sink.accepted Except.isOk collector emitted

/-- All checks are made before the first write. -/
theorem emitInPlace_eq (c : EvidenceCollector) (evidence : InvocationEvidence) :
    (emitInPlace evidence).exec c =
      Update.keeping c (c.emit evidence >>= fun after => .ok (⟨⟩, after)) := by
  unfold emitInPlace emit
  rw [Update.exec_read_bind]
  simp only [bind_assoc]
  refine Update.exec_check_keeping fun itemBytes => ?_
  refine Update.exec_check_keeping fun total => ?_
  refine Update.exec_check_keeping fun eventCount => ?_
  by_cases hlimits : maxEvents < eventCount ∨ maxEvidenceChunkBytes < itemBytes ∨ c.limit < total
  · rw [if_pos hlimits, if_pos hlimits]
    rfl
  · rw [if_neg hlimits, if_neg hlimits]
    by_cases hkind : evidence.kind = "result"
    · simp only [if_pos hkind]
      by_cases houtput : c.output.isSome
      · rw [if_pos houtput, if_pos houtput]
        rfl
      · rw [if_neg houtput, if_neg houtput]
        rfl
    · simp only [if_neg hkind]
      rfl

theorem sink_step_of_ok {c c' : EvidenceCollector} {evidence : InvocationEvidence}
    (h : c.emit evidence = .ok c') : sink.step c evidence = (.ok ⟨⟩, c') := by
  show (emitInPlace evidence).exec c = _
  rw [emitInPlace_eq, h]
  rfl

theorem sink_step_of_error {c : EvidenceCollector} {evidence : InvocationEvidence}
    {error : WorkflowError} (h : c.emit evidence = .error error) :
    sink.step c evidence = (.error error, c) := by
  show (emitInPlace evidence).exec c = _
  rw [emitInPlace_eq, h]
  rfl

theorem sink_step_snd (c : EvidenceCollector) (evidence : InvocationEvidence) :
    (sink.step c evidence).2 = c.observe evidence := by
  unfold observe
  cases h : c.emit evidence with
  | ok c' => rw [sink_step_of_ok h]
  | error error => rw [sink_step_of_error h]

theorem sink_step_refused (c : EvidenceCollector) (evidence : InvocationEvidence)
    (hrefused : ¬(sink.step c evidence).1.isOk) : (sink.step c evidence).2 = c := by
  cases h : c.emit evidence with
  | ok c' =>
    rw [sink_step_of_ok h] at hrefused
    exact absurd rfl hrefused
  | error error => rw [sink_step_of_error h]

theorem final_sink (c : EvidenceCollector) (emitted : List InvocationEvidence) :
    sink.final c emitted = c.collect emitted := by
  unfold collect
  induction emitted generalizing c with
  | nil => rfl
  | cons evidence emitted ih => rw [Machine.final_cons, ih, sink_step_snd, List.foldl_cons]

theorem collect_accepted (c : EvidenceCollector) (emitted : List InvocationEvidence) :
    c.collect (c.accepted emitted) = c.collect emitted := by
  rw [← final_sink, ← final_sink]
  exact Machine.final_accepted sink_step_refused c emitted

/-! ## What the collector holds -/

def isResult (evidence : InvocationEvidence) : Bool := evidence.kind = "result"

/-- What the collector of an active run holds after the evidence `accepted`. -/
structure Holds (budget : ℕ) (accepted : List InvocationEvidence) (c : EvidenceCollector) :
    Prop where
  limit : c.limit = budget
  existing : c.existingEvents = 1
  events : c.events = accepted
  used : c.usedBytes = 7 + totalBytes (evidenceTexts accepted)
  result : accepted.filter isResult = (c.output.map fun data => ⟨"result", data⟩).toList

theorem output_of_emit {c c' : EvidenceCollector} {evidence : InvocationEvidence}
    (h : c.emit evidence = .ok c') :
    (evidence.kind = "result" → c.output = none ∧ c'.output = some evidence.data) ∧
      (evidence.kind ≠ "result" → c'.output = c.output) := by
  unfold emit at h
  obtain ⟨itemBytes, -, h⟩ := bind_eq_ok.mp h
  obtain ⟨total, -, h⟩ := bind_eq_ok.mp h
  obtain ⟨eventCount, -, h⟩ := bind_eq_ok.mp h
  split_ifs at h with hlimits hkind houtput
  · cases h
    refine ⟨fun _ => ⟨?_, rfl⟩, fun hne => absurd hkind hne⟩
    exact Option.not_isSome_iff_eq_none.mp houtput
  · cases h
    exact ⟨fun heq => absurd heq hkind, fun _ => rfl⟩

theorem Holds.emit {budget : ℕ} {accepted : List InvocationEvidence} {c c' : EvidenceCollector}
    {evidence : InvocationEvidence} (h : Holds budget accepted c)
    (hemit : c.emit evidence = .ok c') : Holds budget (accepted ++ [evidence]) c' := by
  obtain ⟨hlimit, hexisting, hevents, hused, -, -⟩ := emit_eq_ok hemit
  obtain ⟨hresult, hother⟩ := output_of_emit hemit
  refine ⟨hlimit.trans h.limit, hexisting.trans h.existing, ?_, ?_, ?_⟩
  · rw [hevents, h.events]
  · have htexts : evidenceTexts (accepted ++ [evidence]) =
        evidenceTexts accepted ++ [(evidence.kind, evidence.data)] := List.map_append
    have hlast : totalBytes [(evidence.kind, evidence.data)] =
        byteLen evidence.kind + byteLen evidence.data := rfl
    rw [hused, h.used, htexts, totalBytes_append, hlast]
    omega
  · rw [List.filter_append, h.result]
    by_cases hkind : evidence.kind = "result"
    · obtain ⟨hnone, hsome⟩ := hresult hkind
      have hevidence : evidence = ⟨"result", evidence.data⟩ := by
        rw [← hkind]
      have hfilter : [evidence].filter isResult = [evidence] :=
        List.filter_cons_of_pos (decide_eq_true hkind)
      rw [hnone, hsome, hfilter]
      exact congrArg List.singleton hevidence
    · rw [hother hkind, List.filter_cons_of_neg (by simpa [isResult] using hkind)]
      exact List.append_nil _

theorem holds_collect (budget : ℕ) (emitted : List InvocationEvidence) :
    Holds budget ((initial budget).accepted emitted) ((initial budget).collect emitted) := by
  rw [← final_sink]
  refine Machine.invariant_accepted (P := Holds budget) ?_ ?_ ⟨rfl, rfl, rfl, rfl, rfl⟩ emitted
  · intro accepted c evidence h hok
    cases hemit : c.emit evidence with
    | ok c' =>
      rw [sink_step_of_ok hemit]
      exact h.emit hemit
    | error error =>
      rw [sink_step_of_error hemit] at hok
      cases hok
  · intro accepted c evidence h hrefused
    rw [sink_step_refused c evidence hrefused]
    exact h

end EvidenceCollector

/-! ## What is stored -/

/-- A run that has succeeded holds the start and all accepted evidence, in order and numbered
without a gap, and the data of the one result among it. -/
structure Run.StoresAccepted (run : Run) (call : StartCall) (accepted : List InvocationEvidence) :
    Prop where
  events : texts run.events = ("started", "") :: evidenceTexts accepted
  numbered : run.events.map (fun event => event.sequence.toNat) =
    List.range' 1 run.events.length
  result : ∃ attempt data result, run.attempt = some attempt ∧ attempt.result = some data ∧
    accepted.filter EvidenceCollector.isResult = [⟨"result", data⟩] ∧ attempt.error = none ∧
    call.outcome = some (.ok result) ∧
    attempt.capabilityScopeDigest = some result.capabilityScopeDigest

/-- A run that has failed holds the start and the error of its attempt. -/
structure Run.StoresFailure (run : Run) : Prop where
  failure : ∃ attempt error, run.attempt = some attempt ∧ attempt.error = some error ∧
    attempt.result = none ∧
    run.events = [⟨1, "started", ""⟩, ⟨2, "invocation_failed", error⟩]

/-- What holds of a run, whatever status it has. -/
structure Run.Faithful (run : Run) (call : StartCall) (budget : ℕ) : Prop where
  succeeded : run.status = .succeeded →
    run.StoresAccepted call ((EvidenceCollector.initial budget).accepted call.emitted)
  failed : run.status = .failed → run.StoresFailure

theorem Run.Faithful.of_open {run : Run} {call : StartCall} {budget : ℕ}
    (h : run.status ≠ .succeeded ∧ run.status ≠ .failed) : run.Faithful call budget :=
  ⟨fun hstatus => absurd hstatus h.1, fun hstatus => absurd hstatus h.2⟩

theorem faithful_of_finishFailure {run : Run} {attempt : Attempt} {call : StartCall} {budget : ℕ}
    {reason : String} {change : Transition} (h : run.Active attempt)
    (hchange : finishFailure run reason = some change) :
    (Store.apply run change).Faithful call budget := by
  unfold finishFailure at hchange
  rw [h.attempt] at hchange
  obtain rfl := Option.some.inj hchange
  refine ⟨nofun, fun _ => ⟨_, reason, rfl, rfl, h.result, ?_⟩⟩
  show run.events ++ [⟨UInt64.ofNat run.events.length + 1, "invocation_failed", reason⟩] = _
  rw [h.events]
  rfl

theorem texts_mapIdx (events : List InvocationEvidence) (number : ℕ → UInt64) :
    texts (events.mapIdx fun index item => ⟨number index, item.kind, item.data⟩) =
      evidenceTexts events := by
  unfold texts evidenceTexts
  refine List.ext_getElem (by simp) fun i _ _ => ?_
  simp only [List.getElem_map, List.getElem_mapIdx]

/-- The start and the numbered evidence. -/
def storedEvents (accepted : List InvocationEvidence) : List WorkflowEvent :=
  startedEvents ++ accepted.mapIdx fun index item =>
    ⟨UInt64.ofNat 1 + UInt64.ofNat index + 1, item.kind, item.data⟩

theorem texts_storedEvents (accepted : List InvocationEvidence) :
    texts (storedEvents accepted) = ("started", "") :: evidenceTexts accepted := by
  unfold storedEvents
  rw [texts_append, texts_mapIdx]
  rfl

theorem sequences_storedEvents {accepted : List InvocationEvidence}
    (h : accepted.length < 2 ^ 32) :
    (storedEvents accepted).map (fun event => event.sequence.toNat) =
      List.range' 1 (storedEvents accepted).length := by
  have hlength : (storedEvents accepted).length = accepted.length + 1 := by
    unfold storedEvents
    rw [List.length_append, List.length_mapIdx]
    exact Nat.add_comm _ _
  rw [hlength, List.range'_succ]
  unfold storedEvents
  rw [List.map_append, sequences_mapIdx accepted h]
  rfl

theorem faithful_of_finishSuccess {run : Run} {attempt : Attempt} {call : StartCall}
    {result : AgentInvocationResult} {change : Transition} (h : run.Active attempt)
    (houtcome : call.outcome = some (.ok result))
    (hchange : finishSuccess run result
      ((EvidenceCollector.initial run.maxEvidenceBytes).collect call.emitted) = .ok change) :
    (Store.apply run change).Faithful call run.maxEvidenceBytes := by
  have hholds := EvidenceCollector.holds_collect run.maxEvidenceBytes call.emitted
  have hleast := h.least
  rw [minTerminalEvidenceBytes_eq] at hleast
  have hcount := ((EvidenceCollector.within_initial
    (show 7 ≤ run.maxEvidenceBytes by omega)).collect call.emitted).1.count
  rw [hholds.existing, hholds.events] at hcount
  unfold finishSuccess at hchange
  obtain ⟨output, houtput, hchange⟩ := bind_eq_ok.mp hchange
  obtain ⟨previous, hprevious, hchange⟩ := bind_eq_ok.mp hchange
  rw [okOr_eq_ok] at houtput hprevious
  rw [h.attempt] at hprevious
  obtain rfl := Option.some.inj hprevious
  have hevents : (Store.apply run change).events =
      storedEvents ((EvidenceCollector.initial run.maxEvidenceBytes).accepted call.emitted) := by
    obtain rfl := Except.ok.inj hchange
    show run.events ++ _ = _
    rw [h.events, hholds.events]
    rfl
  obtain rfl := Except.ok.inj hchange
  refine ⟨fun _ => ⟨?_, ?_, ?_⟩, nofun⟩
  · rw [hevents, texts_storedEvents]
  · rw [hevents]
    refine sequences_storedEvents ?_
    unfold maxEvents at hcount
    omega
  · refine ⟨_, output, result, rfl, rfl, ?_, h.error, houtcome, rfl⟩
    rw [hholds.result, houtput]
    rfl

/-! ## The run of a call -/

/-- What a call carries while its run is active. -/
def Carries (call : StartCall) (active : Run) : Pc → Prop
  | .started _ _ run | .failing _ run _ _ => run = active
  | .numbered _ _ run evidence _ | .registered _ _ run evidence _ | .invoking _ run evidence _ =>
    run = active ∧ evidence = .initial active.maxEvidenceBytes
  | .invoked _ run evidence outcome =>
    run = active ∧ call.outcome = some outcome ∧
      evidence = (EvidenceCollector.initial active.maxEvidenceBytes).collect call.emitted
  | .rereading .. | .returned _ | .dropped => True
  | _ => False

/-- The run is the one that the start has prepared, and so is the attempt that it makes. -/
structure Run.StartedBy (run : Run) (p : Platform) (call : StartCall) (prepared : Prepared) :
    Prop where
  id : run.id = prepared.run.id
  context : run.context = call.context
  workflowId : run.workflowId = call.workflowId
  workflowVersion : run.workflowVersion = call.version
  attempt : ∀ attempt, run.attempt = some attempt →
    p.derivedId "attempt" (prepared.run.id.asStr ++ ":1") = .ok attempt.id ∧
      attempt.agentId = prepared.definition.step.agentId ∧
      attempt.effectiveCapabilityCeiling = call.policy.effectiveCapabilityCeiling ∧
      attempt.policyDecisionDigest = call.policy.policyDecisionDigest

/-- The stored run at each stage of the call that created it. -/
inductive Recorded (p : Platform) (call : StartCall) (prepared : Prepared) : Pc → Run → Prop where
  | created : Recorded p call prepared (.created prepared prepared.run) prepared.run
  | active {pc : Pc} (attemptId : LogicalId)
      (derived : p.derivedId "attempt" (prepared.run.id.asStr ++ ":1") = .ok attemptId)
      (carries : Carries call (activeRun call prepared attemptId) pc) :
      Recorded p call prepared pc (activeRun call prepared attemptId)
  | finished {run : Run} (result : Except WorkflowError RunSummary)
      (faithful : run.Faithful call prepared.run.maxEvidenceBytes)
      (startedBy : run.StartedBy p call prepared) :
      Recorded p call prepared (.returned result) run

section Own

variable {p : Platform} {call : StartCall} {prepared : Prepared} {s : Shared}
  {attemptId : LogicalId}

theorem startedBy_prepared (hprepare : prepare p call = .ok prepared) :
    prepared.run.StartedBy p call prepared := by
  obtain ⟨-, -, -, hrun, -⟩ := prepare_eq_ok hprepare
  refine ⟨rfl, ?_, ?_, ?_, fun attempt hattempt => ?_⟩
  · rw [hrun]
    rfl
  · rw [hrun]
    rfl
  · rw [hrun]
  · rw [hrun] at hattempt
    cases hattempt

theorem startedBy_activeRun (hprepare : prepare p call = .ok prepared)
    (hid : p.derivedId "attempt" (prepared.run.id.asStr ++ ":1") = .ok attemptId) :
    (activeRun call prepared attemptId).StartedBy p call prepared := by
  have h := startedBy_prepared hprepare
  refine ⟨rfl, h.context, h.workflowId, h.workflowVersion, fun attempt hattempt => ?_⟩
  obtain rfl := Option.some.inj hattempt
  exact ⟨hid, rfl, rfl, rfl⟩

theorem Run.StartedBy.apply {run : Run} {change : Transition} (h : run.StartedBy p call prepared)
    (hvalid : transitionIsValid run .running change = true) :
    (Store.apply run change).StartedBy p call prepared := by
  obtain ⟨-, -, -, -, -, hchange⟩ := transitionIsValid_iff.mp hvalid
  refine ⟨h.id, h.context, h.workflowId, h.workflowVersion, fun attempt hattempt => ?_⟩
  rcases changeAllowed_cases hchange with
    ⟨hpending, -⟩ | ⟨-, current, last, hcurrent, hlast, hsame, -⟩
  · cases hpending
  · obtain rfl : last = attempt := Option.some.inj (hlast.symm.trans hattempt)
    obtain ⟨hid, hagent, hceiling, hdigest⟩ := h.attempt current hcurrent
    refine ⟨?_, ?_, ?_, ?_⟩
    · rw [hsame.id]
      exact hid
    · rw [hsame.agentId]
      exact hagent
    · rw [hsame.effectiveCapabilityCeiling]
      exact hceiling
    · rw [hsame.policyDecisionDigest]
      exact hdigest

theorem Recorded.startedBy {pc : Pc} {run : Run} (hprepare : prepare p call = .ok prepared)
    (h : Recorded p call prepared pc run) : run.StartedBy p call prepared := by
  cases h with
  | created => exact startedBy_prepared hprepare
  | active attemptId hid _ => exact startedBy_activeRun hprepare hid
  | finished _ _ hstarted => exact hstarted

theorem Recorded.faithful {pc : Pc} {run : Run} (hprepare : prepare p call = .ok prepared)
    (h : Recorded p call prepared pc run) :
    run.Faithful call prepared.run.maxEvidenceBytes := by
  cases h with
  | created =>
    obtain ⟨-, -, -, hrun, -⟩ := prepare_eq_ok hprepare
    refine .of_open ?_
    rw [hrun]
    exact ⟨nofun, nofun⟩
  | active attemptId _ _ => exact .of_open ⟨nofun, nofun⟩
  | finished _ hfaithful _ => exact hfaithful

/-- The last transition of a call: it is applied, or the run stays as it is. -/
theorem Recorded.finish {change : Transition} (hprepare : prepare p call = .ok prepared)
    (hid : p.derivedId "attempt" (prepared.run.id.asStr ++ ":1") = .ok attemptId)
    (hfound : s.store.runs[prepared.run.id]? = some (activeRun call prepared attemptId))
    (hfaithful : (Store.apply (activeRun call prepared attemptId) change).Faithful call
      prepared.run.maxEvidenceBytes) :
    (∃ run s', s.transition (activeRun call prepared attemptId).context.tenantId
        (activeRun call prepared attemptId).id (activeRun call prepared attemptId).revision
        .running change = (.applied run, s') ∧
      s'.store.runs[prepared.run.id]? = some run ∧
      ∀ result, Recorded p call prepared (.returned result) run) ∨
    s.transition (activeRun call prepared attemptId).context.tenantId
      (activeRun call prepared attemptId).id (activeRun call prepared attemptId).revision
      .running change = (.conflict, s) := by
  rcases Shared.transition_active hfound change with
    ⟨hvalid, s', htransition, hstored⟩ | ⟨-, htransition⟩
  · refine .inl ⟨_, s', htransition, hstored, fun result => ?_⟩
    exact .finished result hfaithful ((startedBy_activeRun hprepare hid).apply hvalid)
  · exact .inr htransition

/-- The terminal transition of an active run stores the accepted evidence or the failure. -/
theorem faithful_of_terminalTransition {run : Run} {attempt : Attempt} (h : run.Active attempt)
    {outcome : Except WorkflowError AgentInvocationResult} (houtcome : call.outcome = some outcome) :
    ∃ change error, terminalTransition run
        ((EvidenceCollector.initial run.maxEvidenceBytes).collect call.emitted) outcome =
          some (change, error) ∧
      (Store.apply run change).Faithful call run.maxEvidenceBytes := by
  have hfailure : ∀ reason, ∃ change, finishFailure run reason = some change ∧
      (Store.apply run change).Faithful call run.maxEvidenceBytes := by
    intro reason
    have hsome : ∃ change, finishFailure run reason = some change := by
      unfold finishFailure
      rw [h.attempt]
      exact ⟨_, rfl⟩
    obtain ⟨change, hchange⟩ := hsome
    exact ⟨change, hchange, faithful_of_finishFailure h hchange⟩
  cases outcome with
  | error error =>
    obtain ⟨change, hchange, hfaithful⟩ := hfailure (failureReason error)
    refine ⟨change, some error, ?_, hfaithful⟩
    simp only [terminalTransition, hchange, Option.map_some]
  | ok result =>
    cases hsuccess : finishSuccess run result
        ((EvidenceCollector.initial run.maxEvidenceBytes).collect call.emitted) with
    | ok change =>
      refine ⟨change, none, ?_, faithful_of_finishSuccess h houtcome hsuccess⟩
      simp only [terminalTransition, hsuccess]
    | error error =>
      obtain ⟨change, hchange, hfaithful⟩ := hfailure "invalid_invocation_result"
      refine ⟨change, some error, ?_, hfaithful⟩
      simp only [terminalTransition, hsuccess, hchange, Option.map_some]

/-- A turn of the call that created the run. -/
theorem Recorded.advance {pc : Pc} {stored : Run} (hprepare : prepare p call = .ok prepared)
    (h : Recorded p call prepared pc stored)
    (hfound : s.store.runs[prepared.run.id]? = some stored) :
    ∃ stored', (advanceStart p call s pc).2.1.store.runs[prepared.run.id]? = some stored' ∧
      Recorded p call prepared (advanceStart p call s pc).1 stored' := by
  cases h with
  | created =>
    obtain ⟨attemptId, hid⟩ := derivedId_attempt p (prepared.run.id.asStr ++ ":1")
    have htransition := Shared.transition_of_found hfound rfl rfl .pending
      (startedTransition attemptId prepared.definition.step.agentId call.policy)
    rw [if_pos (started_valid hprepare attemptId)] at htransition
    simp only [advanceStart, hid, htransition]
    exact ⟨_, Std.ExtTreeMap.getElem?_insert_self, .active attemptId hid rfl⟩
  | active attemptId hid hcarries =>
    obtain ⟨attempt, hactive⟩ := activeRun_active hprepare attemptId
    cases pc with
    | ready => exact hcarries.elim
    | created prepared' run => exact hcarries.elim
    | started prepared' attemptId' run =>
      obtain rfl : run = activeRun call prepared attemptId := hcarries
      have hnew := hactive.collector
      cases hnext : checkedAdd s.nextRegistration 1 with
      | none =>
        simp only [advanceStart, hnew, hnext]
        exact ⟨_, hfound, .active attemptId hid rfl⟩
      | some next =>
        simp only [advanceStart, hnew, hnext]
        exact ⟨_, hfound, .active attemptId hid ⟨rfl, rfl⟩⟩
    | numbered prepared' attemptId' run evidence token =>
      obtain ⟨rfl, rfl⟩ := hcarries
      exact ⟨_, hfound, .active attemptId hid ⟨rfl, rfl⟩⟩
    | registered prepared' attemptId' run evidence token =>
      obtain ⟨rfl, rfl⟩ := hcarries
      obtain ⟨key, hkey⟩ := identifier_hexDigest p (utf8
        ((activeRun call prepared attemptId).context.tenantId.asStr ++ ":" ++
          (activeRun call prepared attemptId).id.asStr ++ ":" ++ attemptId'.asStr))
      cases hinstant : call.instantFits with
      | true =>
        simp only [advanceStart, hkey, hinstant, if_true]
        exact ⟨_, hfound, .active attemptId hid ⟨rfl, rfl⟩⟩
      | false =>
        simp only [advanceStart, hkey, hinstant, Bool.false_eq_true, if_false,
          Shared.unregister_store]
        exact ⟨_, hfound, .active attemptId hid rfl⟩
    | invoking prepared' run evidence token =>
      obtain ⟨rfl, rfl⟩ := hcarries
      cases houtcome : call.outcome with
      | none =>
        simp only [advanceStart, houtcome, Shared.unregister_store]
        exact ⟨_, hfound, .active attemptId hid trivial⟩
      | some outcome =>
        simp only [advanceStart, houtcome, Shared.unregister_store]
        exact ⟨_, hfound, .active attemptId hid ⟨rfl, houtcome, rfl⟩⟩
    | invoked prepared' run evidence outcome =>
      obtain ⟨rfl, houtcome, rfl⟩ := hcarries
      obtain ⟨change, error, hchange, hfaithful⟩ :=
        faithful_of_terminalTransition hactive houtcome
      rcases Recorded.finish hprepare hid hfound hfaithful with ⟨run, s', heq, hstored, hrun⟩ | heq
      · simp only [advanceStart, hchange, heq]
        exact ⟨run, hstored, hrun _⟩
      · simp only [advanceStart, hchange, heq]
        exact ⟨_, hfound, .active attemptId hid trivial⟩
    | failing prepared' run reason error =>
      obtain rfl : run = activeRun call prepared attemptId := hcarries
      obtain ⟨change, hchange⟩ : ∃ change, finishFailure (activeRun call prepared attemptId)
        reason = some change := ⟨_, rfl⟩
      rcases Recorded.finish hprepare hid hfound (faithful_of_finishFailure hactive hchange) with
        ⟨run, s', heq, hstored, hrun⟩ | heq
      · simp only [advanceStart, hchange, heq]
        exact ⟨run, hstored, hrun _⟩
      · simp only [advanceStart, hchange, heq]
        exact ⟨_, hfound, .active attemptId hid trivial⟩
    | rereading tenant runId => exact ⟨_, hfound, .active attemptId hid trivial⟩
    | signalling tenant run => exact hcarries.elim
    | cancelling tenant run => exact hcarries.elim
    | returned result => exact ⟨_, hfound, .active attemptId hid trivial⟩
    | dropped => exact ⟨_, hfound, .active attemptId hid trivial⟩
    | panicked => exact hcarries.elim
  | finished result hfaithful hstarted => exact ⟨_, hfound, .finished result hfaithful hstarted⟩

end Own

/-! ## Whole interleavings -/

section Runs

variable {γ : Type} [DecidableEq γ] {p : Platform} {calls : γ → Call}

/-- The start `t` has created the run. -/
structure Creates (p : Platform) (calls : γ → Call) (log : List (γ × Event)) (id : LogicalId)
    (t : γ) (call : StartCall) (prepared : Prepared) : Prop where
  start : calls t = .start call
  prepare : prepare p call = .ok prepared
  id : prepared.run.id = id
  logged : (t, Event.created prepared.identity prepared.run) ∈ log

/-- A stored run was stored before, or has just been created. -/
theorem Move.stored {call : Call} {s s' : Shared} {pc pc' : Pc} {events : List Event}
    (h : Move p call s pc pc' s' events) {id : LogicalId} {run : Run}
    (hrun : s'.store.runs[id]? = some run) :
    (∃ before, s.store.runs[id]? = some before) ∨
      ∃ start prepared, call = .start start ∧ Workflow.prepare p start = .ok prepared ∧
        prepared.run.id = id ∧ Event.created prepared.identity prepared.run ∈ events := by
  cases h with
  | quiet hstore =>
    rw [hstore] at hrun
    exact .inl ⟨run, hrun⟩
  | @create start prepared _ hstart hprepare _ _ hstore =>
    rw [hstore] at hrun
    by_cases hid : prepared.run.id = id
    · exact .inr ⟨start, prepared, hstart, hprepare, hid, List.mem_singleton_self _⟩
    · refine .inl ⟨run, ?_⟩
      rwa [Std.ExtTreeMap.getElem?_insert, if_neg (by simpa using hid)] at hrun
  | read => exact .inl ⟨run, hrun⟩
  | invoke => exact .inl ⟨run, hrun⟩
  | @apply _ _ _ target current _ _ _ hfound _ _ _ hstore _ =>
    rw [hstore] at hrun
    by_cases hid : target = id
    · exact .inl ⟨current, hid ▸ hfound⟩
    · refine .inl ⟨run, ?_⟩
      rwa [Std.ExtTreeMap.getElem?_insert, if_neg (by simpa using hid)] at hrun

/-- Every stored run has been created by a start of the family. -/
theorem creates_reached (schedule : List γ) {id : LogicalId} {run : Run}
    (hrun : (reached p calls schedule).shared.store.runs[id]? = some run) :
    ∃ t call prepared, Creates p calls (reached p calls schedule).log id t call prepared := by
  induction schedule using List.reverseRecOn generalizing id run with
  | nil => cases hrun
  | append_singleton schedule u ih =>
    have hmove : Move p (calls u) (reached p calls schedule).shared
      ((reached p calls schedule).pc u) _ _ _ := advance_move (calls u) _
    rw [reached_concat] at hrun ⊢
    rcases hmove.stored hrun with ⟨before, hbefore⟩ | ⟨call, prepared, hcall, hprepare, hid, hmem⟩
    · obtain ⟨t, call, prepared, h⟩ := ih hbefore
      exact ⟨t, call, prepared, h.start, h.prepare, h.id, List.mem_append_left _ h.logged⟩
    · exact ⟨u, call, prepared, hcall, hprepare, hid,
        List.mem_append_right _ (List.mem_map_of_mem hmem)⟩

/-- The run of the call that created it, in every state of every interleaving. -/
theorem recorded_reached (hcollision : NoCollision p calls) {t : γ} {call : StartCall}
    {prepared : Prepared} (hcall : calls t = .start call) (hprepare : prepare p call = .ok prepared)
    (schedule : List γ) (hcreated : (t, Event.created prepared.identity prepared.run) ∈
      (reached p calls schedule).log) :
    ∃ stored : Run, (reached p calls schedule).shared.store.runs[prepared.run.id]? = some stored ∧
      (stored.status = .cancelled ∨
        Recorded p call prepared ((reached p calls schedule).pc t) stored) := by
  refine created_reached hcollision hcall hprepare (P := fun _ => Recorded p call prepared)
    (fun _ => .created) (fun schedule stored hrecorded hstored => ?_)
    (fun _ _ _ _ _ hrecorded => hrecorded) schedule hcreated
  exact hrecorded.advance hprepare hstored

/-- What a refused emit leaves of the collector, and what it would hold had only the accepted
evidence been emitted. -/
structure EvidenceCollector.Untraced (c : EvidenceCollector) (emitted : List InvocationEvidence) :
    Prop where
  refused : ∀ pre evidence, ∀ error : WorkflowError,
    (sink.step (sink.final c pre) evidence).1 = .error error →
      (sink.step (sink.final c pre) evidence).2 = sink.final c pre
  collected : sink.final c emitted = c.collect emitted
  accepted : c.collect (c.accepted emitted) = c.collect emitted

theorem EvidenceCollector.untraced (c : EvidenceCollector) (emitted : List InvocationEvidence) :
    c.Untraced emitted where
  refused pre evidence error h := by
    refine sink_step_refused _ _ ?_
    rw [h]
    exact Bool.false_ne_true
  collected := final_sink c emitted
  accepted := collect_accepted c emitted

/-- In every interleaving, every stored run was created by one start.  If it has succeeded it
stores the accepted evidence of that start, if it has failed only the failure; what was rejected
leaves no trace in the collector. -/
theorem stored_runs_faithful (p : Platform) (calls : γ → Call) (hcollision : NoCollision p calls)
    (schedule : List γ) (id : LogicalId) (run : Run)
    (hrun : (reached p calls schedule).shared.store.runs[id]? = some run) :
    ∃ t call prepared, Creates p calls (reached p calls schedule).log id t call prepared ∧
      run.Faithful call prepared.run.maxEvidenceBytes ∧
      (EvidenceCollector.initial prepared.run.maxEvidenceBytes).Untraced call.emitted := by
  obtain ⟨t, call, prepared, h⟩ := creates_reached schedule hrun
  refine ⟨t, call, prepared, h, ?_, EvidenceCollector.untraced _ _⟩
  obtain ⟨stored, hstored, hrecorded⟩ :=
    recorded_reached hcollision h.start h.prepare schedule h.logged
  rw [h.id, hrun] at hstored
  obtain rfl := Option.some.inj hstored
  rcases hrecorded with hcancelled | hrecorded
  · refine .of_open ?_
    rw [hcancelled]
    exact ⟨nofun, nofun⟩
  · exact hrecorded.faithful h.prepare

end Runs

/-- Evidence with a second result and one after it. -/
def sampleEmitted : List InvocationEvidence :=
  [⟨"note", "first"⟩, ⟨"result", "done"⟩, ⟨"result", "again"⟩, ⟨"note", "last"⟩]

/-- The start of that evidence after eight turns. -/
def sampleStored : Sys Unit :=
  reached samplePlatform (sampleAlone 65536 sampleEmitted (.ok ⟨"scope"⟩)) (List.replicate 8 ())

/-- Its run has succeeded without the second result. -/
theorem stored_runs_faithful_sampleStored :
    ∃ id run, sampleStored.shared.store.runs[id]? = some run ∧
      run.status = .succeeded ∧
      texts run.events = [("started", ""), ("note", "first"), ("result", "done"), ("note", "last")] ∧
      ∃ t call prepared, Creates samplePlatform (sampleAlone 65536 sampleEmitted (.ok ⟨"scope"⟩))
          sampleStored.log id t call prepared ∧
        run.Faithful call prepared.run.maxEvidenceBytes ∧
        (EvidenceCollector.initial prepared.run.maxEvidenceBytes).Untraced call.emitted := by
  have hstored : sampleStored.shared.store.runs.toList.any fun entry =>
      entry.2.status = .succeeded && texts entry.2.events =
        [("started", ""), ("note", "first"), ("result", "done"), ("note", "last")] := by
    decide +kernel
  obtain ⟨⟨id, run⟩, hmem, hrun⟩ := List.any_eq_true.mp hstored
  rw [Bool.and_eq_true, decide_eq_true_eq, decide_eq_true_eq] at hrun
  have hfound := BTreeMap.mem_toList.mp hmem
  exact ⟨id, run, hfound, hrun.1, hrun.2, stored_runs_faithful samplePlatform _
    (noCollision_of_prepared fun _ _ _ => rfl) (List.replicate 8 ()) id run hfound⟩

end RustFactory.Workflow
