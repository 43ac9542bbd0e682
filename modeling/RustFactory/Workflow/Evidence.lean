import RustFactory.Workflow.Lifecycle
import RustFactory.Workflow.Runner

/-!
# Workflows: evidence and terminal transitions

When does the store accept the terminal transition that the runner builds?  A failure is accepted
if its reason fits the budget beside the start; a success is accepted if no collected evidence has
an empty kind.  The collector bounds number and size of what it takes, but not the kind.
-/

namespace RustFactory.Workflow

open RustFactory.Lib RustFactory.Agent

/-! ## Derived identifiers -/

theorem hexChars_take_isHex (bytes : Bytes) (n : ℕ) : ∀ c ∈ (hexChars bytes).take n, isHexChar c :=
  fun _ hc => isHexChar_of_mem_hexChars (List.mem_of_mem_take hc)

theorem isIdByte_of_isHexChar {c : Char} (h : isHexChar c) :
    isIdByte (UInt8.ofNat c.toNat) = true := by
  unfold isHexChar at h
  have hlt : c.toNat < 256 := by omega
  have hnat : (UInt8.ofNat c.toNat).toNat = c.toNat := UInt8.toNat_ofNat_of_lt' hlt
  unfold isIdByte isAsciiLowercase isAsciiDigit
  simp only [Bool.or_eq_true, Bool.and_eq_true, decide_eq_true_eq, UInt8.le_iff_toNat_le, hnat]
  rcases h with h | h
  · exact .inl (.inl (.inr h))
  · exact .inl (.inl (.inl ⟨h.1, h.2.trans (by decide)⟩))

theorem derivedId_attempt (p : Platform) (source : String) :
    ∃ id, p.derivedId "attempt" source = .ok id := by
  have hhex := hexChars_take_isHex (p.sha256.digest (utf8 source)) 32
  have hbytes : utf8 ("attempt" ++ "-" ++
      String.ofList ((hexChars (p.sha256.digest (utf8 source))).take 32)) =
      97 :: ([116, 116, 101, 109, 112, 116, 45] ++
        ((hexChars (p.sha256.digest (utf8 source))).take 32).map fun c => UInt8.ofNat c.toNat) := by
    rw [utf8_append, utf8_ofList_hex hhex]
    rfl
  have hid : isId ("attempt" ++ "-" ++
      String.ofList ((hexChars (p.sha256.digest (utf8 source))).take 32)) = true := by
    unfold isId
    rw [hbytes, Bool.and_eq_true, decide_eq_true_eq]
    refine ⟨?_, ?_⟩
    · rw [List.length_cons, List.length_append, List.length_map, List.length_take]
      show 7 + min 32 _ + 1 ≤ 128
      omega
    · show (isIdStart 97 && _) = true
      rw [show isIdStart 97 = true from rfl, Bool.true_and, List.all_append, Bool.and_eq_true]
      refine ⟨rfl, List.all_eq_true.mpr fun b hb => ?_⟩
      obtain ⟨c, hc, rfl⟩ := List.mem_map.mp hb
      exact isIdByte_of_isHexChar (hhex c hc)
  exact ⟨⟨_, hid⟩, dif_pos hid⟩

theorem identifier_hexDigest (p : Platform) (bytes : Bytes) :
    ∃ key, Gateway.Identifier.new (p.hexDigest bytes) = .ok key := by
  have hlen : byteLen (p.hexDigest bytes) = 64 := byteLen_hexDigest p.sha256 bytes
  have hvalid : Gateway.validateIdentifier (p.hexDigest bytes) = .ok () := by
    unfold Gateway.validateIdentifier Gateway.validateLen
    rw [if_neg, hlen, if_neg]
    · decide
    · intro hempty
      rw [hempty] at hlen
      cases hlen
  have hok : (Gateway.validateIdentifier (p.hexDigest bytes)).isOk = true := by
    rw [hvalid]
    rfl
  exact ⟨⟨p.hexDigest bytes, hok⟩, ifOk_eq_ok.mpr ⟨hok, rfl⟩⟩

/-! ## The collector -/

/-- Kind and data of evidence. -/
def evidenceTexts (events : List InvocationEvidence) : List (String × String) :=
  events.map fun event => (event.kind, event.data)

namespace EvidenceCollector

/-- What the collector guarantees of what it has taken; `base` counts the bytes it started from. -/
structure Within (base : ℕ) (c : EvidenceCollector) : Prop where
  count : c.existingEvents + c.events.length ≤ maxEvents
  used : c.usedBytes = base + totalBytes (evidenceTexts c.events)
  fits : c.usedBytes ≤ c.limit
  output : c.output.isSome = true → c.events ≠ []

/-- An accepted emit appends the evidence, within all bounds. -/
theorem emit_eq_ok {c c' : EvidenceCollector} {evidence : InvocationEvidence}
    (h : c.emit evidence = .ok c') :
    c'.limit = c.limit ∧ c'.existingEvents = c.existingEvents ∧
      c'.events = c.events ++ [evidence] ∧
      c'.usedBytes = c.usedBytes + (byteLen evidence.kind + byteLen evidence.data) ∧
      c'.usedBytes ≤ c.limit ∧ c.existingEvents + c.events.length + 1 ≤ maxEvents := by
  unfold emit at h
  obtain ⟨itemBytes, hitem, h⟩ := bind_eq_ok.mp h
  obtain ⟨total, htotal, h⟩ := bind_eq_ok.mp h
  obtain ⟨eventCount, hcount, h⟩ := bind_eq_ok.mp h
  obtain ⟨rfl, -⟩ := checkedAddSize_eq_some.mp (okOr_eq_ok.mp hitem)
  obtain ⟨rfl, -⟩ := checkedAddSize_eq_some.mp (okOr_eq_ok.mp htotal)
  obtain ⟨count, hfirst, hsecond⟩ := Option.bind_eq_some_iff.mp (okOr_eq_ok.mp hcount)
  obtain ⟨rfl, -⟩ := checkedAddSize_eq_some.mp hfirst
  obtain ⟨rfl, -⟩ := checkedAddSize_eq_some.mp hsecond
  split_ifs at h with hlimits hkind houtput
  · cases h
    exact ⟨rfl, rfl, rfl, rfl, by show c.usedBytes + _ ≤ _; omega, by omega⟩
  · cases h
    exact ⟨rfl, rfl, rfl, rfl, by show c.usedBytes + _ ≤ _; omega, by omega⟩

theorem observe_limit (c : EvidenceCollector) (evidence : InvocationEvidence) :
    (c.observe evidence).limit = c.limit ∧
      (c.observe evidence).existingEvents = c.existingEvents := by
  unfold observe
  cases h : c.emit evidence with
  | ok c' => exact ⟨(emit_eq_ok h).1, (emit_eq_ok h).2.1⟩
  | error e => exact ⟨rfl, rfl⟩

theorem Within.observe {base : ℕ} {c : EvidenceCollector} (h : c.Within base)
    (evidence : InvocationEvidence) : (c.observe evidence).Within base := by
  unfold EvidenceCollector.observe
  cases hemit : c.emit evidence with
  | error e => exact h
  | ok c' =>
    obtain ⟨hlimit, hexisting, hevents, hused, hfits, hcount⟩ := emit_eq_ok hemit
    refine ⟨?_, ?_, hlimit ▸ hfits, fun _ => ?_⟩
    · rw [hexisting, hevents, List.length_append, List.length_singleton]
      omega
    · have htexts : totalBytes (evidenceTexts (c.events ++ [evidence])) =
          totalBytes (evidenceTexts c.events) + (byteLen evidence.kind + byteLen evidence.data) := by
        unfold evidenceTexts
        rw [List.map_append, totalBytes_append]
        rfl
      rw [hevents, htexts, hused, h.used]
      omega
    · rw [hevents]
      exact List.append_ne_nil_of_right_ne_nil _ (List.cons_ne_nil _ _)

theorem Within.collect {base : ℕ} {c : EvidenceCollector} (h : c.Within base)
    (emitted : List InvocationEvidence) :
    (c.collect emitted).Within base ∧ (c.collect emitted).limit = c.limit ∧
      (c.collect emitted).existingEvents = c.existingEvents := by
  unfold EvidenceCollector.collect
  induction emitted generalizing c with
  | nil => exact ⟨h, rfl, rfl⟩
  | cons evidence emitted ih =>
    obtain ⟨hwithin, hlimit, hexisting⟩ := ih (h.observe evidence)
    obtain ⟨hlimit', hexisting'⟩ := c.observe_limit evidence
    exact ⟨hwithin, hlimit.trans hlimit', hexisting.trans hexisting'⟩

end EvidenceCollector

/-! ## Active runs -/

def startedEvents : List WorkflowEvent := [⟨1, "started", ""⟩]

/-- A run that the runner has started and not finished. -/
structure Run.Active (run : Run) (current : Attempt) : Prop where
  status : run.status = .running
  revision : run.revision = 1
  events : run.events = startedEvents
  attempt : run.attempt = some current
  running : current.status = .running
  result : current.result = none
  error : current.error = none
  least : minTerminalEvidenceBytes ≤ run.maxEvidenceBytes
  most : run.maxEvidenceBytes ≤ Workflow.maxEvidenceBytes

theorem totalBytes_startedEvents : totalBytes (texts startedEvents) = 7 := by decide +kernel

theorem minTerminalEvidenceBytes_eq : minTerminalEvidenceBytes = 47 := by decide +kernel

/-- The collector for the invocation of an active run. -/
def EvidenceCollector.initial (budget : ℕ) : EvidenceCollector := ⟨budget, 1, 7, [], none⟩

theorem EvidenceCollector.within_initial {budget : ℕ} (h : 7 ≤ budget) :
    (EvidenceCollector.initial budget).Within 7 :=
  ⟨show 1 ≤ 64 by decide, rfl, h, nofun⟩

theorem Run.Active.collector {run : Run} {attempt : Attempt} (h : run.Active attempt) :
    EvidenceCollector.new run.maxEvidenceBytes run.events = .ok (.initial run.maxEvidenceBytes) := by
  have hleast := h.least
  rw [minTerminalEvidenceBytes_eq] at hleast
  have hbytes : evidenceBytes (texts run.events) = .ok 7 := by
    rw [h.events]
    exact evidenceBytes_eq_ok.mpr ⟨totalBytes_startedEvents.symm, by norm_num⟩
  unfold EvidenceCollector.new
  rw [hbytes, ok_bind, h.events, if_neg]
  · rfl
  · show ¬(run.maxEvidenceBytes < 7 ∨ 64 < 1)
    omega

theorem Run.Active.same {run : Run} {attempt : Attempt} (h : run.Active attempt)
    (digest : Option String) (status : AttemptStatus) (result error : Option String) :
    sameAttempt attempt { attempt with
      capabilityScopeDigest := digest, status := status, result := result, error := error } =
      true :=
  sameAttempt_eq_true.mpr ⟨⟨rfl, rfl, rfl, rfl⟩, h.running⟩

theorem Run.Active.valid_iff {run : Run} {attempt : Attempt} (h : run.Active attempt)
    {change : Transition}
    (hchange : changeAllowed .running change.status change.terminalReason run.attempt
      change.attempt = true) :
    transitionIsValid run .running change = true ↔ change.events ≠ [] ∧
      (1 + change.events.length ≤ maxEvents ∧
        7 + totalBytes (texts change.events) ≤ run.maxEvidenceBytes) ∧
      numberedFrom 2 change.events = true := by
  have hmax : run.maxEvidenceBytes < 2 ^ 64 := lt_of_le_of_lt h.most (by decide)
  have hnext : nextSequence run = 2 := by
    unfold nextSequence
    rw [h.events]
    rfl
  have hfit : eventsFit run change.events = true ↔ 1 + change.events.length ≤ maxEvents ∧
      7 + totalBytes (texts change.events) ≤ run.maxEvidenceBytes := by
    rw [eventsFit_iff hmax, texts_append, totalBytes_append, h.events, totalBytes_startedEvents]
    rfl
  rw [transitionIsValid_iff, hfit, hnext, h.status]
  constructor
  · rintro ⟨-, -, hevents, hfits, hnumbered, -⟩
    exact ⟨hevents, hfits, hnumbered⟩
  · rintro ⟨hevents, hfits, hnumbered⟩
    exact ⟨rfl, rfl, hevents, hfits, hnumbered, hchange⟩

/-! ## Failures -/

/-- A failure with this reason fits the budget. -/
def reasonFits (budget : ℕ) (reason : String) : Prop :=
  byteLen "started" + byteLen "invocation_failed" + byteLen reason ≤ budget

theorem finishFailure_valid_iff {run : Run} {attempt : Attempt} (h : run.Active attempt)
    {reason : String} {change : Transition} (hchange : finishFailure run reason = some change) :
    transitionIsValid run .running change = true ↔ reasonFits run.maxEvidenceBytes reason := by
  unfold finishFailure at hchange
  rw [h.attempt] at hchange
  obtain rfl := Option.some.inj hchange
  rw [h.valid_iff]
  · have hstarted : byteLen "started" = 7 := by decide +kernel
    have hnumbered : numberedFrom 2
        [⟨UInt64.ofNat run.events.length + 1, "invocation_failed", reason⟩] = true := by
      rw [h.events]
      rfl
    have htotal : totalBytes
        (texts [⟨UInt64.ofNat run.events.length + 1, "invocation_failed", reason⟩]) =
        byteLen "invocation_failed" + byteLen reason := rfl
    unfold reasonFits
    rw [htotal, hstarted]
    constructor
    · rintro ⟨-, ⟨-, hfits⟩, -⟩
      omega
    · intro hfits
      exact ⟨List.cons_ne_nil _ _, ⟨show 1 + 1 ≤ 64 by decide, by omega⟩, hnumbered⟩
  · rw [h.attempt]
    show (sameAttempt attempt _ && _ && attempt.result.isNone && _) = true
    rw [h.same, h.result]
    rfl

/-- The reasons of failed invocations fit every budget that a definition may have. -/
theorem reasonFits_failureReason {budget : ℕ} (h : minTerminalEvidenceBytes ≤ budget)
    (error : WorkflowError) : reasonFits budget (failureReason error) := by
  have hall : ∀ error : WorkflowError, byteLen "started" + byteLen "invocation_failed" +
      byteLen (failureReason error) ≤ 47 := by
    intro error
    cases error
    all_goals decide +kernel
  rw [minTerminalEvidenceBytes_eq] at h
  exact (hall error).trans h

/-! ## Successes -/

/-- The events that a success stores are the collected evidence, numbered from 2. -/
theorem sequences_mapIdx (events : List InvocationEvidence) (h : events.length < 2 ^ 32) :
    (events.mapIdx fun index item => (⟨UInt64.ofNat 1 + UInt64.ofNat index + 1, item.kind,
      item.data⟩ : WorkflowEvent)).map (fun event => event.sequence.toNat) =
      List.range' 2 events.length := by
  refine List.ext_getElem (by simp) fun i hi _ => ?_
  have hlt : i < events.length := by simpa using hi
  have hadd : UInt64.ofNat 1 + UInt64.ofNat i + 1 = UInt64.ofNat (2 + i) := by
    rw [show 2 + i = 1 + i + 1 by omega, UInt64.ofNat_add, UInt64.ofNat_add]
    rfl
  simp only [List.getElem_map, List.getElem_mapIdx, List.getElem_range', hadd]
  rw [UInt64.toNat_ofNat_of_lt' (show 2 + i < 2 ^ 64 by omega)]
  omega

theorem finishSuccess_valid_iff {run : Run} {attempt : Attempt} (h : run.Active attempt)
    {evidence : EvidenceCollector} (hwithin : evidence.Within 7)
    (hlimit : evidence.limit = run.maxEvidenceBytes) (hexisting : evidence.existingEvents = 1)
    {result : AgentInvocationResult} {change : Transition}
    (hchange : finishSuccess run result evidence = .ok change) :
    transitionIsValid run .running change = true ↔ ∀ event ∈ evidence.events, event.kind ≠ "" := by
  unfold finishSuccess at hchange
  obtain ⟨output, houtput, hchange⟩ := bind_eq_ok.mp hchange
  obtain ⟨previous, hprevious, hchange⟩ := bind_eq_ok.mp hchange
  rw [okOr_eq_ok] at houtput hprevious
  rw [h.attempt] at hprevious
  obtain rfl := Option.some.inj hprevious
  obtain rfl := Except.ok.inj hchange
  have hcount := hwithin.count
  have hbytes := hwithin.fits
  rw [hexisting] at hcount
  rw [hwithin.used, hlimit] at hbytes
  have hlen : evidence.events.length < 2 ^ 32 := by
    unfold maxEvents at hcount
    omega
  have hone : run.events.length = 1 := by
    rw [h.events]
    rfl
  rw [h.valid_iff]
  · show evidence.events.mapIdx _ ≠ [] ∧ (1 + (evidence.events.mapIdx _).length ≤ _ ∧
      7 + totalBytes (texts (evidence.events.mapIdx _)) ≤ _) ∧
      numberedFrom (UInt64.ofNat 2) (evidence.events.mapIdx _) = true ↔ _
    have htexts : texts (evidence.events.mapIdx fun index item =>
        (⟨UInt64.ofNat 1 + UInt64.ofNat index + 1, item.kind, item.data⟩ : WorkflowEvent)) =
        evidenceTexts evidence.events := by
      unfold texts evidenceTexts
      refine List.ext_getElem (by simp) fun i _ _ => ?_
      simp only [List.getElem_map, List.getElem_mapIdx]
    have hkinds : (∀ event ∈ evidence.events.mapIdx fun index item =>
        (⟨UInt64.ofNat 1 + UInt64.ofNat index + 1, item.kind, item.data⟩ : WorkflowEvent),
        event.kind ≠ "") ↔ ∀ event ∈ evidence.events, event.kind ≠ "" := by
      simp only [List.mem_mapIdx, forall_exists_index]
      constructor
      · intro hall event hmem
        obtain ⟨i, hi, rfl⟩ := List.mem_iff_getElem.mp hmem
        exact hall _ i hi rfl
      · rintro hall _ i hi rfl
        exact hall _ (List.getElem_mem hi)
    rw [hone, htexts, numberedFrom_iff (by rw [List.length_mapIdx]; omega), List.length_mapIdx,
      hkinds]
    constructor
    · rintro ⟨-, -, -, hall⟩
      exact hall
    · intro hall
      refine ⟨?_, ⟨hcount, hbytes⟩, sequences_mapIdx _ hlen, hall⟩
      intro hnil
      refine hwithin.output (by rw [houtput]; rfl) ?_
      rw [List.mapIdx_eq_nil_iff] at hnil
      exact hnil
  · rw [h.attempt]
    show (sameAttempt attempt _ && _ && _ && attempt.error.isNone) = true
    rw [h.same, h.error]
    rfl

/-! ## Terminal transitions -/

/-- The condition under which the outcome of an invocation can be stored. -/
def OutcomeFits (budget : ℕ) (emitted : List InvocationEvidence) :
    Except WorkflowError AgentInvocationResult → Prop
  | .error _ => True
  | .ok _ =>
    if ((EvidenceCollector.initial budget).collect emitted).output.isSome then
      ∀ event ∈ ((EvidenceCollector.initial budget).collect emitted).events, event.kind ≠ ""
    else reasonFits budget "invalid_invocation_result"

/-- The runner always builds a terminal transition, and the guard accepts it exactly if the
outcome fits. -/
theorem terminalTransition_valid {run : Run} {attempt : Attempt} (h : run.Active attempt)
    (emitted : List InvocationEvidence) (outcome : Except WorkflowError AgentInvocationResult) :
    ∃ change error, terminalTransition run
        ((EvidenceCollector.initial run.maxEvidenceBytes).collect emitted) outcome =
          some (change, error) ∧ change.status.isTerminal = true ∧ change.status ≠ .cancelled ∧
      (transitionIsValid run .running change = true ↔
        OutcomeFits run.maxEvidenceBytes emitted outcome) := by
  have hleast := h.least
  rw [minTerminalEvidenceBytes_eq] at hleast
  obtain ⟨hwithin, hlimit, hexisting⟩ :=
    (EvidenceCollector.within_initial (show 7 ≤ run.maxEvidenceBytes by omega)).collect emitted
  have hfailure : ∀ reason, ∃ change, finishFailure run reason = some change ∧
      change.status = .failed := by
    intro reason
    unfold finishFailure
    rw [h.attempt]
    exact ⟨_, rfl, rfl⟩
  cases outcome with
  | error e =>
    obtain ⟨change, hchange, hstatus⟩ := hfailure (failureReason e)
    refine ⟨change, some e, ?_, by rw [hstatus]; rfl, by rw [hstatus]; nofun, ?_⟩
    · simp only [terminalTransition, hchange, Option.map_some]
    · rw [finishFailure_valid_iff h hchange]
      exact iff_of_true (reasonFits_failureReason h.least e) trivial
  | ok result =>
    cases houtput : ((EvidenceCollector.initial run.maxEvidenceBytes).collect emitted).output with
    | none =>
      obtain ⟨change, hchange, hstatus⟩ := hfailure "invalid_invocation_result"
      refine ⟨change, some .invalidRequest, ?_, by rw [hstatus]; rfl, by rw [hstatus]; nofun, ?_⟩
      · unfold terminalTransition finishSuccess
        rw [houtput, hchange]
        rfl
      · rw [finishFailure_valid_iff h hchange]
        unfold OutcomeFits
        rw [houtput]
        rfl
    | some output =>
      have hsuccess : ∃ change, finishSuccess run result
          ((EvidenceCollector.initial run.maxEvidenceBytes).collect emitted) = .ok change ∧
          change.status = .succeeded := by
        unfold finishSuccess
        rw [houtput, h.attempt]
        exact ⟨_, rfl, rfl⟩
      obtain ⟨change, hchange, hstatus⟩ := hsuccess
      refine ⟨change, none, ?_, by rw [hstatus]; rfl, by rw [hstatus]; nofun, ?_⟩
      · simp only [terminalTransition, hchange]
      · rw [finishSuccess_valid_iff h hwithin hlimit hexisting hchange]
        unfold OutcomeFits
        rw [houtput]
        rfl

end RustFactory.Workflow
