import RustFactory.Evaluation.Service

/-!
# Evaluation: what a result says

The executors agree on every definition and every snapshot, and building a result from the local
assessment never fails, so all ways of evaluating a request return the same.  What they return
passes the check of results, and for valid evidence it is the list of the criteria that the evidence
does not satisfy.
-/

namespace RustFactory.Evaluation

open RustFactory.Lib

/-! ## What a criterion asks -/

/-- The evidence is as the criterion says. -/
def Satisfies (snapshot : TerminalEvidenceSnapshotV1) : CriterionV1 → Prop
  | .exactOutput expected => snapshot.output = expected
  | .eventKindCount kind expected =>
    (snapshot.events.countP fun event => event.kind = kind) = expected.toNat
  | .eventDataEquals sequence expected =>
    ∃ event ∈ snapshot.events, event.sequence = sequence ∧ event.data = expected

instance (snapshot : TerminalEvidenceSnapshotV1) :
    (criterion : CriterionV1) → Decidable (Satisfies snapshot criterion)
  | .exactOutput _ => inferInstanceAs (Decidable (_ = _))
  | .eventKindCount _ _ => inferInstanceAs (Decidable (_ = _))
  | .eventDataEquals _ _ => inferInstanceAs (Decidable (∃ event ∈ snapshot.events, _))

/-- The findings for the criteria that are not satisfied, numbered from one. -/
def failures (definition : EvaluationDefinitionV1) (snapshot : TerminalEvidenceSnapshotV1) :
    List String :=
  ((definition.criteria.zipIdx 1).filter fun entry => ¬Satisfies snapshot entry.1).map
    fun entry => "criterion_" ++ decimal entry.2 ++ "_failed"

/-- The events of a valid snapshot are few and numbered from one. -/
theorem sequence_eq_of_validateSnapshot {snapshot : TerminalEvidenceSnapshotV1}
    (h : validateSnapshot snapshot = .ok ()) {event : EvidenceEventV1} {index : ℕ}
    (hevent : snapshot.events[index]? = some event) :
    event.sequence = UInt64.ofNat (index + 1) ∧ index < maxEvents := by
  unfold validateSnapshot at h
  cases hbound : validateAndBoundSnapshot snapshot with
  | error e => rw [hbound] at h; cases h
  | ok len =>
    unfold validateAndBoundSnapshot at hbound
    split_ifs at hbound with hinvalid
    obtain ⟨⟨⟩, hevents, -⟩ := bind_eq_ok.mp hbound
    have hone : validateEvent index event = .ok () :=
      forM_eq_ok.mp hevents (event, index) (List.mk_mem_zipIdx_iff_getElem?.mpr hevent)
    unfold validateEvent at hone
    split_ifs at hone with hbad
    simp only [not_or, ne_eq, not_not] at hbad
    have hlength : snapshot.events.length ≤ maxEvents := by
      by_contra hmany
      refine hinvalid ?_
      simp only [Bool.or_eq_true, decide_eq_true_eq]
      exact Or.inl (Or.inl (Or.inr (Nat.not_le.mp hmany)))
    have hindex := (List.getElem?_eq_some_iff.mp hevent).1
    exact ⟨hbad.1, by omega⟩

theorem eq_of_sequence_eq {snapshot : TerminalEvidenceSnapshotV1}
    (h : validateSnapshot snapshot = .ok ()) {a b : EvidenceEventV1} (ha : a ∈ snapshot.events)
    (hb : b ∈ snapshot.events) (hab : a.sequence = b.sequence) : a = b := by
  obtain ⟨i, hi⟩ := List.mem_iff_getElem?.mp ha
  obtain ⟨j, hj⟩ := List.mem_iff_getElem?.mp hb
  obtain ⟨hai, hilt⟩ := sequence_eq_of_validateSnapshot h hi
  obtain ⟨hbj, hjlt⟩ := sequence_eq_of_validateSnapshot h hj
  rw [hai, hbj] at hab
  have hsmall : ∀ n, n < maxEvents → n + 1 < UInt64.size := by
    intro n hn
    exact Nat.lt_trans (Nat.succ_lt_succ hn) (by decide)
  have hnat := congrArg UInt64.toNat hab
  rw [UInt64.toNat_ofNat_of_lt' (hsmall i hilt), UInt64.toNat_ofNat_of_lt' (hsmall j hjlt)] at hnat
  have hij : i = j := by omega
  rw [hij, hj] at hi
  exact (Option.some.inj hi).symm

/-- On a valid snapshot the assessment asks what the criterion says. -/
theorem passed_iff_satisfies {snapshot : TerminalEvidenceSnapshotV1}
    (h : validateSnapshot snapshot = .ok ()) (criterion : CriterionV1) :
    passed snapshot criterion ↔ Satisfies snapshot criterion := by
  cases criterion with
  | exactOutput expected => exact beq_iff_eq
  | eventKindCount kind expected =>
    simp only [passed, Satisfies]
    rw [beq_iff_eq, List.countP_eq_length_filter]
    simp only [beq_eq_decide]
  | eventDataEquals sequence expected =>
    simp only [passed, Satisfies]
    cases hfind : snapshot.events.find? fun event => event.sequence == sequence with
    | none =>
      rw [Option.any_none]
      refine iff_of_false Bool.false_ne_true ?_
      rintro ⟨event, hevent, hsequence, -⟩
      exact List.find?_eq_none.mp hfind event hevent (beq_iff_eq.mpr hsequence)
    | some found =>
      have hmem := List.mem_of_find?_eq_some hfind
      have hfound := List.find?_some hfind
      have hsequence : found.sequence = sequence := beq_iff_eq.mp hfound
      rw [Option.any_some, beq_iff_eq]
      constructor
      · intro hdata
        exact ⟨found, hmem, hsequence, hdata⟩
      · rintro ⟨event, hevent, hnumber, hdata⟩
        rw [eq_of_sequence_eq h hmem hevent (hsequence.trans hnumber.symm), hdata]

theorem findings_eq_failures {definition : EvaluationDefinitionV1}
    {snapshot : TerminalEvidenceSnapshotV1} (h : validateSnapshot snapshot = .ok ()) :
    (deterministicAssessment definition snapshot).findings = failures definition snapshot := by
  have hfrom : ∀ (criteria : List CriterionV1) (n : ℕ),
      ((criteria.zipIdx n).filterMap fun entry =>
        if passed snapshot entry.1 then none else some (criterionFailed entry.2)) =
      ((criteria.zipIdx (n + 1)).filter fun entry => ¬Satisfies snapshot entry.1).map
        fun entry => "criterion_" ++ decimal entry.2 ++ "_failed" := by
    intro criteria
    induction criteria with
    | nil => intro n; rfl
    | cons criterion criteria ih =>
      intro n
      rw [List.zipIdx_cons, List.zipIdx_cons, List.filterMap_cons]
      by_cases hpassed : passed snapshot criterion
      · have hsatisfied := (passed_iff_satisfies h criterion).mp hpassed
        rw [if_pos hpassed, List.filter_cons_of_neg (by simpa using hsatisfied), ih]
      · have hfailed := mt (passed_iff_satisfies h criterion).mpr hpassed
        rw [if_neg hpassed, List.filter_cons_of_pos (by simpa using hfailed), List.map_cons, ih]
        rfl
  exact hfrom definition.criteria 0

theorem verdict_deterministicAssessment (definition : EvaluationDefinitionV1)
    (snapshot : TerminalEvidenceSnapshotV1) :
    (deterministicAssessment definition snapshot).verdict =
      if (deterministicAssessment definition snapshot).findings = [] then .pass else .fail := by
  unfold deterministicAssessment
  simp only [List.isEmpty_iff]

theorem failures_eq_nil {definition : EvaluationDefinitionV1}
    {snapshot : TerminalEvidenceSnapshotV1} :
    failures definition snapshot = [] ↔ ∀ criterion ∈ definition.criteria,
      Satisfies snapshot criterion := by
  unfold failures
  rw [List.map_eq_nil_iff, List.filter_eq_nil_iff]
  constructor
  · intro hall criterion hcriterion
    obtain ⟨i, hi⟩ := List.mem_iff_getElem?.mp hcriterion
    have hentry : (criterion, 1 + i) ∈ definition.criteria.zipIdx 1 :=
      List.mk_add_mem_zipIdx_iff_getElem?.mpr hi
    simpa using hall _ hentry
  · intro hall entry hentry
    simpa using hall entry.1 (List.fst_mem_of_mem_zipIdx hentry)

/-! ## The framework says the same -/

theorem mapOutcome_ite (index : ℕ) (isMatch : Bool) (reason : String) :
    mapOutcome index (if isMatch then .pass else .fail reason) =
      (false, if isMatch then none else some (criterionFailed index)) := by
  cases isMatch with
  | true => rfl
  | false => rfl

theorem mapOutcome_criterionOutcome {scorers : Scorers} (hscorers : scorers.Faithful)
    (evidence : TerminalEvidenceSnapshotV1) (index : ℕ) (criterion : CriterionV1) :
    mapOutcome index (criterionOutcome scorers evidence criterion) =
      (false, if passed evidence criterion then none else some (criterionFailed index)) := by
  cases criterion with
  | exactOutput expected =>
    simp only [criterionOutcome, passed, beq_iff_eq]
    by_cases hequal : evidence.output = expected
    · rw [(hscorers.exactMatch_pass _ _).mpr hequal, if_pos hequal]
      rfl
    · obtain ⟨reason, hreason⟩ := hscorers.exactMatch_fail _ _ hequal
      rw [hreason, if_neg hequal]
      rfl
  | eventKindCount kind expected =>
    simp only [criterionOutcome, passed, hscorers.function_eq]
    exact mapOutcome_ite index _ _
  | eventDataEquals sequence expected =>
    simp only [criterionOutcome, passed, hscorers.function_eq]
    exact mapOutcome_ite index _ _

/-- The loop collects what the filter keeps and never sees an error. -/
theorem foldl_assessCriterion {scorers : Scorers} (hscorers : scorers.Faithful)
    (evidence : TerminalEvidenceSnapshotV1) (entries : List (CriterionV1 × ℕ))
    (findings : List String) :
    entries.foldl (assessCriterion scorers evidence) (findings, false) =
      (findings ++ entries.filterMap fun entry =>
        if passed evidence entry.1 then none else some (criterionFailed entry.2), false) := by
  induction entries generalizing findings with
  | nil => rw [List.foldl_nil, List.filterMap_nil, List.append_nil]
  | cons entry entries ih =>
    have hstep : assessCriterion scorers evidence (findings, false) entry =
        (findings ++ (if passed evidence entry.1 then none
          else some (criterionFailed entry.2)).toList, false) := by
      unfold assessCriterion
      rw [mapOutcome_criterionOutcome hscorers]
      rfl
    rw [List.foldl_cons, hstep, ih, List.filterMap_cons, List.append_assoc]
    by_cases hpassed : passed evidence entry.1
    · rw [if_pos hpassed]
      rfl
    · rw [if_neg hpassed]
      rfl

theorem serdesAiEvalsExecutor_eq {scorers : Scorers} (hscorers : scorers.Faithful) :
    serdesAiEvalsExecutor scorers = deterministicCriteriaEvaluator := by
  funext definition evidence
  unfold serdesAiEvalsExecutor
  rw [foldl_assessCriterion hscorers]
  rfl

/-! ## Results are valid -/

theorem isSha256_hexDigest (sha256 : Sha256) (bytes : Bytes) :
    isSha256 (sha256.hexDigest bytes) := by
  unfold isSha256
  rw [Bool.and_eq_true, decide_eq_true_eq, List.all_eq_true]
  exact ⟨byteLen_hexDigest sha256 bytes, fun b hb => lowercaseHex_of_mem_hexDigest hb⟩

theorem isSha256_of_map_hexDigest {sha256 : Sha256} {bytes : Except EvaluationError Bytes}
    {digest : String} (h : bytes.map sha256.hexDigest = .ok digest) : isSha256 digest := by
  cases bytes with
  | error e => cases h
  | ok bytes =>
    cases h
    exact isSha256_hexDigest sha256 bytes

theorem validateResult_withContentHash {sha256 : Sha256} {draft result : EvaluationResultV1}
    (h : withContentHash sha256 draft = .ok result) : validateResult sha256 result = .ok () := by
  unfold withContentHash at h
  obtain ⟨hash, hhash, h⟩ := bind_eq_ok.mp h
  cases h
  have hdigest : resultDigest sha256 { draft with contentHash := hash } = .ok hash := hhash
  have hfields : validateResultFields { draft with contentHash := hash } = .ok () := by
    unfold resultDigest resultCanonicalBytes at hdigest
    cases hvalid : validateResultFields { draft with contentHash := hash } with
    | error e => rw [hvalid] at hdigest; cases hdigest
    | ok _ => rfl
  have hsha : isSha256 hash := isSha256_of_map_hexDigest hhash
  unfold validateResult
  rw [hfields, ok_bind, hdigest, ok_bind, if_pos]
  rw [Bool.and_eq_true, beq_iff_eq]
  exact ⟨hsha, rfl⟩

theorem withContentHash_isOk {sha256 : Sha256} {draft : EvaluationResultV1}
    (h : validateResultFields draft = .ok ()) : ∃ result, withContentHash sha256 draft = .ok result := by
  unfold withContentHash resultDigest resultCanonicalBytes
  rw [h]
  exact ⟨_, rfl⟩

theorem validateLogicalKey_requestKey {sha256 : Sha256} {tenantId runId : String}
    {definition : EvaluationDefinitionV1} {revision : UInt64} {key : LogicalEvaluationKey}
    (hrequest : checkedRequest tenantId runId definition = .ok ())
    (hkey : requestKey sha256 tenantId runId definition revision = .ok key) :
    validateLogicalKey key = .ok () := by
  unfold checkedRequest at hrequest
  split_ifs at hrequest with hids
  unfold requestKey at hkey
  obtain ⟨digest, hdigest, hkey⟩ := bind_eq_ok.mp hkey
  cases hkey
  have hsha : isSha256 digest := isSha256_of_map_hexDigest hdigest
  unfold validateDefinition at hrequest
  split_ifs at hrequest with hdefinition
  simp only [Bool.or_eq_true, Bool.not_eq_true', decide_eq_true_eq, not_or, Bool.not_eq_false]
    at hids hdefinition
  unfold validateLogicalKey
  rw [if_pos]
  simp only [hids.1, hids.2, hdefinition.1.1, hdefinition.1.2, hsha, Bool.and_self]

theorem byteLen_criterionFailed {index : ℕ} (h : index < maxCriteria) :
    byteLen (criterionFailed index) ≤ maxFindingBytes := by
  have hall : ∀ index : Fin maxCriteria, byteLen (criterionFailed index) ≤ maxFindingBytes := by
    decide +kernel
  exact hall ⟨index, h⟩

theorem findings_bounded {definition : EvaluationDefinitionV1}
    (h : validateDefinition definition = .ok ()) (snapshot : TerminalEvidenceSnapshotV1) :
    (maxFindings < (deterministicAssessment definition snapshot).findings.length ||
      (deterministicAssessment definition snapshot).findings.any
        fun finding => maxFindingBytes < byteLen finding) = false := by
  unfold validateDefinition at h
  split_ifs at h with hdefinition
  simp only [Bool.or_eq_true, decide_eq_true_eq, not_or, Nat.not_lt] at hdefinition
  have hfew : definition.criteria.length ≤ maxCriteria := hdefinition.2
  unfold deterministicAssessment
  rw [Bool.or_eq_false_iff, decide_eq_false_iff_not, Nat.not_lt, List.any_eq_false]
  constructor
  · refine (List.length_filterMap_le _ _).trans ?_
    rw [List.length_zipIdx]
    exact hfew.trans (by decide)
  · intro finding hfinding
    obtain ⟨⟨criterion, index⟩, hentry, hfinding⟩ := List.mem_filterMap.mp hfinding
    have hindex := List.snd_lt_of_mem_zipIdx hentry
    change (if passed snapshot criterion then none else some (criterionFailed index)) =
      some finding at hfinding
    by_cases hpassed : passed snapshot criterion
    · rw [if_pos hpassed] at hfinding
      cases hfinding
    · rw [if_neg hpassed] at hfinding
      cases hfinding
      rw [decide_eq_true_eq, Nat.not_lt]
      exact byteLen_criterionFailed (Nat.lt_of_lt_of_le hindex hfew)

theorem validateAssessment_deterministic {definition : EvaluationDefinitionV1}
    (h : validateDefinition definition = .ok ()) (snapshot : TerminalEvidenceSnapshotV1) :
    validateAssessment (deterministicAssessment definition snapshot) = .ok () := by
  unfold validateAssessment
  rw [findings_bounded h snapshot, if_neg Bool.false_ne_true, verdict_deterministicAssessment]
  cases (deterministicAssessment definition snapshot).findings with
  | nil => rfl
  | cons finding findings => rfl

/-- Building a result from the local assessment of valid evidence does not fail. -/
theorem buildResult_deterministic {sha256 : Sha256} {tenantId runId : String}
    {definition : EvaluationDefinitionV1} {snapshot : TerminalEvidenceSnapshotV1}
    {key : LogicalEvaluationKey} (hrequest : checkedRequest tenantId runId definition = .ok ())
    (hkey : requestKey sha256 tenantId runId definition snapshot.runRevision = .ok key)
    (hevidence : checkEvidence tenantId runId snapshot = .ok ()) :
    ∃ result, buildResult sha256 key snapshot (deterministicAssessment definition snapshot) =
      .ok result := by
  have hdefinition : validateDefinition definition = .ok () := by
    unfold checkedRequest at hrequest
    split_ifs at hrequest
    exact hrequest
  unfold checkEvidence at hevidence
  obtain ⟨⟨⟩, hsnapshot, -⟩ := bind_eq_ok.mp hevidence
  have hdigest : snapshotDigest sha256 snapshot = _ :=
    @digest_eq sha256 (.snapshot snapshot) hsnapshot
  unfold buildResult
  rw [validateAssessment_deterministic hdefinition, ok_bind, hdigest, ok_bind]
  apply withContentHash_isOk
  unfold validateResultFields
  rw [validateLogicalKey_requestKey hrequest hkey, ok_bind, if_neg, if_neg]
  · rw [findings_bounded hdefinition snapshot]
    exact Bool.false_ne_true
  · rw [isSha256_hexDigest]
    exact Bool.false_ne_true

/-! ## Evaluations -/

theorem evaluate_eq_ok {sha256 : Sha256} {reader : WorkflowEvidenceReader} {tenantId runId : String}
    {definition : EvaluationDefinitionV1} {result : EvaluationResultV1}
    (h : evaluate sha256 reader tenantId runId definition = .ok result) :
    ∃ snapshot key, checkedRequest tenantId runId definition = .ok () ∧
      reader tenantId runId = .ok (some snapshot) ∧
      requestKey sha256 tenantId runId definition snapshot.runRevision = .ok key ∧
      ((checkEvidence tenantId runId snapshot = .ok () ∧
          buildResult sha256 key snapshot (deterministicAssessment definition snapshot) =
            .ok result) ∨
        ∃ error, checkEvidence tenantId runId snapshot = .error error ∧
          invalidResult sha256 key tenantId runId error = .ok result) := by
  unfold evaluate at h
  obtain ⟨⟨⟩, hrequest, h⟩ := bind_eq_ok.mp h
  obtain ⟨found, hread, h⟩ := bind_eq_ok.mp h
  obtain ⟨snapshot, hfound, h⟩ := bind_eq_ok.mp h
  obtain ⟨key, hkey, hrest⟩ := bind_eq_ok.mp h
  rw [okOr_eq_ok.mp hfound] at hread
  refine ⟨snapshot, key, hrequest, hread, hkey, ?_⟩
  cases hevidence : checkEvidence tenantId runId snapshot with
  | error error => rw [hevidence] at hrest; exact Or.inr ⟨error, rfl, hrest⟩
  | ok _ => rw [hevidence] at hrest; exact Or.inl ⟨rfl, hrest⟩

theorem service_evaluate_eq (sha256 : Sha256) (reader : WorkflowEvidenceReader)
    (tenantId runId : String) (definition : EvaluationDefinitionV1) :
    EvaluationService.evaluate sha256 ⟨reader, deterministicCriteriaEvaluator⟩ tenantId runId
        definition =
      evaluate sha256 reader tenantId runId definition := by
  unfold EvaluationService.evaluate evaluate
  cases hrequest : checkedRequest tenantId runId definition with
  | error e => rfl
  | ok _ =>
    cases hread : reader tenantId runId with
    | error e => simp only [hread, ok_bind, error_bind]
    | ok found =>
      cases found with
      | none => simp only [hread, ok_bind, okOr_none, error_bind]
      | some snapshot =>
        simp only [hread, ok_bind, okOr_some]
        cases hkey : requestKey sha256 tenantId runId definition snapshot.runRevision with
        | error e => rfl
        | ok key =>
          simp only [ok_bind]
          cases hevidence : checkEvidence tenantId runId snapshot with
          | error error => rfl
          | ok _ =>
            obtain ⟨result, hresult⟩ := buildResult_deterministic hrequest hkey hevidence
            simp only [deterministicCriteriaEvaluator, Except.mapError, ok_bind, hresult]

theorem buildResult_eq_ok {sha256 : Sha256} {key : LogicalEvaluationKey}
    {snapshot : TerminalEvidenceSnapshotV1} {assessment : EvaluatorAssessmentV1}
    {result : EvaluationResultV1} (h : buildResult sha256 key snapshot assessment = .ok result) :
    validateResult sha256 result = .ok () ∧ result.verdict = assessment.verdict ∧
      result.findings = assessment.findings := by
  unfold buildResult at h
  obtain ⟨⟨⟩, -, h⟩ := bind_eq_ok.mp h
  obtain ⟨digest, -, h⟩ := bind_eq_ok.mp h
  refine ⟨validateResult_withContentHash h, ?_⟩
  unfold withContentHash at h
  obtain ⟨hash, -, h⟩ := bind_eq_ok.mp h
  cases h
  exact ⟨rfl, rfl⟩

theorem invalidResult_eq_ok {sha256 : Sha256} {key : LogicalEvaluationKey}
    {tenantId runId : String} {error : EvaluationError} {result : EvaluationResultV1}
    (h : invalidResult sha256 key tenantId runId error = .ok result) :
    validateResult sha256 result = .ok () ∧ result.verdict = .error ∧
      result.findings = [errorName error] := by
  unfold invalidResult at h
  refine ⟨validateResult_withContentHash h, ?_⟩
  unfold withContentHash at h
  obtain ⟨hash, -, h⟩ := bind_eq_ok.mp h
  cases h
  exact ⟨rfl, rfl⟩

theorem validateResult_evaluate {sha256 : Sha256} {reader : WorkflowEvidenceReader}
    {tenantId runId : String} {definition : EvaluationDefinitionV1} {result : EvaluationResultV1}
    (h : evaluate sha256 reader tenantId runId definition = .ok result) :
    validateResult sha256 result = .ok () := by
  obtain ⟨_, _, -, -, -, ⟨-, hbuild⟩ | ⟨error, -, hinvalid⟩⟩ := evaluate_eq_ok h
  · exact (buildResult_eq_ok hbuild).1
  · exact (invalidResult_eq_ok hinvalid).1

/-- Every evaluator gives one result, which passes its check.  For valid evidence of the run that was
asked for it lists the criteria that are not satisfied and passes if there are none; for other
evidence it names the error. -/
theorem evaluate_agrees (sha256 : Sha256) (scorers : Scorers) (hscorers : scorers.Faithful)
    (reader : WorkflowEvidenceReader) (tenantId runId : String)
    (definition : EvaluationDefinitionV1) :
    EvaluationService.evaluate sha256 ⟨reader, deterministicCriteriaEvaluator⟩ tenantId runId
        definition = evaluate sha256 reader tenantId runId definition ∧
    (∀ snapshot, serdesAiEvalsExecutor scorers definition snapshot =
      .ok (deterministicAssessment definition snapshot)) ∧
    ∀ result, evaluate sha256 reader tenantId runId definition = .ok result →
      validateResult sha256 result = .ok () ∧
      ∃ snapshot, reader tenantId runId = .ok (some snapshot) ∧
        (checkEvidence tenantId runId snapshot = .ok () →
          (result.verdict = .pass ↔
            ∀ criterion ∈ definition.criteria, Satisfies snapshot criterion) ∧
          result.verdict ≠ .error ∧ result.findings = failures definition snapshot) ∧
        ∀ error, checkEvidence tenantId runId snapshot = .error error →
          result.verdict = .error ∧ result.findings = [errorName error] := by
  refine ⟨service_evaluate_eq sha256 reader tenantId runId definition, fun snapshot => ?_,
    fun result hresult => ?_⟩
  · rw [serdesAiEvalsExecutor_eq hscorers]
    rfl
  · refine ⟨validateResult_evaluate hresult, ?_⟩
    obtain ⟨snapshot, key, -, hread, -, ⟨hevidence, hbuild⟩ | ⟨error, hevidence, hinvalid⟩⟩ :=
      evaluate_eq_ok hresult
    · obtain ⟨-, hverdict, hfindings⟩ := buildResult_eq_ok hbuild
      refine ⟨snapshot, hread, fun _ => ?_, fun error herror => ?_⟩
      · obtain ⟨⟨⟩, hsnapshot, -⟩ := bind_eq_ok.mp hevidence
        rw [hverdict, hfindings, verdict_deterministicAssessment, findings_eq_failures hsnapshot]
        by_cases hnone : failures definition snapshot = []
        · rw [if_pos hnone]
          exact ⟨iff_of_true rfl (failures_eq_nil.mp hnone), nofun, rfl⟩
        · rw [if_neg hnone]
          exact ⟨iff_of_false nofun (mt failures_eq_nil.mpr hnone), nofun, rfl⟩
      · rw [hevidence] at herror
        cases herror
    · obtain ⟨-, hverdict, hfindings⟩ := invalidResult_eq_ok hinvalid
      refine ⟨snapshot, hread, fun hok => ?_, fun error' herror => ?_⟩
      · rw [hevidence] at hok
        cases hok
      · rw [hevidence] at herror
        cases herror
        exact ⟨hverdict, hfindings⟩

/-! ## The golden vectors, evaluated -/

def sampleSnapshot : TerminalEvidenceSnapshotV1 where
  tenantId := "tenant"
  runId := "run"
  workflowId := "workflow"
  workflowVersion := "v1"
  runRevision := 7
  terminalStatus := .succeeded
  terminalReason := .completed
  attemptId := "attempt"
  agentId := "agent"
  capabilityScopeDigest := String.ofList (List.replicate 64 'a')
  output := "hello"
  events := [⟨1, "started", ""⟩, ⟨2, "result", "hello"⟩]

/-- SHA-256 on the bytes of the definition, the snapshot and the result. -/
def evaluationSha256 : Sha256 :=
  Sha256.ofTable
    [(fields (Document.definition sampleDefinition).texts,
      [92, 148, 1, 74, 59, 166, 39, 19, 82, 116, 209, 207, 76, 155, 84, 226, 192, 106, 241, 162, 78,
        57, 109, 141, 109, 195, 197, 246, 171, 144, 212, 1]),
      (fields (Document.snapshot sampleSnapshot).texts,
      [64, 13, 2, 52, 37, 201, 238, 119, 227, 235, 154, 196, 0, 50, 224, 135, 29, 204, 62, 175, 105,
        128, 183, 67, 242, 159, 204, 220, 2, 81, 80, 235]),
      (fields (Document.result sampleResult).texts,
      [3, 65, 75, 192, 94, 44, 11, 74, 174, 73, 76, 192, 254, 18, 71, 61, 164, 143, 160, 146, 47, 99,
        126, 56, 54, 102, 40, 57, 165, 190, 190, 114])]
    (by decide)

def sampleReader : WorkflowEvidenceReader := fun _ _ => .ok (some sampleSnapshot)

/-- Scorers that compare the texts and ask the function. -/
def sampleScorers : Scorers where
  exactMatch output expected := if expected = some output then .pass else .fail "mismatch"
  function _ f output expected := f output expected

theorem sampleScorers_faithful : sampleScorers.Faithful where
  exactMatch_pass output expected := by
    unfold sampleScorers
    by_cases h : output = expected
    · subst h
      simp
    · simp [h, Ne.symm h]
  exactMatch_fail output expected h := ⟨"mismatch", if_neg fun e => h (Option.some.inj e).symm⟩
  function_eq _ _ _ _ := rfl

theorem evaluate_agrees_golden :
    evaluate evaluationSha256 sampleReader "tenant" "run" sampleDefinition = .ok sampleResult ∧
    serdesAiEvalsExecutor sampleScorers sampleDefinition sampleSnapshot =
      .ok (deterministicAssessment sampleDefinition sampleSnapshot) ∧
    validateResult evaluationSha256 sampleResult = .ok () := by
  have hresult : evaluate evaluationSha256 sampleReader "tenant" "run" sampleDefinition =
      .ok sampleResult := by decide +kernel
  obtain ⟨-, hassessment, hvalid⟩ := evaluate_agrees evaluationSha256 sampleScorers
    sampleScorers_faithful sampleReader "tenant" "run" sampleDefinition
  exact ⟨hresult, hassessment sampleSnapshot, (hvalid sampleResult hresult).1⟩

/-- Evidence of another run satisfies every criterion, and the result is not a pass. -/
theorem evaluate_misplaced_evidence :
    (∀ criterion ∈ sampleDefinition.criteria, Satisfies sampleSnapshot criterion) ∧
    (evaluate evaluationSha256 sampleReader "tenant" "other" sampleDefinition).map
        (fun result => (result.verdict, result.findings)) =
      .ok (.error, ["malformed_evidence"]) := by
  refine ⟨?_, by decide +kernel⟩
  unfold sampleDefinition
  decide +kernel

end RustFactory.Evaluation
