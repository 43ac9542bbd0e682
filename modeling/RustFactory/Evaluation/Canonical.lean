import RustFactory.Evaluation.Model

/-!
# Evaluation: canonical bytes identify what they encode

Snapshots, definitions, results and the stand-in for invalid evidence are written as sequences of
framed texts.  The texts have one reading: within a kind they determine the document, and no text
is that of two kinds.
-/

namespace RustFactory.Evaluation

open RustFactory.Lib

/-! ## Documents -/

/-- The inputs of the four encoders. -/
inductive Document where
  | snapshot (snapshot : TerminalEvidenceSnapshotV1)
  | definition (definition : EvaluationDefinitionV1)
  | result (result : EvaluationResultV1)
  | invalidEvidence (tenantId runId criterionDigest : String) (error : EvaluationError)
  deriving DecidableEq

/-- The validation of each kind; the parts of invalid evidence are any texts. -/
def Document.validate (sha256 : Sha256) : Document → Except EvaluationError Unit
  | .snapshot value => validateSnapshot value
  | .definition value => validateDefinition value
  | .result value => validateResult sha256 value
  | .invalidEvidence _ _ _ _ => .ok ()

/-- The canonical text of a document. -/
def Document.canonicalBytes : Document → Except EvaluationError Bytes
  | .snapshot value => snapshotCanonicalBytes value
  | .definition value => definitionCanonicalBytes value
  | .result value => resultCanonicalBytes value
  | .invalidEvidence tenantId runId criterionDigest error =>
    .ok (invalidEvidenceBytes tenantId runId criterionDigest error)

def Document.digest (sha256 : Sha256) : Document → Except EvaluationError String
  | .snapshot value => snapshotDigest sha256 value
  | .definition value => definitionDigest sha256 value
  | .result value => resultDigest sha256 value
  | .invalidEvidence tenantId runId criterionDigest error =>
    .ok (invalidEvidenceDigest sha256 tenantId runId criterionDigest error)

/-! ## Texts -/

def eventTexts (event : EvidenceEventV1) : List String :=
  [decimal event.sequence.toNat, event.kind, event.data]

def Document.texts : Document → List String
  | .snapshot value =>
    "v1" :: value.tenantId :: value.runId :: value.workflowId :: value.workflowVersion ::
      decimal value.runRevision.toNat :: statusName value.terminalStatus ::
      reasonName value.terminalReason :: value.attemptId :: value.agentId ::
      value.capabilityScopeDigest :: value.output :: decimal value.events.length ::
      value.events.flatMap eventTexts
  | .definition value =>
    "v1" :: value.evaluatorId :: value.evaluatorVersion :: decimal value.criteria.length ::
      value.criteria.flatMap criterionFields
  | .result value =>
    "v1" :: value.logicalKey.tenantId :: value.logicalKey.evaluatorId ::
      value.logicalKey.evaluatorVersion :: value.logicalKey.criterionDigest ::
      value.logicalKey.workflowRunId :: decimal value.logicalKey.workflowRevision.toNat ::
      value.evidenceDigest :: verdictName value.verdict :: decimal value.findings.length ::
      value.findings
  | .invalidEvidence tenantId runId criterionDigest error =>
    ["invalid_evidence_v1", tenantId, runId, criterionDigest, errorName error]

variable {sha256 : Sha256} {x y : Document}

/-- A valid document has canonical bytes, and they are its framed texts. -/
theorem canonicalBytes_eq (h : x.validate sha256 = .ok ()) :
    x.canonicalBytes = .ok (fields x.texts) := by
  cases x with
  | snapshot value =>
    change validateSnapshot value = .ok () at h
    change snapshotCanonicalBytes value = _
    unfold validateSnapshot at h
    unfold snapshotCanonicalBytes
    cases hbound : validateAndBoundSnapshot value with
    | error e => rw [hbound] at h; cases h
    | ok len =>
      rw [ok_bind, flatMap_fields, ← fields_append]
      rfl
  | definition value =>
    change validateDefinition value = .ok () at h
    change definitionCanonicalBytes value = _
    unfold definitionCanonicalBytes
    rw [h, ok_bind, flatMap_fields, ← fields_append]
    rfl
  | result value =>
    change validateResult sha256 value = .ok () at h
    change resultCanonicalBytes value = _
    unfold validateResult at h
    unfold resultCanonicalBytes
    obtain ⟨⟨⟩, hfields, -⟩ := bind_eq_ok.mp h
    rw [hfields, ok_bind, flatMap_fields, List.flatMap_singleton', ← fields_append]
    rfl
  | invalidEvidence tenantId runId criterionDigest error => rfl

theorem digest_eq (h : x.validate sha256 = .ok ()) :
    x.digest sha256 = .ok (sha256.hexDigest (fields x.texts)) := by
  have hbytes := canonicalBytes_eq h
  cases x with
  | snapshot value =>
    change (Document.canonicalBytes (.snapshot value)).map sha256.hexDigest = _
    rw [hbytes]; rfl
  | definition value =>
    change (Document.canonicalBytes (.definition value)).map sha256.hexDigest = _
    rw [hbytes]; rfl
  | result value =>
    change (Document.canonicalBytes (.result value)).map sha256.hexDigest = _
    rw [hbytes]; rfl
  | invalidEvidence tenantId runId criterionDigest error => rfl

/-! ## Names and nested lists -/

theorem statusName_injective : Function.Injective statusName := by
  intro a b h
  cases a <;> cases b <;> first | rfl | exact absurd h (by decide)

theorem reasonName_injective : Function.Injective reasonName := by
  intro a b h
  cases a <;> cases b <;> first | rfl | exact absurd h (by decide)

theorem verdictName_injective : Function.Injective verdictName := by
  intro a b h
  cases a <;> cases b <;> first | rfl | exact absurd h (by decide)

theorem errorName_injective : Function.Injective errorName := by
  intro a b h
  cases a <;> cases b <;> first | rfl | exact absurd h (by decide)

theorem decimal_uint64 {a b : UInt64} : decimal a.toNat = decimal b.toNat ↔ a = b := by
  rw [decimal_injective.eq_iff, UInt64.toNat_inj]

theorem decimal_uint32 {a b : UInt32} : decimal a.toNat = decimal b.toNat ↔ a = b := by
  rw [decimal_injective.eq_iff, UInt32.toNat_inj]

theorem eventTexts_selfDelimiting : SelfDelimiting (fun _ => True) eventTexts := by
  refine SelfDelimiting.of_length (n := 3) (fun _ _ => rfl) ?_
  rintro ⟨s, k, d⟩ ⟨s', k', d'⟩ - - h
  simp only [eventTexts, List.cons.injEq, decimal_uint64, and_true] at h
  obtain ⟨rfl, rfl, rfl⟩ := h
  rfl

/-- The tag of a criterion says how many texts follow. -/
theorem criterionFields_selfDelimiting : SelfDelimiting (fun _ => True) criterionFields := by
  intro a b _ _ x y h
  cases a with
  | exactOutput e =>
    cases b with
    | exactOutput e' =>
      simp only [criterionFields, List.cons_append, List.nil_append, List.cons.injEq] at h
      obtain ⟨-, rfl, rfl⟩ := h
      exact ⟨rfl, rfl⟩
    | eventKindCount k n => exact absurd (List.head_eq_of_cons_eq h) (by decide)
    | eventDataEquals s e' => exact absurd (List.head_eq_of_cons_eq h) (by decide)
  | eventKindCount k n =>
    cases b with
    | exactOutput e' => exact absurd (List.head_eq_of_cons_eq h) (by decide)
    | eventKindCount k' n' =>
      simp only [criterionFields, List.cons_append, List.nil_append, List.cons.injEq,
        decimal_uint32] at h
      obtain ⟨-, rfl, rfl, rfl⟩ := h
      exact ⟨rfl, rfl⟩
    | eventDataEquals s e' => exact absurd (List.head_eq_of_cons_eq h) (by decide)
  | eventDataEquals s e =>
    cases b with
    | exactOutput e' => exact absurd (List.head_eq_of_cons_eq h) (by decide)
    | eventKindCount k n => exact absurd (List.head_eq_of_cons_eq h) (by decide)
    | eventDataEquals s' e' =>
      simp only [criterionFields, List.cons_append, List.nil_append, List.cons.injEq,
        decimal_uint64] at h
      obtain ⟨-, rfl, rfl, rfl⟩ := h
      exact ⟨rfl, rfl⟩

theorem criterionFields_ne_nil (criterion : CriterionV1) : criterionFields criterion ≠ [] := by
  cases criterion <;> exact List.cons_ne_nil _ _

/-! ## One reading within a kind -/

theorem snapshot_texts_injective {a b : TerminalEvidenceSnapshotV1}
    (h : (Document.snapshot a).texts = (Document.snapshot b).texts) : a = b := by
  obtain ⟨t, r, w, v, rev, st, re, at_, ag, sc, o, ev⟩ := a
  obtain ⟨t', r', w', v', rev', st', re', at_', ag', sc', o', ev'⟩ := b
  simp only [Document.texts, List.cons.injEq, true_and, decimal_uint64,
    statusName_injective.eq_iff, reasonName_injective.eq_iff] at h
  obtain ⟨rfl, rfl, rfl, rfl, rfl, rfl, rfl, rfl, rfl, rfl, rfl, -, hevents⟩ := h
  have : ev = ev' := eventTexts_selfDelimiting.flatMap_injective (fun _ _ => List.cons_ne_nil _ _)
    (fun _ _ => trivial) (fun _ _ => trivial) hevents
  rw [this]

theorem definition_texts_injective {a b : EvaluationDefinitionV1}
    (h : (Document.definition a).texts = (Document.definition b).texts) : a = b := by
  obtain ⟨e, v, cs⟩ := a
  obtain ⟨e', v', cs'⟩ := b
  simp only [Document.texts, List.cons.injEq, true_and] at h
  obtain ⟨rfl, rfl, -, hcriteria⟩ := h
  have : cs = cs' := criterionFields_selfDelimiting.flatMap_injective
    (fun c _ => criterionFields_ne_nil c) (fun _ _ => trivial) (fun _ _ => trivial) hcriteria
  rw [this]

theorem result_texts_injective {a b : EvaluationResultV1}
    (h : (Document.result a).texts = (Document.result b).texts) :
    { a with contentHash := b.contentHash } = b := by
  obtain ⟨⟨t, ei, ev, cd, wr, rev⟩, ed, ve, fs, ch⟩ := a
  obtain ⟨⟨t', ei', ev', cd', wr', rev'⟩, ed', ve', fs', ch'⟩ := b
  simp only [Document.texts, List.cons.injEq, true_and, decimal_uint64,
    verdictName_injective.eq_iff] at h
  obtain ⟨rfl, rfl, rfl, rfl, rfl, rfl, rfl, rfl, -, rfl⟩ := h
  rfl

/-- The content hash of a valid result is the digest of its texts. -/
theorem contentHash_eq {value : EvaluationResultV1} (h : validateResult sha256 value = .ok ()) :
    value.contentHash = sha256.hexDigest (fields (Document.result value).texts) := by
  have hdigest : resultDigest sha256 value = _ := digest_eq (x := .result value) h
  unfold validateResult at h
  obtain ⟨⟨⟩, -, h⟩ := bind_eq_ok.mp h
  rw [hdigest, ok_bind] at h
  split_ifs at h with hhash
  rw [Bool.and_eq_true, beq_iff_eq] at hhash
  exact hhash.2

theorem invalidEvidence_texts_injective {t r c t' r' c' : String} {e e' : EvaluationError}
    (h : (Document.invalidEvidence t r c e).texts = (Document.invalidEvidence t' r' c' e').texts) :
    Document.invalidEvidence t r c e = .invalidEvidence t' r' c' e' := by
  simp only [Document.texts, List.cons.injEq, true_and, and_true, errorName_injective.eq_iff] at h
  obtain ⟨rfl, rfl, rfl, rfl⟩ := h
  rfl

/-! ## No reading in two kinds -/

theorem decimal_ne_statusName (n : ℕ) (status : TerminalStatus) : decimal n ≠ statusName status := by
  cases status with
  | succeeded => exact decimal_ne_of_mem (c := 's') (by decide) (by decide)
  | failed => exact decimal_ne_of_mem (c := 'f') (by decide) (by decide)
  | cancelled => exact decimal_ne_of_mem (c := 'c') (by decide) (by decide)

/-- The tags that open a criterion. -/
def criterionTags : List String := ["exact_output", "event_kind_count", "event_data_equals"]

theorem criteria_head {criteria : List CriterionV1} {text : String} {rest : List String}
    (h : criteria.flatMap criterionFields = text :: rest) : text ∈ criterionTags := by
  cases criteria with
  | nil => cases h
  | cons criterion criteria =>
    rw [List.flatMap_cons] at h
    cases criterion with
    | exactOutput e => rw [← List.head_eq_of_cons_eq h]; decide
    | eventKindCount k n => rw [← List.head_eq_of_cons_eq h]; decide
    | eventDataEquals s e => rw [← List.head_eq_of_cons_eq h]; decide

theorem statusName_not_tag (status : TerminalStatus) : statusName status ∉ criterionTags := by
  cases status <;> decide

theorem reasonName_not_tag (reason : TerminalReason) : reasonName reason ∉ criterionTags := by
  cases reason <;> decide

/-- A snapshot has its status and its reason where a definition has, after one criterion, a number
or the tag of the next. -/
theorem snapshot_ne_definition (a : TerminalEvidenceSnapshotV1) (b : EvaluationDefinitionV1) :
    (Document.snapshot a).texts ≠ (Document.definition b).texts := by
  intro h
  simp only [Document.texts, List.cons.injEq, true_and] at h
  obtain ⟨-, -, -, h⟩ := h
  cases hcriteria : b.criteria with
  | nil => rw [hcriteria] at h; cases h
  | cons criterion criteria =>
    rw [hcriteria, List.flatMap_cons] at h
    cases criterion with
    | exactOutput e =>
      simp only [criterionFields, List.cons_append, List.nil_append, List.cons.injEq] at h
      exact statusName_not_tag _ (criteria_head h.2.2.symm)
    | eventKindCount k n =>
      simp only [criterionFields, List.cons_append, List.nil_append, List.cons.injEq] at h
      exact decimal_ne_statusName _ _ h.2.2.1.symm
    | eventDataEquals s e =>
      simp only [criterionFields, List.cons_append, List.nil_append, List.cons.injEq] at h
      exact reasonName_not_tag _ (criteria_head h.2.2.2.symm)

theorem snapshot_ne_result (a : TerminalEvidenceSnapshotV1) (b : EvaluationResultV1) :
    (Document.snapshot a).texts ≠ (Document.result b).texts := by
  intro h
  simp only [Document.texts, List.cons.injEq, true_and] at h
  obtain ⟨-, -, -, -, -, h, -⟩ := h
  exact decimal_ne_statusName _ _ h.symm

/-- A result has the digest of its criteria where a definition has the tag of its first. -/
theorem definition_ne_result (a : EvaluationDefinitionV1) {b : EvaluationResultV1}
    (hb : isSha256 b.logicalKey.criterionDigest) :
    (Document.definition a).texts ≠ (Document.result b).texts := by
  intro h
  simp only [Document.texts, List.cons.injEq, true_and] at h
  have htag := criteria_head h.2.2.2
  have hnot : ∀ tag ∈ criterionTags, ¬isSha256 tag := by decide
  exact hnot _ htag hb

theorem isSha256_criterionDigest {value : EvaluationResultV1}
    (h : validateResult sha256 value = .ok ()) : isSha256 value.logicalKey.criterionDigest := by
  unfold validateResult at h
  obtain ⟨⟨⟩, hfields, -⟩ := bind_eq_ok.mp h
  unfold validateResultFields at hfields
  obtain ⟨⟨⟩, hkey, -⟩ := bind_eq_ok.mp hfields
  unfold validateLogicalKey at hkey
  split_ifs at hkey with hvalid
  simp only [Bool.and_eq_true] at hvalid
  exact hvalid.1.2

/-! ## Identity -/

theorem texts_injective (hx : x.validate sha256 = .ok ()) (hy : y.validate sha256 = .ok ())
    (h : x.texts = y.texts) : x = y := by
  cases x with
  | snapshot a =>
    cases y with
    | snapshot b => rw [snapshot_texts_injective h]
    | definition b => exact absurd h (snapshot_ne_definition a b)
    | result b => exact absurd h (snapshot_ne_result a b)
    | invalidEvidence t r c e => exact absurd (List.head_eq_of_cons_eq h) (by decide)
  | definition a =>
    cases y with
    | snapshot b => exact absurd h.symm (snapshot_ne_definition b a)
    | definition b => rw [definition_texts_injective h]
    | result b => exact absurd h (definition_ne_result a (isSha256_criterionDigest hy))
    | invalidEvidence t r c e => exact absurd (List.head_eq_of_cons_eq h) (by decide)
  | result a =>
    cases y with
    | snapshot b => exact absurd h.symm (snapshot_ne_result b a)
    | definition b => exact absurd h.symm (definition_ne_result b (isSha256_criterionDigest hx))
    | result b =>
      have hhash : a.contentHash = b.contentHash := by
        rw [contentHash_eq hx, contentHash_eq hy, h]
      have hrest := result_texts_injective h
      rw [← hhash] at hrest
      rw [← hrest]
    | invalidEvidence t r c e => exact absurd (List.head_eq_of_cons_eq h) (by decide)
  | invalidEvidence t r c e =>
    cases y with
    | snapshot b => exact absurd (List.head_eq_of_cons_eq h) (by decide)
    | definition b => exact absurd (List.head_eq_of_cons_eq h) (by decide)
    | result b => exact absurd (List.head_eq_of_cons_eq h) (by decide)
    | invalidEvidence t' r' c' e' => exact invalidEvidence_texts_injective h

/-- Valid documents of any two kinds have canonical bytes, which are equal only if the documents
are; so are their digests, unless the hash collides on the two. -/
theorem canonicalBytes_identify (hx : x.validate sha256 = .ok ())
    (hy : y.validate sha256 = .ok ()) :
    ∃ bytes bytes', x.canonicalBytes = .ok bytes ∧ y.canonicalBytes = .ok bytes' ∧
      (bytes = bytes' → x = y) ∧
      ((sha256.digest bytes = sha256.digest bytes' → bytes = bytes') →
        x.digest sha256 = y.digest sha256 → x = y) := by
  refine ⟨_, _, canonicalBytes_eq hx, canonicalBytes_eq hy, fun h => ?_, fun hcollision h => ?_⟩
  · exact texts_injective hx hy (fields_injective h)
  · rw [digest_eq hx, digest_eq hy, Except.ok.injEq, Sha256.hexDigest_eq_iff] at h
    exact texts_injective hx hy (fields_injective (hcollision h))

/-! ## The golden vectors -/

def sampleDefinition : EvaluationDefinitionV1 where
  evaluatorId := "exact"
  evaluatorVersion := "1"
  criteria := [.exactOutput "hello", .eventKindCount "result" 1, .eventDataEquals 2 "hello"]

def sampleResult : EvaluationResultV1 where
  logicalKey :=
    { tenantId := "tenant"
      evaluatorId := "exact"
      evaluatorVersion := "1"
      criterionDigest := "5c94014a3ba627135274d1cf4c9b54e2c06af1a24e396d8d6dc3c5f6ab90d401"
      workflowRunId := "run"
      workflowRevision := 7 }
  evidenceDigest := "400d023425c9ee77e3eb9ac40032e0871dcc3eaf6980b743f29fccdc025150eb"
  verdict := .pass
  findings := []
  contentHash := "03414bc05e2c0b4aae494cc0fe12473da48fa0922f637e3836662839a5bebe72"

/-- SHA-256 on the bytes of the two documents. -/
def sampleSha256 : Sha256 :=
  Sha256.ofTable
    [(fields (Document.definition sampleDefinition).texts,
      [92, 148, 1, 74, 59, 166, 39, 19, 82, 116, 209, 207, 76, 155, 84, 226, 192, 106, 241, 162, 78,
        57, 109, 141, 109, 195, 197, 246, 171, 144, 212, 1]),
      (fields (Document.result sampleResult).texts,
      [3, 65, 75, 192, 94, 44, 11, 74, 174, 73, 76, 192, 254, 18, 71, 61, 164, 143, 160, 146, 47, 99,
        126, 56, 54, 102, 40, 57, 165, 190, 190, 114])]
    (by decide)

/-- The definition and the result of the repository's golden vectors have different digests. -/
theorem canonicalBytes_identify_golden :
    (Document.definition sampleDefinition).validate sampleSha256 = .ok () ∧
    (Document.result sampleResult).validate sampleSha256 = .ok () ∧
    (Document.definition sampleDefinition).digest sampleSha256 ≠
      (Document.result sampleResult).digest sampleSha256 := by
  have hdefinition : (Document.definition sampleDefinition).validate sampleSha256 = .ok () := by
    decide +kernel
  have hresult : (Document.result sampleResult).validate sampleSha256 = .ok () := by decide +kernel
  refine ⟨hdefinition, hresult, fun h => ?_⟩
  obtain ⟨bytes, bytes', hbytes, hbytes', -, hidentify⟩ :=
    canonicalBytes_identify hdefinition hresult
  have hcollision : (Document.definition sampleDefinition).canonicalBytes.map sampleSha256.digest ≠
      (Document.result sampleResult).canonicalBytes.map sampleSha256.digest := by
    decide +kernel
  rw [hbytes, hbytes'] at hcollision
  cases hidentify (fun heq => absurd (congrArg Except.ok heq) hcollision) h

end RustFactory.Evaluation
