import RustFactory.Evaluation.Assessment

/-!
# Evaluation: the length of a snapshot's encoding

The length is predicted field by field, before a byte is written, and decides whether evidence is
accepted.  Numbers are counted by their logarithm, and every sum is checked against the machine word.
-/

namespace RustFactory.Evaluation

open Lib

/-! ## Counting -/

theorem decimalLen_eq (n : ℕ) : decimalLen n = byteLen (decimal n) := by
  rw [byteLen_decimal]
  unfold decimalLen
  split_ifs with hzero
  · rw [hzero, Nat.log_zero_right]
  · rfl

example : decimalLen 0 = 1 ∧ decimalLen 9 = 1 ∧ decimalLen 10 = 2 ∧ decimalLen 999 = 3 := by
  decide +kernel

/-- A size, if it fits a machine word. -/
def checkedSize (size : ℕ) : Except EvaluationError ℕ :=
  if size < 2 ^ 64 then .ok size else .error .limitExceeded

theorem checkedAddSize_eq (a b : ℕ) : checkedAddSize a b = checkedSize (a + b) := rfl

/-- A sum that is checked part by part is checked once. -/
theorem checkedSize_bind (a b : ℕ) :
    (checkedSize a >>= fun total => checkedSize (total + b)) = checkedSize (a + b) := by
  unfold checkedSize
  by_cases ha : a < 2 ^ 64
  · rw [if_pos ha, ok_bind]
  · have hsum : ¬a + b < 2 ^ 64 := by omega
    rw [if_neg ha, if_neg hsum]
    rfl

theorem addFieldLen_eq (total : ℕ) (value : String) :
    addFieldLen total (byteLen value) = checkedSize (total + (textFrame value).length) := by
  have hframe : total + (textFrame value).length =
      byteLen (decimal (byteLen value)) + 2 + (byteLen value + total) := by
    rw [length_textFrame]
    omega
  unfold addFieldLen
  simp only [decimalLen_eq, checkedAddSize_eq]
  rw [hframe, ← Nat.add_assoc, ← checkedSize_bind _ total,
    ← checkedSize_bind (byteLen (decimal (byteLen value)) + 2), bind_assoc]
  simp only [Nat.add_comm total]

/-- Fields that are added one after the other take the bytes of all of them. -/
theorem foldlM_addFieldLen (values : List String) (total : ℕ) :
    (checkedSize total >>= fun total => (values.map byteLen).foldlM addFieldLen total) =
      checkedSize (total + (fields values).length) := by
  induction values generalizing total with
  | nil => exact bind_pure (checkedSize total)
  | cons value values ih =>
    have hfields : (fields (value :: values)).length =
        (textFrame value).length + (fields values).length := by
      rw [length_fields, length_fields, List.map_cons, List.sum_cons]
    rw [hfields, ← Nat.add_assoc, ← ih, ← checkedSize_bind, bind_assoc]
    simp only [List.map_cons, List.foldlM_cons, addFieldLen_eq]

theorem foldlM_events (events : List EvidenceEventV1) (total : ℕ) :
    (checkedSize total >>= fun total => events.foldlM (fun total event =>
      ((eventTexts event).map byteLen).foldlM addFieldLen total) total) =
      checkedSize (total + (fields (events.flatMap eventTexts)).length) := by
  induction events generalizing total with
  | nil => exact bind_pure (checkedSize total)
  | cons event events ih =>
    rw [List.flatMap_cons, fields_append, List.length_append, ← Nat.add_assoc, ← ih,
      ← foldlM_addFieldLen, bind_assoc]
    rfl

/-- The texts in front of the events. -/
def headTexts (snapshot : TerminalEvidenceSnapshotV1) : List String :=
  ["v1", snapshot.tenantId, snapshot.runId, snapshot.workflowId, snapshot.workflowVersion,
    decimal snapshot.runRevision.toNat, statusName snapshot.terminalStatus,
    reasonName snapshot.terminalReason, snapshot.attemptId, snapshot.agentId,
    snapshot.capabilityScopeDigest, snapshot.output, decimal snapshot.events.length]

theorem texts_snapshot (snapshot : TerminalEvidenceSnapshotV1) :
    Document.texts (.snapshot snapshot) =
      headTexts snapshot ++ snapshot.events.flatMap eventTexts := rfl

theorem snapshotCanonicalLen_eq_foldlM (snapshot : TerminalEvidenceSnapshotV1) :
    snapshotCanonicalLen snapshot =
      ((headTexts snapshot).map byteLen).foldlM addFieldLen 0 >>= fun total =>
        snapshot.events.foldlM (fun total event =>
          ((eventTexts event).map byteLen).foldlM addFieldLen total) total := by
  have hevents : (fun (total : ℕ) (event : EvidenceEventV1) =>
      [decimalLen event.sequence.toNat, byteLen event.kind, byteLen event.data].foldlM
        addFieldLen total) = fun total event =>
          ((eventTexts event).map byteLen).foldlM addFieldLen total := by
    funext total event
    rw [decimalLen_eq]
    rfl
  have htag : byteLen "v1" = 2 := by decide +kernel
  unfold snapshotCanonicalLen headTexts
  rw [hevents, decimalLen_eq, decimalLen_eq, ← htag]
  rfl

/-- The predicted length is the length of what is written, unless a machine word cannot hold it. -/
theorem snapshotCanonicalLen_eq_checkedSize (snapshot : TerminalEvidenceSnapshotV1) :
    snapshotCanonicalLen snapshot =
      checkedSize (fields (Document.texts (.snapshot snapshot))).length := by
  have hhead := foldlM_addFieldLen (headTexts snapshot) 0
  have hzero : checkedSize 0 = .ok 0 := if_pos (by decide)
  rw [hzero, ok_bind, Nat.zero_add] at hhead
  rw [snapshotCanonicalLen_eq_foldlM, hhead, foldlM_events, texts_snapshot, fields_append,
    List.length_append]

/-! ## What is written -/

theorem snapshotCanonicalBytes_eq (snapshot : TerminalEvidenceSnapshotV1) :
    snapshotCanonicalBytes snapshot = (validateAndBoundSnapshot snapshot).map fun _ =>
      fields (Document.texts (.snapshot snapshot)) := by
  unfold snapshotCanonicalBytes
  cases validateAndBoundSnapshot snapshot with
  | error e => rfl
  | ok len =>
    rw [ok_bind, flatMap_fields, ← fields_append]
    rfl

/-- **The predicted length of a snapshot is the length of its canonical bytes.**  It is so for every
snapshot whose bytes are written, and validation hands on this length; for a snapshot that is refused
it is the length of the bytes that the encoder would write, as long as a machine word holds it. -/
theorem snapshotCanonicalLen_eq (snapshot : TerminalEvidenceSnapshotV1) :
    (∀ bytes, snapshotCanonicalBytes snapshot = .ok bytes →
      snapshotCanonicalLen snapshot = .ok bytes.length ∧
        validateAndBoundSnapshot snapshot = .ok bytes.length) ∧
    snapshotCanonicalLen snapshot =
      checkedSize (fields (Document.texts (.snapshot snapshot))).length := by
  refine ⟨fun bytes hbytes => ?_, snapshotCanonicalLen_eq_checkedSize snapshot⟩
  rw [snapshotCanonicalBytes_eq] at hbytes
  cases hbound : validateAndBoundSnapshot snapshot with
  | error e =>
    rw [hbound] at hbytes
    cases hbytes
  | ok len =>
    rw [hbound] at hbytes
    obtain rfl := Except.ok.inj hbytes
    unfold validateAndBoundSnapshot at hbound
    split_ifs at hbound
    obtain ⟨⟨⟩, -, hbound⟩ := bind_eq_ok.mp hbound
    obtain ⟨total, hlen, hbound⟩ := bind_eq_ok.mp hbound
    split_ifs at hbound
    obtain rfl := Except.ok.inj hbound
    rw [hlen]
    rw [snapshotCanonicalLen_eq_checkedSize] at hlen
    unfold checkedSize at hlen
    split_ifs at hlen
    rw [Except.ok.inj hlen]
    exact ⟨rfl, rfl⟩

theorem snapshotCanonicalLen_eq_golden :
    snapshotCanonicalBytes sampleSnapshot =
        .ok (fields (Document.texts (.snapshot sampleSnapshot))) ∧
      snapshotCanonicalLen sampleSnapshot = .ok 200 := by
  have hbytes : snapshotCanonicalBytes sampleSnapshot =
      .ok (fields (Document.texts (.snapshot sampleSnapshot))) := by decide +kernel
  have hlength : (fields (Document.texts (.snapshot sampleSnapshot))).length = 200 := by
    decide +kernel
  refine ⟨hbytes, ?_⟩
  rw [((snapshotCanonicalLen_eq sampleSnapshot).1 _ hbytes).1, hlength]

end RustFactory.Evaluation
