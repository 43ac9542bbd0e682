import RustFactory.Lib.JsonSize
import RustFactory.Observability.Telemetry

/-!
# Observability: the projection of records

A query answers with as many of its records as two ceilings allow: one on the text of the answer, and
one on the text as a string literal.  The answer says itself whether records are missing, so its size
depends on that flag.  More records never make it smaller, and without records it fits.
-/

namespace RustFactory.Observability

open Lib JsonText

/-- What the transport allows for the text of a tool. -/
def brickToolTextBudgetBytes : ℕ := 64 * 1024

/-- What is kept of it for the composition around the tool. -/
def compositionHeadroomBytes : ℕ := 8 * 1024
def maxMcpEscapedToolTextBytes : ℕ := brickToolTextBudgetBytes - compositionHeadroomBytes
def maxMcpSerializedResultBytes : ℕ := maxMcpEscapedToolTextBytes / 2

def severityName : Severity → String
  | .trace => "trace"
  | .debug => "debug"
  | .info => "info"
  | .warn => "warn"
  | .error => "error"

/-- The members of a projected record, as the source declares them. -/
def recordOutput (record : TelemetryRecordV1) : List (String × String) :=
  [("sequence", decimal record.sequence),
    ("timestamp_unix_nanos", decimal record.envelope.timestamp.toNat),
    ("severity", quoted (severityName record.envelope.event.severity)),
    ("event_name", quoted record.envelope.event.name.asStr),
    ("target", quoted record.envelope.event.target.asStr)]

/-- The length of a response inside the text field of a tool result. -/
def framedLen (value : String) : ℕ := byteLen (quoted value)

/-- The response is within both bounds. -/
def fitsResultCeiling (value : String) : Prop :=
  byteLen value ≤ maxMcpSerializedResultBytes ∧ framedLen value ≤ maxMcpEscapedToolTextBytes

instance (value : String) : Decidable (fitsResultCeiling value) := inferInstanceAs (Decidable (_ ∧ _))

/-- The answer with the first records only. -/
def projection (outputs : List String) (length : ℕ) : String :=
  objectValue [("records", array (outputs.take length)),
    ("truncated", boolean (length < outputs.length))]

/-- The answers from a length down to zero, and the first of them that fits. -/
def firstFitting (outputs : List String) : ℕ → Except String String
  | 0 => if fitsResultCeiling (projection outputs 0) then .ok (projection outputs 0)
    else .error "limit_exceeded"
  | length + 1 =>
    if fitsResultCeiling (projection outputs (length + 1)) then
      .ok (projection outputs (length + 1))
    else firstFitting outputs length

/-- The response with as many records as fit. -/
def serializeRecords (records : List TelemetryRecordV1) : Except String String :=
  let outputs := records.map fun record => objectValue (recordOutput record)
  firstFitting outputs outputs.length

/-! ## Sizes of answers -/

/-- Fewer records never make the answer longer, since `true` is shorter than `false`. -/
theorem projection_le {m : String → ℕ} (h : Additive m) (hflag : m "true" ≤ m "false")
    (outputs : List String) {k l : ℕ} (hkl : k ≤ l) (hl : l ≤ outputs.length) :
    m (projection outputs k) ≤ m (projection outputs l) := by
  have hrecords := h.intercalate_take "," outputs hkl
  have htruncated : m (boolean (k < outputs.length)) ≤ m (boolean (l < outputs.length)) := by
    rcases hkl.lt_or_eq with hlt | rfl
    · rw [decide_eq_true (hlt.trans_le hl)]
      show m "true" ≤ _
      unfold boolean
      split
      · exact Nat.le_refl _
      · exact hflag
    · exact Nat.le_refl _
  have hk := h.object_eq [("records", array (outputs.take k)),
    ("truncated", boolean (k < outputs.length))]
  have hl := h.object_eq [("records", array (outputs.take l)),
    ("truncated", boolean (l < outputs.length))]
  simp only [List.map_cons, List.map_nil, List.sum_cons, List.sum_nil, h.array_eq,
    reduceCtorEq, if_false] at hk hl
  unfold projection
  rw [h.objectValue_eq, h.objectValue_eq]
  omega

theorem fitsResultCeiling_mono {outputs : List String} {k l : ℕ} (hkl : k ≤ l)
    (hl : l ≤ outputs.length) (h : fitsResultCeiling (projection outputs l)) :
    fitsResultCeiling (projection outputs k) := by
  obtain ⟨hraw, hframed⟩ := h
  unfold framedLen at hframed
  rw [byteLen_quoted] at hframed
  refine ⟨(projection_le additive_byteLen (by decide +kernel) outputs hkl hl).trans hraw, ?_⟩
  unfold framedLen
  rw [byteLen_quoted]
  have := projection_le additive_bodyLen (by decide +kernel) outputs hkl hl
  omega

theorem fitsResultCeiling_zero (outputs : List String) :
    fitsResultCeiling (projection outputs 0) := by
  have hvalue : ∀ flag, fitsResultCeiling
      (object [("records", array []), ("truncated", boolean flag)]) := by
    decide +kernel
  have hsorted : projection outputs 0 =
      object [("records", array []), ("truncated", boolean (0 < outputs.length))] := by
    unfold projection objectValue
    rw [List.mergeSort_of_pairwise]
    · rfl
    · refine List.pairwise_pair.mpr ?_
      show decide ("records" ≤ "truncated") = true
      decide +kernel
  rw [hsorted]
  exact hvalue _

/-! ## The longest answer -/

/-- The loop returns the longest answer that fits. -/
theorem firstFitting_eq (outputs : List String) (n : ℕ) :
    firstFitting outputs n = .ok (projection outputs
      (Nat.findGreatest (fun length => fitsResultCeiling (projection outputs length)) n)) := by
  induction n with
  | zero =>
    unfold firstFitting
    rw [if_pos (fitsResultCeiling_zero outputs), Nat.findGreatest_zero]
  | succ n ih =>
    unfold firstFitting
    rw [Nat.findGreatest_succ, ih]
    split
    · rfl
    · rfl

/-- The answer that keeps some records and drops the others. -/
def answer (kept dropped : List TelemetryRecordV1) : String :=
  objectValue [("records", array (kept.map fun record => objectValue (recordOutput record))),
    ("truncated", boolean (decide (dropped ≠ [])))]

theorem answer_eq_projection (kept dropped : List TelemetryRecordV1) :
    answer kept dropped = projection
      ((kept ++ dropped).map fun record => objectValue (recordOutput record)) kept.length := by
  have hlength : dropped ≠ [] ↔ kept.length < (kept ++ dropped).length := by
    rw [List.length_append, ← List.length_pos_iff]
    omega
  unfold answer projection
  rw [List.length_map, decide_eq_decide.mpr hlength, List.map_append,
    List.take_left' (List.length_map _)]

/-- **Records are answered by the longest prefix that fits.**  The projection never fails.  It keeps
whole records from the start and flags exactly an answer from which records are missing; and of all
ways to split the records, those that keep no more have an answer within both ceilings. -/
theorem serializeRecords_longest (records : List TelemetryRecordV1) :
    ∃ kept dropped, records = kept ++ dropped ∧
      serializeRecords records = .ok (answer kept dropped) ∧
      ∀ kept' dropped', records = kept' ++ dropped' →
        (fitsResultCeiling (answer kept' dropped') ↔ kept'.length ≤ kept.length) := by
  let outputs := records.map fun record => objectValue (recordOutput record)
  let fits := fun length => fitsResultCeiling (projection outputs length)
  let length := Nat.findGreatest fits outputs.length
  have hle : length ≤ outputs.length := Nat.findGreatest_le _
  have hfits : fits length := Nat.findGreatest_spec (Nat.zero_le _) (fitsResultCeiling_zero outputs)
  have hkept : (records.take length).length = length := by
    rw [List.length_take, Nat.min_eq_left (hle.trans_eq (List.length_map _))]
  refine ⟨records.take length, records.drop length, (List.take_append_drop _ _).symm, ?_, ?_⟩
  · rw [answer_eq_projection, List.take_append_drop, hkept]
    exact firstFitting_eq outputs outputs.length
  · rintro kept' dropped' hsplit
    have hlength : kept'.length ≤ outputs.length := by
      rw [List.length_map, hsplit, List.length_append]
      exact Nat.le_add_right _ _
    rw [answer_eq_projection, ← hsplit, hkept]
    constructor
    · intro h
      exact Nat.le_findGreatest hlength h
    · intro h
      exact fitsResultCeiling_mono h hle hfits

def sampleRecord : TelemetryRecordV1 where
  sequence := 1
  envelope := {
    tenantId := ⟨"tenant", by decide +kernel⟩
    timestamp := 0
    event := {
      name := ⟨"started", by decide +kernel⟩
      target := ⟨"worker", by decide +kernel⟩
      severity := .info
      body := ""
      attributes := ∅ } }

/-- A record that fits is not dropped. -/
theorem serializeRecords_longest_sample :
    serializeRecords [sampleRecord] = .ok (answer [sampleRecord] []) := by
  obtain ⟨kept, dropped, hsplit, hserialized, hlongest⟩ := serializeRecords_longest [sampleRecord]
  have hvalue : fitsResultCeiling (object
      [("records", array [object (recordOutput sampleRecord)]), ("truncated", boolean false)]) := by
    decide +kernel
  have hfits : fitsResultCeiling (answer [sampleRecord] []) := by
    have hmeasure : ∀ {m : String → ℕ}, Additive m → m (answer [sampleRecord] []) = m (object
        [("records", array [object (recordOutput sampleRecord)]), ("truncated", boolean false)]) := by
      intro m h
      have hleft := h.object_eq
        [("records", array [objectValue (recordOutput sampleRecord)]), ("truncated", boolean false)]
      have hright := h.object_eq
        [("records", array [object (recordOutput sampleRecord)]), ("truncated", boolean false)]
      simp only [List.map_cons, List.map_nil, List.sum_cons, List.sum_nil, h.array_eq,
        String.intercalate_singleton, h.objectValue_eq, reduceCtorEq, if_false] at hleft hright
      unfold answer
      rw [h.objectValue_eq]
      exact Nat.add_right_cancel (hleft.trans hright.symm)
    unfold fitsResultCeiling framedLen at hvalue ⊢
    rw [byteLen_quoted] at hvalue ⊢
    rwa [hmeasure additive_byteLen, hmeasure additive_bodyLen]
  have hone : 1 ≤ kept.length := (hlongest [sampleRecord] [] rfl).mp hfits
  cases kept with
  | nil => exact absurd hone (by decide)
  | cons record kept =>
    obtain ⟨rfl, hrest⟩ := List.cons.inj hsplit
    obtain ⟨rfl, rfl⟩ := List.append_eq_nil_iff.mp hrest.symm
    exact hserialized

end RustFactory.Observability
