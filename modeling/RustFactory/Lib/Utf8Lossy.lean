import RustFactory.Lib.JsonSize

/-!
# Text from arbitrary bytes

Bytes are read as characters and, where they are no UTF-8, as maximal ill-formed sequences, each of
which becomes one replacement character.  A replacement character takes three bytes, a sequence one to
three, so the text may be longer than the bytes, by `decodingGrowth`.
-/

namespace RustFactory.Lib

/-- The character whose encoding the bytes begin with. -/
def frontChar (bytes : Bytes) : Option Char := ByteArray.utf8DecodeChar? ⟨bytes.toArray⟩ 0

/-- The second bytes that may follow the first byte of a character of three or four bytes. -/
def acceptsSecond (first second : UInt8) : Bool :=
  if first = 0xE0 then 0xA0 ≤ second && second ≤ 0xBF
  else if first = 0xED then 0x80 ≤ second && second ≤ 0x9F
  else if first = 0xF0 then 0x90 ≤ second && second ≤ 0xBF
  else if first = 0xF4 then 0x80 ≤ second && second ≤ 0x8F
  else 0xE1 ≤ first && first ≤ 0xF3 && 0x80 ≤ second && second ≤ 0xBF

/-- The length of the ill-formed sequence at the front of bytes that begin with no character: the
longest start of a character, or one byte. -/
def illFormedLen : Bytes → ℕ
  | first :: second :: third :: _ =>
    if !acceptsSecond first second then 1
    else if 0xF0 ≤ first && 0x80 ≤ third && third ≤ 0xBF then 3
    else 2
  | [first, second] => if acceptsSecond first second then 2 else 1
  | _ => 1

def frontLen (bytes : Bytes) : ℕ :=
  match frontChar bytes with
  | some c => c.utf8Size
  | none => illFormedLen bytes

theorem illFormedLen_pos (bytes : Bytes) : 0 < illFormedLen bytes := by
  unfold illFormedLen
  split
  · split_ifs <;> omega
  · split_ifs <;> omega
  · exact Nat.one_pos

theorem frontLen_pos (bytes : Bytes) : 0 < frontLen bytes := by
  unfold frontLen
  split
  · exact Char.utf8Size_pos _
  · exact illFormedLen_pos bytes

/-- The bytes, cut into the encodings of characters and the ill-formed sequences between them. -/
def utf8Sequences (bytes : Bytes) : List (Bytes × Option Char) :=
  match bytes with
  | [] => []
  | first :: rest =>
    ((first :: rest).take (frontLen (first :: rest)), frontChar (first :: rest)) ::
      utf8Sequences ((first :: rest).drop (frontLen (first :: rest)))
termination_by bytes.length
decreasing_by
  have := frontLen_pos (first :: rest)
  rw [List.length_drop, List.length_cons]
  omega

/-- The character that stands for an ill-formed sequence. -/
def replacementChar : Char := Char.ofNat 0xFFFD

/-- The text of bytes, with every ill-formed sequence replaced. -/
def fromUtf8Lossy (bytes : Bytes) : String :=
  String.ofList ((utf8Sequences bytes).map fun sequence => sequence.2.getD replacementChar)

/-- What the replacement of a sequence, if it is ill-formed, adds to it. -/
def sequenceGrowth (sequence : Bytes × Option Char) : ℕ :=
  if sequence.2.isNone then 3 - sequence.1.length else 0

/-- What the replacement of all ill-formed sequences adds to the bytes. -/
def decodingGrowth (bytes : Bytes) : ℕ := ((utf8Sequences bytes).map sequenceGrowth).sum

/-! ## The front of bytes -/

theorem frontChar_eq_some {bytes : Bytes} {c : Char} :
    frontChar bytes = some c ↔ String.utf8EncodeChar c <+: bytes := by
  constructor
  · intro h
    obtain ⟨rest, hrest⟩ := ByteArray.exists_of_utf8DecodeChar?_eq_some h
    refine ⟨rest.data.toList, ?_⟩
    have hdata := congrArg (fun b : ByteArray => b.data.toList) hrest
    simpa using hdata.symm
  · rintro ⟨rest, rfl⟩
    unfold frontChar
    have happend : (⟨(String.utf8EncodeChar c ++ rest).toArray⟩ : ByteArray) =
        (String.utf8EncodeChar c).toByteArray ++ ⟨rest.toArray⟩ := by
      apply ByteArray.ext
      simp
    rw [happend]
    exact ByteArray.utf8DecodeChar?_utf8EncodeChar_append

theorem frontChar_of_ascii {first : UInt8} (h : first.toNat < 128) (rest : Bytes) :
    frontChar (first :: rest) = some (Char.ofNat first.toNat) := by
  refine frontChar_eq_some.mpr ⟨rest, ?_⟩
  have hall : ∀ b : UInt8, b.toNat < 128 → String.utf8EncodeChar (Char.ofNat b.toNat) = [b] := by
    decide +kernel
  rw [hall first h]
  rfl

theorem illFormedLen_le_length {bytes : Bytes} (h : bytes ≠ []) :
    illFormedLen bytes ≤ bytes.length := by
  unfold illFormedLen
  split
  · simp only [List.length_cons]
    split_ifs <;> omega
  · simp only [List.length_cons]
    split_ifs <;> omega
  · exact List.length_pos_iff.mpr h

theorem illFormedLen_le (bytes : Bytes) : illFormedLen bytes ≤ 3 := by
  unfold illFormedLen
  split
  · split_ifs <;> omega
  · split_ifs <;> omega
  · omega

theorem le_of_acceptsSecond {first second : UInt8} (h : acceptsSecond first second) :
    128 ≤ second.toNat := by
  unfold acceptsSecond at h
  split_ifs at h
  all_goals
    simp only [Bool.and_eq_true, decide_eq_true_eq, UInt8.le_iff_toNat_le] at h
    have hlow := h
    simp only [UInt8.reduceToNat] at hlow
    omega

theorem le_of_mem_illFormed {bytes : Bytes} (h : frontChar bytes = none) {b : UInt8}
    (hb : b ∈ bytes.take (illFormedLen bytes)) : 128 ≤ b.toNat := by
  have hfirst : ∀ {first rest}, bytes = first :: rest → 128 ≤ first.toNat := by
    rintro first rest rfl
    by_contra hascii
    rw [frontChar_of_ascii (Nat.not_le.mp hascii)] at h
    cases h
  have hone : b ∈ bytes.take 1 → 128 ≤ b.toNat := by
    intro hb
    cases bytes with
    | nil => cases hb
    | cons first rest =>
      rw [List.mem_singleton.mp hb]
      exact hfirst rfl
  unfold illFormedLen at hb
  split at hb
  · rename_i first second third rest
    split_ifs at hb with hsecond hthird
    · exact hone hb
    · rw [Bool.not_eq_true', Bool.not_eq_false] at hsecond
      simp only [Bool.and_eq_true, decide_eq_true_eq] at hthird
      simp only [List.take_succ_cons, List.take_zero, List.mem_cons, List.not_mem_nil,
        or_false] at hb
      rcases hb with rfl | rfl | rfl
      · exact hfirst rfl
      · exact le_of_acceptsSecond hsecond
      · exact UInt8.le_iff_toNat_le.mp hthird.1.2
    · rw [Bool.not_eq_true', Bool.not_eq_false] at hsecond
      rcases List.mem_pair.mp hb with rfl | rfl
      · exact hfirst rfl
      · exact le_of_acceptsSecond hsecond
  · rename_i first second
    split_ifs at hb with hsecond
    · rcases List.mem_pair.mp hb with rfl | rfl
      · exact hfirst rfl
      · exact le_of_acceptsSecond hsecond
    · exact hone hb
  · exact hone hb

/-! ## The sequences -/

/-- A sequence is the encoding of its character, or ill-formed. -/
def SoundSequence (sequence : Bytes × Option Char) : Prop :=
  match sequence.2 with
  | some c => sequence.1 = String.utf8EncodeChar c
  | none => 0 < sequence.1.length ∧ sequence.1.length ≤ 3 ∧ ∀ b ∈ sequence.1, 128 ≤ b.toNat

theorem soundSequence_front {bytes : Bytes} (h : bytes ≠ []) :
    SoundSequence (bytes.take (frontLen bytes), frontChar bytes) := by
  unfold SoundSequence frontLen
  dsimp only
  cases hfront : frontChar bytes with
  | some c =>
    dsimp only
    rw [← String.length_utf8EncodeChar]
    exact (List.prefix_iff_eq_take.mp (frontChar_eq_some.mp hfront)).symm
  | none =>
    dsimp only
    have hpos := illFormedLen_pos bytes
    have hle := illFormedLen_le bytes
    rw [List.length_take, Nat.min_eq_left (illFormedLen_le_length h)]
    exact ⟨hpos, hle, fun b hb => le_of_mem_illFormed hfront hb⟩

theorem flatten_utf8Sequences (bytes : Bytes) :
    (utf8Sequences bytes).flatMap Prod.fst = bytes := by
  induction bytes using utf8Sequences.induct with
  | case1 =>
    rw [utf8Sequences]
    rfl
  | case2 first rest ih =>
    rw [utf8Sequences, List.flatMap_cons, ih]
    exact List.take_append_drop _ _

theorem soundSequence_of_mem {bytes : Bytes} {sequence : Bytes × Option Char}
    (h : sequence ∈ utf8Sequences bytes) : SoundSequence sequence := by
  induction bytes using utf8Sequences.induct with
  | case1 =>
    rw [utf8Sequences] at h
    cases h
  | case2 first rest ih =>
    rw [utf8Sequences, List.mem_cons] at h
    rcases h with rfl | h
    · exact soundSequence_front (List.cons_ne_nil _ _)
    · exact ih h

/-! ## Sizes -/

theorem SoundSequence.length_eq {sequence : Bytes × Option Char} (h : SoundSequence sequence) :
    (String.utf8EncodeChar (sequence.2.getD replacementChar)).length =
      sequence.1.length + sequenceGrowth sequence := by
  obtain ⟨bytes, c⟩ := sequence
  unfold SoundSequence at h
  unfold sequenceGrowth
  cases c with
  | some c =>
    dsimp only at h
    rw [h]
    rfl
  | none =>
    dsimp only at h
    have hlength : (String.utf8EncodeChar replacementChar).length = 3 := by decide +kernel
    show (String.utf8EncodeChar replacementChar).length = bytes.length + (3 - bytes.length)
    omega

/-- Replacing leaves the bytes that a literal escapes as they are. -/
theorem SoundSequence.escapeGrowth_eq {sequence : Bytes × Option Char} (h : SoundSequence sequence) :
    ((String.utf8EncodeChar (sequence.2.getD replacementChar)).map JsonText.escapeGrowth).sum =
      (sequence.1.map JsonText.escapeGrowth).sum := by
  obtain ⟨bytes, c⟩ := sequence
  unfold SoundSequence at h
  cases c with
  | some c =>
    dsimp only at h
    rw [h]
    rfl
  | none =>
    dsimp only at h
    have hzero : (bytes.map JsonText.escapeGrowth).sum = 0 :=
      List.sum_eq_zero (List.forall_mem_map.mpr fun b hb =>
        JsonText.escapeGrowth_of_ge (h.2.2 b hb))
    rw [hzero]
    show ((String.utf8EncodeChar replacementChar).map JsonText.escapeGrowth).sum = 0
    decide +kernel

theorem byteLen_fromUtf8Lossy (bytes : Bytes) :
    byteLen (fromUtf8Lossy bytes) = bytes.length + decodingGrowth bytes := by
  have hlength := congrArg List.length (flatten_utf8Sequences bytes)
  have hsound : ∀ sequence ∈ utf8Sequences bytes, SoundSequence sequence :=
    fun _ => soundSequence_of_mem
  unfold fromUtf8Lossy decodingGrowth
  rw [byteLen_ofList, List.map_map, ← hlength]
  generalize utf8Sequences bytes = sequences at hsound ⊢
  induction sequences with
  | nil => rfl
  | cons sequence sequences ih =>
    rw [List.forall_mem_cons] at hsound
    have hfront := hsound.1.length_eq
    have hrest := ih hsound.2
    simp only [List.map_cons, List.sum_cons, List.flatMap_cons, List.length_append,
      Function.comp_apply] at hrest ⊢
    omega

theorem bodyLen_fromUtf8Lossy (bytes : Bytes) :
    JsonText.bodyLen (fromUtf8Lossy bytes) = bytes.length + decodingGrowth bytes +
      (bytes.map JsonText.escapeGrowth).sum := by
  have hsound : ∀ sequence ∈ utf8Sequences bytes, SoundSequence sequence :=
    fun _ => soundSequence_of_mem
  have hescapes : ((utf8 (fromUtf8Lossy bytes)).map JsonText.escapeGrowth).sum =
      (bytes.map JsonText.escapeGrowth).sum := by
    conv_rhs => rw [← flatten_utf8Sequences bytes]
    unfold fromUtf8Lossy
    rw [utf8_ofList]
    generalize utf8Sequences bytes = sequences at hsound ⊢
    induction sequences with
    | nil => rfl
    | cons sequence sequences ih =>
      rw [List.forall_mem_cons] at hsound
      rw [List.map_cons, List.flatMap_cons, List.flatMap_cons, List.map_append, List.map_append,
        List.sum_append, List.sum_append, hsound.1.escapeGrowth_eq, ih hsound.2]
  rw [JsonText.bodyLen_eq, byteLen_fromUtf8Lossy, hescapes]

/-! ## Bytes that are UTF-8 -/

theorem utf8Sequences_append (c : Char) (rest : Bytes) :
    utf8Sequences (String.utf8EncodeChar c ++ rest) =
      (String.utf8EncodeChar c, some c) :: utf8Sequences rest := by
  have hfront : frontChar (String.utf8EncodeChar c ++ rest) = some c :=
    frontChar_eq_some.mpr (List.prefix_append _ _)
  have hlen : frontLen (String.utf8EncodeChar c ++ rest) = (String.utf8EncodeChar c).length := by
    unfold frontLen
    rw [hfront, String.length_utf8EncodeChar]
  cases hbytes : String.utf8EncodeChar c ++ rest with
  | nil =>
    rw [hbytes] at hfront
    cases hfront
  | cons first tail =>
    rw [utf8Sequences, ← hbytes, hfront, hlen, List.take_left, List.drop_left]

theorem utf8Sequences_utf8 (s : String) :
    utf8Sequences (utf8 s) = s.toList.map fun c => (String.utf8EncodeChar c, some c) := by
  rw [utf8_eq_flatMap]
  induction s.toList with
  | nil =>
    rw [List.flatMap_nil, utf8Sequences]
    rfl
  | cons c l ih => rw [List.flatMap_cons, utf8Sequences_append, ih, List.map_cons]

theorem fromUtf8Lossy_utf8 (s : String) : fromUtf8Lossy (utf8 s) = s := by
  unfold fromUtf8Lossy
  rw [utf8Sequences_utf8, List.map_map]
  exact (congrArg String.ofList (List.map_id _)).trans String.ofList_toList

theorem decodingGrowth_utf8 (s : String) : decodingGrowth (utf8 s) = 0 := by
  have hlength := byteLen_fromUtf8Lossy (utf8 s)
  rw [fromUtf8Lossy_utf8] at hlength
  exact Nat.left_eq_add.mp hlength

end RustFactory.Lib
