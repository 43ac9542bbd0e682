import RustFactory.Lib.JsonText

/-!
# Sizes of JSON texts

A text is measured in bytes, or in the bytes that it takes inside a string literal (`bodyLen`).  Both
are additive, so the size of an array or an object is a sum over its parts, whatever their order.
A text without control characters at most doubles inside a literal.
-/

namespace RustFactory.Lib

theorem byteLen_append (s t : String) : byteLen (s ++ t) = byteLen s + byteLen t := by
  unfold byteLen
  rw [utf8_append, List.length_append]

theorem byteLen_ofList (l : List Char) :
    byteLen (String.ofList l) = (l.map fun c => (String.utf8EncodeChar c).length).sum := by
  unfold byteLen
  rw [utf8_eq_flatMap, String.toList_ofList, List.length_flatMap]

theorem byteLen_eq_sum (s : String) :
    byteLen s = (s.toList.map fun c => (String.utf8EncodeChar c).length).sum := by
  rw [← byteLen_ofList, String.ofList_toList]

theorem intercalate_cons_cons (sep piece next : String) (pieces : List String) :
    sep.intercalate (piece :: next :: pieces) =
      piece ++ sep ++ sep.intercalate (next :: pieces) := by
  rw [← String.toList_inj]
  simp only [String.toList_intercalate, String.toList_append, List.map_cons, List.intercalate,
    List.intersperse_cons_cons, List.flatten_cons, List.append_assoc]

/-! ## Additive measures -/

/-- A measure of texts that adds up. -/
structure Additive (m : String → ℕ) : Prop where
  append : ∀ s t, m (s ++ t) = m s + m t

namespace Additive

variable {m : String → ℕ} (h : Additive m)

include h

theorem empty : m "" = 0 := by
  have := h.append "" ""
  rw [String.append_empty] at this
  omega

/-- A joined list is as long as its pieces, each with a separator, but for one separator. -/
theorem intercalate (sep : String) (pieces : List String) :
    m (sep.intercalate pieces) + (if pieces = [] then 0 else m sep) =
      (pieces.map fun piece => m piece + m sep).sum := by
  induction pieces with
  | nil => exact h.empty
  | cons piece pieces ih =>
    rw [if_neg (List.cons_ne_nil _ _), List.map_cons, List.sum_cons]
    cases pieces with
    | nil => exact congrArg (m · + m sep) (String.intercalate_singleton)
    | cons next pieces =>
      rw [if_neg (List.cons_ne_nil _ _)] at ih
      rw [intercalate_cons_cons, h.append, h.append, ← ih]
      omega

theorem intercalate_le (sep : String) (pieces : List String) :
    m (sep.intercalate pieces) ≤ (pieces.map fun piece => m piece + m sep).sum := by
  rw [← h.intercalate]
  exact Nat.le_add_right _ _

theorem intercalate_take (sep : String) (pieces : List String) {k l : ℕ} (hkl : k ≤ l) :
    m (sep.intercalate (pieces.take k)) ≤ m (sep.intercalate (pieces.take l)) := by
  have hk := h.intercalate sep (pieces.take k)
  have hl := h.intercalate sep (pieces.take l)
  have hsum : ((pieces.take k).map fun piece => m piece + m sep).sum ≤
      ((pieces.take l).map fun piece => m piece + m sep).sum := by
    refine ((List.take_prefix_take_left hkl).sublist.map _).sum_le_sum fun _ _ => Nat.zero_le _
  by_cases hnil : pieces.take k = []
  · rw [hnil, show sep.intercalate [] = "" from rfl, h.empty]
    exact Nat.zero_le _
  · have hnil' : pieces.take l ≠ [] := by
      intro hempty
      refine hnil (List.prefix_nil.mp ?_)
      rw [← hempty]
      exact List.take_prefix_take_left hkl
    rw [if_neg hnil] at hk
    rw [if_neg hnil'] at hl
    omega

theorem array_eq (items : List String) :
    m (JsonText.array items) = m "[" + m (",".intercalate items) + m "]" := by
  unfold JsonText.array
  rw [h.append, h.append]

/-- An object is as long as its members, each with a colon and a comma, and braces for one comma. -/
theorem object_eq (members : List (String × String)) :
    m (JsonText.object members) + (if members = [] then 0 else m ",") = m "\x7b" + m "\x7d" +
      (members.map fun member => m (JsonText.quoted member.1) + m ":" + m member.2 + m ",").sum := by
  have hpieces := h.intercalate ","
    (members.map fun member => JsonText.quoted member.1 ++ ":" ++ member.2)
  rw [List.map_map] at hpieces
  have hmember : ((fun piece => m piece + m ",") ∘
      fun member : String × String => JsonText.quoted member.1 ++ ":" ++ member.2) =
      fun member => m (JsonText.quoted member.1) + m ":" + m member.2 + m "," := by
    funext member
    show m (JsonText.quoted member.1 ++ ":" ++ member.2) + m "," = _
    rw [h.append, h.append]
  rw [hmember] at hpieces
  simp only [List.map_eq_nil_iff] at hpieces
  unfold JsonText.object
  rw [h.append, h.append]
  omega

theorem object_perm {members members' : List (String × String)} (hperm : members.Perm members') :
    m (JsonText.object members) = m (JsonText.object members') := by
  have hsum := (hperm.map fun member =>
    m (JsonText.quoted member.1) + m ":" + m member.2 + m ",").sum_eq
  have heq := h.object_eq members
  have heq' := h.object_eq members'
  have hnil : members = [] ↔ members' = [] := by
    rw [← List.length_eq_zero_iff, hperm.length_eq, List.length_eq_zero_iff]
  simp only [hnil] at heq
  omega

theorem objectValue_eq (members : List (String × String)) :
    m (JsonText.objectValue members) = m (JsonText.object members) :=
  h.object_perm (List.mergeSort_perm members _)

end Additive

theorem additive_byteLen : Additive byteLen := ⟨byteLen_append⟩

/-! ## Inside a literal -/

namespace JsonText

/-- The bytes of a text inside a string literal. -/
def bodyLen (s : String) : ℕ := byteLen (String.ofList (s.toList.flatMap escape))

theorem additive_bodyLen : Additive bodyLen where
  append s t := by
    unfold bodyLen
    rw [String.toList_append, List.flatMap_append, String.ofList_append, byteLen_append]

theorem byteLen_punctuation : byteLen "\"" = 1 ∧ byteLen "," = 1 ∧ byteLen ":" = 1 ∧
    byteLen "[" = 1 ∧ byteLen "]" = 1 ∧ byteLen "\x7b" = 1 ∧ byteLen "\x7d" = 1 := by
  decide +kernel

theorem byteLen_quoted (s : String) : byteLen (quoted s) = bodyLen s + 2 := by
  have hquote : byteLen "\"" = 1 := byteLen_punctuation.1
  unfold quoted bodyLen
  rw [byteLen_append, byteLen_append, hquote]
  omega

/-- The characters from the space on. -/
def Printable (s : String) : Prop := ∀ c ∈ s.toList, 32 ≤ c.toNat

instance (s : String) : Decidable (Printable s) :=
  List.decidableBAll (fun c : Char => 32 ≤ c.toNat) s.toList

theorem Printable.append {s t : String} (hs : Printable s) (ht : Printable t) :
    Printable (s ++ t) := by
  intro c hc
  rw [String.toList_append, List.mem_append] at hc
  exact hc.elim (hs c) (ht c)

theorem printable_intercalate {sep : String} {pieces : List String} (hsep : Printable sep)
    (h : ∀ piece ∈ pieces, Printable piece) : Printable (sep.intercalate pieces) := by
  induction pieces with
  | nil => exact nofun
  | cons piece pieces ih =>
    rw [List.forall_mem_cons] at h
    cases pieces with
    | nil =>
      rw [String.intercalate_singleton]
      exact h.1
    | cons next pieces =>
      rw [intercalate_cons_cons]
      exact (h.1.append hsep).append (ih h.2)

/-- A character from the space on is escaped, if at all, with one more character. -/
theorem escape_of_printable {c : Char} (h : 32 ≤ c.toNat) :
    escape c = if c = '"' ∨ c = '\\' then ['\\', c] else [c] := by
  have hcontrol : ∀ {d : Char}, d.toNat < 32 → c ≠ d := by
    rintro d hd rfl
    exact absurd h (Nat.not_le.mpr hd)
  unfold escape
  by_cases hquote : c = '"'
  · rw [if_pos hquote, if_pos (.inl hquote), hquote]
  · by_cases hslash : c = '\\'
    · rw [if_neg hquote, if_pos hslash, if_pos (.inr hslash), hslash]
    · rw [if_neg hquote, if_neg hslash, if_neg (hcontrol (by decide)),
        if_neg (hcontrol (by decide)), if_neg (hcontrol (by decide)), if_neg (hcontrol (by decide)),
        if_neg (hcontrol (by decide)), if_neg (Nat.not_lt.mpr h), if_neg (not_or.mpr ⟨hquote, hslash⟩)]

theorem escape_of_wide {c : Char} (h : 128 ≤ c.toNat) : escape c = [c] := by
  have hascii : ∀ {d : Char}, d.toNat < 128 → c ≠ d := by
    rintro d hd rfl
    exact absurd h (Nat.not_le.mpr hd)
  rw [escape_of_printable (by omega),
    if_neg (not_or.mpr ⟨hascii (by decide), hascii (by decide)⟩)]

theorem printable_escape {c d : Char} (h : d ∈ escape c) : 32 ≤ d.toNat := by
  by_cases hc : 32 ≤ c.toNat
  · rw [escape_of_printable hc] at h
    split at h
    · rcases List.mem_pair.mp h with rfl | rfl
      · decide
      · exact hc
    · rwa [List.mem_singleton.mp h]
  · have hall : ∀ n : Fin 32, ((escape (Char.ofNat n)).all fun d => 32 ≤ d.toNat) = true := by
      decide +kernel
    have hfin := hall ⟨c.toNat, Nat.not_le.mp hc⟩
    rw [Char.ofNat_toNat, List.all_eq_true] at hfin
    exact of_decide_eq_true (hfin d h)

theorem printable_punctuation : Printable "\"" ∧ Printable "," ∧ Printable ":" ∧ Printable "[" ∧
    Printable "]" ∧ Printable "\x7b" ∧ Printable "\x7d" := by
  decide +kernel

theorem printable_quoted (s : String) : Printable (quoted s) := by
  have hquote : Printable "\"" := printable_punctuation.1
  refine (hquote.append ?_).append hquote
  intro d hd
  rw [String.toList_ofList, List.mem_flatMap] at hd
  obtain ⟨c, -, hd⟩ := hd
  exact printable_escape hd

theorem printable_decimal (n : ℕ) : Printable (decimal n) := by
  intro c hc
  have := toNat_of_isDigit (isDigit_of_mem_decimal hc)
  omega

theorem printable_array {items : List String} (h : ∀ item ∈ items, Printable item) :
    Printable (array items) := by
  obtain ⟨-, hcomma, -, hopen, hclose, -⟩ := printable_punctuation
  exact (hopen.append (printable_intercalate hcomma h)).append hclose

theorem printable_object {members : List (String × String)}
    (h : ∀ member ∈ members, Printable member.2) : Printable (object members) := by
  obtain ⟨-, hcomma, hcolon, -, -, hopen, hclose⟩ := printable_punctuation
  refine (hopen.append (printable_intercalate hcomma fun piece hpiece => ?_)).append hclose
  obtain ⟨member, hmember, rfl⟩ := List.mem_map.mp hpiece
  exact ((printable_quoted _).append hcolon).append (h member hmember)

theorem printable_objectValue {members : List (String × String)}
    (h : ∀ member ∈ members, Printable member.2) : Printable (objectValue members) :=
  printable_object fun member hmember => h member ((List.mergeSort_perm _ _).mem_iff.mp hmember)

/-! ## Byte by byte -/

/-- What a byte adds to the text when it stands in a literal. -/
def escapeGrowth (b : UInt8) : ℕ :=
  if b = 34 ∨ b = 92 ∨ b = 8 ∨ b = 9 ∨ b = 10 ∨ b = 12 ∨ b = 13 then 1
  else if b < 32 then 5
  else 0

example : escapeGrowth 10 = 1 ∧ escapeGrowth 1 = 5 ∧ escapeGrowth 65 = 0 := by decide +kernel

theorem escapeGrowth_of_ge {b : UInt8} (h : 128 ≤ b.toNat) : escapeGrowth b = 0 := by
  have hall : ∀ b : UInt8, 128 ≤ b.toNat → escapeGrowth b = 0 := by decide +kernel
  exact hall b h

theorem le_of_mem_utf8EncodeChar {c : Char} (h : 128 ≤ c.toNat) {b : UInt8}
    (hb : b ∈ String.utf8EncodeChar c) : 128 ≤ b.toNat := by
  have hval : 128 ≤ c.val.toNat := h
  unfold String.utf8EncodeChar at hb
  dsimp only at hb
  split_ifs at hb with h1 h2 h3
  · omega
  all_goals
    simp only [List.mem_cons, List.not_mem_nil, or_false] at hb
    rcases hb with rfl | rfl | rfl | rfl <;> rw [UInt8.toNat_ofNat'] <;> omega

theorem byteLen_escape (c : Char) : byteLen (String.ofList (escape c)) =
    (String.utf8EncodeChar c).length + ((String.utf8EncodeChar c).map escapeGrowth).sum := by
  rcases Nat.lt_or_ge c.toNat 128 with hascii | hwide
  · have hall : ∀ n : Fin 128, byteLen (String.ofList (escape (Char.ofNat n))) =
        1 + escapeGrowth (UInt8.ofNat n) := by
      decide +kernel
    have hchar := hall ⟨c.toNat, hascii⟩
    rw [Char.ofNat_toNat] at hchar
    rw [utf8EncodeChar_ascii hascii, hchar]
    rfl
  · have hzero : ((String.utf8EncodeChar c).map escapeGrowth).sum = 0 := by
      refine List.sum_eq_zero fun n hn => ?_
      obtain ⟨b, hb, rfl⟩ := List.mem_map.mp hn
      exact escapeGrowth_of_ge (le_of_mem_utf8EncodeChar hwide hb)
    rw [escape_of_wide hwide, hzero, byteLen_ofList]
    rfl

theorem bodyLen_eq (s : String) : bodyLen s = byteLen s + ((utf8 s).map escapeGrowth).sum := by
  unfold bodyLen
  rw [byteLen_eq_sum s, utf8_eq_flatMap]
  induction s.toList with
  | nil => rfl
  | cons c l ih =>
    rw [List.flatMap_cons, String.ofList_append, byteLen_append, ih, byteLen_escape,
      List.flatMap_cons, List.map_append, List.sum_append, List.map_cons, List.sum_cons]
    omega

/-- A text without quotes, backslashes and control characters stays as long as it is. -/
theorem bodyLen_of_bytes {s : String} (h : ∀ b ∈ utf8 s, escapeGrowth b = 0) :
    bodyLen s = byteLen s := by
  rw [bodyLen_eq, List.sum_eq_zero (List.forall_mem_map.mpr h), Nat.add_zero]

theorem bodyLen_le_of_printable {s : String} (h : Printable s) : bodyLen s ≤ 2 * byteLen s := by
  have hall : ∀ b : UInt8, 32 ≤ b.toNat → escapeGrowth b ≤ 1 := by decide +kernel
  have hsum : ((utf8 s).map escapeGrowth).sum ≤ ((utf8 s).map escapeGrowth).length • 1 := by
    refine List.sum_le_card_nsmul _ _ ?_
    rintro n hn
    obtain ⟨b, hb, rfl⟩ := List.mem_map.mp hn
    obtain ⟨c, hc, hb⟩ := mem_utf8.mp hb
    rcases Nat.lt_or_ge c.toNat 128 with hascii | hwide
    · rw [utf8EncodeChar_ascii hascii, List.mem_singleton] at hb
      refine hall b ?_
      rw [hb, UInt8.toNat_ofNat', Nat.mod_eq_of_lt (by omega)]
      exact h c hc
    · rw [escapeGrowth_of_ge (le_of_mem_utf8EncodeChar hwide hb)]
      exact Nat.zero_le 1
  rw [List.length_map, smul_eq_mul, Nat.mul_one] at hsum
  rw [bodyLen_eq, Nat.two_mul]
  exact Nat.add_le_add_left hsum _

/-! ## Lengths of numbers -/

theorem byteLen_decimal_le {n k : ℕ} (hk : 0 < k) (h : n < 10 ^ k) : byteLen (decimal n) ≤ k := by
  rw [byteLen_decimal]
  rcases Nat.eq_zero_or_pos n with rfl | hpos
  · rw [Nat.log_zero_right]
    exact hk
  · exact (Nat.log_lt_iff_lt_pow (by decide) hpos.ne').mpr h

end JsonText

end RustFactory.Lib
