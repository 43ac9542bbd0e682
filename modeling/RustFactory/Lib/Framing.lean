import RustFactory.Lib.Text

/-!
# Framing

Encodings that can be read off the front of any longer text.  A sequence of such encodings has one
reading, so records and lists written field by field are determined by what was written.  Two
frames for texts: a decimal length with a colon, and a big-endian length of fixed width.
-/

namespace RustFactory.Lib

universe u v

variable {α : Type u} {β : Type v}

/-! ## Self-delimiting encodings -/

/-- Among the values with `P`, the code of a value ends where it ends, whatever follows. -/
def SelfDelimiting (P : α → Prop) (e : α → List β) : Prop :=
  ∀ ⦃a b : α⦄, P a → P b → ∀ ⦃x y : List β⦄, e a ++ x = e b ++ y → a = b ∧ x = y

section SelfDelimiting

variable {P : α → Prop} {e : α → List β}

theorem SelfDelimiting.injective (h : SelfDelimiting P e) {a b : α} (ha : P a) (hb : P b)
    (hab : e a = e b) : a = b := by
  have := @h a b ha hb [] []
  rw [List.append_nil, List.append_nil] at this
  exact (this hab).1

theorem SelfDelimiting.of_length {n : ℕ} (hn : ∀ a, P a → (e a).length = n)
    (hinj : ∀ a b, P a → P b → e a = e b → a = b) : SelfDelimiting P e := by
  intro a b ha hb x y h
  have hlen : (e a).length = (e b).length := by rw [hn a ha, hn b hb]
  obtain ⟨h₁, h₂⟩ := List.append_inj h hlen
  exact ⟨hinj a b ha hb h₁, h₂⟩

theorem append_cons_inj_of_mark {c : β} {p q x y : List β} (hp : c ∉ p) (hq : c ∉ q)
    (h : p ++ c :: x = q ++ c :: y) : p = q ∧ x = y := by
  induction p generalizing q with
  | nil =>
    cases q with
    | nil => exact ⟨rfl, List.tail_eq_of_cons_eq h⟩
    | cons d q => exact absurd (List.mem_cons.mpr (Or.inl (List.head_eq_of_cons_eq h))) hq
  | cons d p ih =>
    cases q with
    | nil => exact absurd (List.mem_cons.mpr (Or.inl (List.head_eq_of_cons_eq h).symm)) hp
    | cons d' q =>
      rw [List.cons_append, List.cons_append, List.cons.injEq] at h
      obtain ⟨rfl, rfl⟩ := ih (List.not_mem_of_not_mem_cons hp) (List.not_mem_of_not_mem_cons hq) h.2
      exact ⟨by rw [h.1], rfl⟩

/-- Two lists of the same length are read off the front of a text member by member. -/
theorem SelfDelimiting.flatMap_append (h : SelfDelimiting P e) {as bs : List α}
    (has : ∀ a ∈ as, P a) (hbs : ∀ b ∈ bs, P b) (hlen : as.length = bs.length) {x y : List β}
    (heq : as.flatMap e ++ x = bs.flatMap e ++ y) : as = bs ∧ x = y := by
  induction as generalizing bs with
  | nil =>
    have hnil : bs = [] := List.eq_nil_of_length_eq_zero hlen.symm
    subst hnil
    exact ⟨rfl, heq⟩
  | cons a as ih =>
    cases bs with
    | nil => cases hlen
    | cons b bs =>
      rw [List.flatMap_cons, List.flatMap_cons, List.append_assoc, List.append_assoc] at heq
      obtain ⟨rfl, hrest⟩ := h (has a List.mem_cons_self) (hbs b List.mem_cons_self) heq
      obtain ⟨rfl, rfl⟩ := ih (fun a' ha' => has a' (List.mem_cons_of_mem _ ha'))
        (fun b' hb' => hbs b' (List.mem_cons_of_mem _ hb')) (Nat.succ.inj hlen) hrest
      exact ⟨rfl, rfl⟩

/-- A text is read as a list in one way only, if no member has an empty code. -/
theorem SelfDelimiting.flatMap_injective (h : SelfDelimiting P e) (hne : ∀ a, P a → e a ≠ [])
    {as bs : List α} (has : ∀ a ∈ as, P a) (hbs : ∀ b ∈ bs, P b)
    (heq : as.flatMap e = bs.flatMap e) : as = bs := by
  induction as generalizing bs with
  | nil =>
    cases bs with
    | nil => rfl
    | cons b bs =>
      rw [List.flatMap_nil, List.flatMap_cons] at heq
      exact absurd (List.append_eq_nil_iff.mp heq.symm).1 (hne b (hbs b List.mem_cons_self))
  | cons a as ih =>
    cases bs with
    | nil =>
      rw [List.flatMap_nil, List.flatMap_cons] at heq
      exact absurd (List.append_eq_nil_iff.mp heq).1 (hne a (has a List.mem_cons_self))
    | cons b bs =>
      rw [List.flatMap_cons, List.flatMap_cons] at heq
      obtain ⟨rfl, hrest⟩ := h (has a List.mem_cons_self) (hbs b List.mem_cons_self) heq
      rw [ih (fun a' ha' => has a' (List.mem_cons_of_mem _ ha'))
        (fun b' hb' => hbs b' (List.mem_cons_of_mem _ hb')) hrest]

/-- A list after the code of its length is self-delimiting. -/
theorem SelfDelimiting.counted {Q : ℕ → Prop} {count : ℕ → List β} (hcount : SelfDelimiting Q count)
    (h : SelfDelimiting P e) :
    SelfDelimiting (fun as : List α => Q as.length ∧ ∀ a ∈ as, P a)
      fun as => count as.length ++ as.flatMap e := by
  intro as bs has hbs x y heq
  rw [List.append_assoc, List.append_assoc] at heq
  obtain ⟨hlen, heq⟩ := hcount has.1 hbs.1 heq
  exact h.flatMap_append has.2 hbs.2 hlen heq

end SelfDelimiting

/-! ## Decimal texts -/

/-- The decimal text of a number. -/
def decimal (n : ℕ) : String := toString n

theorem decimal_injective : Function.Injective decimal := by
  intro m n h
  exact Nat.repr_injective h

theorem isDigit_of_mem_decimal {n : ℕ} {c : Char} (h : c ∈ (decimal n).toList) : c.isDigit := by
  change c ∈ n.repr.toList at h
  rw [Nat.toList_repr] at h
  exact Nat.isDigit_of_mem_toDigits (by decide) (by decide) h

theorem toNat_of_isDigit {c : Char} (h : c.isDigit) : 48 ≤ c.toNat ∧ c.toNat ≤ 57 := by
  unfold Char.isDigit at h
  rw [Bool.and_eq_true, decide_eq_true_eq, decide_eq_true_eq] at h
  exact ⟨UInt32.le_iff_toNat_le.mp h.1, UInt32.le_iff_toNat_le.mp h.2⟩

theorem isAsciiDigit_of_mem_decimal {n : ℕ} {b : UInt8} (h : b ∈ utf8 (decimal n)) :
    isAsciiDigit b := by
  rw [← String.ofList_toList (s := decimal n), utf8_ofList] at h
  obtain ⟨c, hc, hb⟩ := List.mem_flatMap.mp h
  obtain ⟨hlo, hhi⟩ := toNat_of_isDigit (isDigit_of_mem_decimal hc)
  rw [utf8EncodeChar_ascii (by omega), List.mem_singleton] at hb
  subst hb
  unfold isAsciiDigit
  rw [Bool.and_eq_true, decide_eq_true_eq, decide_eq_true_eq, UInt8.le_iff_toNat_le,
    UInt8.le_iff_toNat_le, UInt8.toNat_ofNat']
  change 48 ≤ c.toNat % 256 ∧ c.toNat % 256 ≤ 57
  omega

theorem byteLen_decimal (n : ℕ) : byteLen (decimal n) = Nat.log 10 n + 1 := by
  have hascii : ∀ c ∈ (decimal n).toList, c.toNat < 128 := by
    intro c hc
    have := toNat_of_isDigit (isDigit_of_mem_decimal hc)
    omega
  have hlen : byteLen (decimal n) = n.repr.length := by
    rw [← String.ofList_toList (s := decimal n), byteLen_ofList_of_ascii hascii]
    rfl
  rw [hlen]
  refine le_antisymm ?_ ?_
  · exact (Nat.length_repr_le_iff (Nat.succ_pos _)).mpr (Nat.lt_pow_succ_log_self (by decide) n)
  · have hlt : n < 10 ^ n.repr.length :=
      (Nat.length_repr_le_iff Nat.length_repr_pos).mp le_rfl
    rcases Nat.eq_zero_or_pos n with rfl | hpos
    · exact Nat.length_repr_pos
    · exact (Nat.log_lt_iff_lt_pow (by decide) hpos.ne').mpr hlt

/-- A text with a character that is no digit is not the decimal text of a number. -/
theorem decimal_ne_of_mem {n : ℕ} {text : String} {c : Char} (h : c ∈ text.toList)
    (hc : ¬c.isDigit) : decimal n ≠ text := by
  rintro rfl
  exact hc (isDigit_of_mem_decimal h)

/-! ## Texts framed by a decimal length -/

/-- The length of a text, a colon, the text and a line feed. -/
def textFrame (value : String) : Bytes :=
  utf8 (decimal (byteLen value)) ++ 58 :: utf8 value ++ [10]

example : textFrame "ab" = [50, 58, 97, 98, 10] := by decide +kernel

theorem textFrame_selfDelimiting : SelfDelimiting (fun _ => True) textFrame := by
  intro a b _ _ x y h
  unfold textFrame at h
  have hcolon : ∀ s, (58 : UInt8) ∉ utf8 (decimal (byteLen s)) := by
    intro s hs
    exact absurd (isAsciiDigit_of_mem_decimal hs) (by decide)
  simp only [List.append_assoc, List.cons_append] at h
  obtain ⟨hlen, h⟩ := append_cons_inj_of_mark (hcolon a) (hcolon b) h
  have hlen' : (utf8 a).length = (utf8 b).length := decimal_injective (utf8_injective hlen)
  obtain ⟨hab, hxy⟩ := List.append_inj h hlen'
  exact ⟨utf8_injective hab, List.tail_eq_of_cons_eq hxy⟩

/-- The bytes of a sequence of framed texts. -/
def fields (values : List String) : Bytes := values.flatMap textFrame

theorem fields_append (as bs : List String) : fields (as ++ bs) = fields as ++ fields bs :=
  List.flatMap_append

theorem flatMap_fields {α : Type*} (values : List α) (texts : α → List String) :
    (values.flatMap fun value => fields (texts value)) = fields (values.flatMap texts) :=
  List.flatMap_assoc.symm

/-- A frame has the digits of the length, two marks and the text. -/
theorem length_textFrame (value : String) :
    (textFrame value).length = byteLen (decimal (byteLen value)) + 2 + byteLen value := by
  show (utf8 (decimal (byteLen value)) ++ 58 :: utf8 value ++ [10]).length =
    (utf8 (decimal (byteLen value))).length + 2 + (utf8 value).length
  rw [List.length_append, List.length_append, List.length_cons, List.length_singleton]
  omega

theorem length_fields (values : List String) :
    (fields values).length = (values.map fun value => (textFrame value).length).sum :=
  List.length_flatMap

/-- A sequence of framed texts is determined by its bytes. -/
theorem fields_injective : Function.Injective fields := by
  intro as bs h
  refine textFrame_selfDelimiting.flatMap_injective ?_ (fun _ _ => trivial) (fun _ _ => trivial) h
  intro a _ ha
  unfold textFrame at ha
  exact absurd (List.append_eq_nil_iff.mp ha).2 nofun

/-! ## Bytes framed by a length of fixed width -/

theorem toBe_injOn {k x y : ℕ} (hx : x < 256 ^ k) (hy : y < 256 ^ k) (h : toBe k x = toBe k y) :
    x = y := by
  rw [← fromBe_toBe hx, h, fromBe_toBe hy]

theorem toBe_selfDelimiting (k : ℕ) : SelfDelimiting (· < 256 ^ k) (toBe k) :=
  SelfDelimiting.of_length (fun _ _ => length_toBe _ _) fun _ _ => toBe_injOn

/-- Bytes after their length, which is written in `k` bytes. -/
def lengthFrame (k : ℕ) (value : Bytes) : Bytes := toBe k value.length ++ value

theorem lengthFrame_selfDelimiting (k : ℕ) :
    SelfDelimiting (fun value => value.length < 256 ^ k) (lengthFrame k) := by
  intro a b ha hb x y h
  unfold lengthFrame at h
  rw [List.append_assoc, List.append_assoc] at h
  obtain ⟨hlen, h⟩ := toBe_selfDelimiting k ha hb h
  exact List.append_inj h hlen

end RustFactory.Lib
