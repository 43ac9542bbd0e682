import Mathlib

/-!
# Bytes

Byte strings are lists of `UInt8`.  This file has the ASCII classes, the UTF-8 bytes of a string
and back, big-endian integers of a fixed width, the place of a string's extensions in the
lexicographic order, and checked machine arithmetic.
-/

namespace RustFactory.Lib

abbrev Bytes := List UInt8

instance instLinearOrderUInt8 : LinearOrder UInt8 where
  le_refl := UInt8.le_refl
  le_trans _ _ _ := UInt8.le_trans
  le_antisymm _ _ := UInt8.le_antisymm
  le_total := UInt8.le_total
  lt_iff_le_not_ge _ _ := Std.LawfulOrderLT.lt_iff _ _
  toDecidableLE := inferInstance

/-! ## ASCII classes -/

def isAsciiLowercase (b : UInt8) : Bool := 97 ≤ b && b ≤ 122

def isAsciiUppercase (b : UInt8) : Bool := 65 ≤ b && b ≤ 90

def isAsciiDigit (b : UInt8) : Bool := 48 ≤ b && b ≤ 57

def isAsciiAlphanumeric (b : UInt8) : Bool :=
  isAsciiLowercase b || isAsciiUppercase b || isAsciiDigit b

/-- The characters with the Unicode property `White_Space`. -/
def isWhitespace (c : Char) : Bool :=
  let n := c.toNat
  (9 ≤ n && n ≤ 13) || n == 0x20 || n == 0x85 || n == 0xa0 || n == 0x1680 ||
    (0x2000 ≤ n && n ≤ 0x200a) || n == 0x2028 || n == 0x2029 || n == 0x202f || n == 0x205f ||
    n == 0x3000

/-! ## UTF-8 -/

/-- The UTF-8 bytes of a string. -/
def utf8 (s : String) : Bytes := s.toByteArray.data.toList

/-- The length of a string in bytes. -/
def byteLen (s : String) : ℕ := (utf8 s).length

/-- The string with the given UTF-8 bytes, if they are valid. -/
def fromUtf8 (b : Bytes) : Option String := String.fromUTF8? ⟨b.toArray⟩

theorem utf8_injective : Function.Injective utf8 := by
  intro s t h
  unfold utf8 at h
  have h' : s.toByteArray.data = t.toByteArray.data := Array.toList_inj.mp h
  exact String.toByteArray_inj.mp (ByteArray.ext h')

theorem fromUtf8_utf8 (s : String) : fromUtf8 (utf8 s) = some s := by
  unfold fromUtf8 utf8 String.fromUTF8?
  have h : (⟨s.toByteArray.data.toList.toArray⟩ : ByteArray) = s.toByteArray := by simp
  rw [h, dif_pos s.isValidUTF8]
  rfl

theorem utf8_of_fromUtf8 {b : Bytes} {s : String} (h : fromUtf8 b = some s) : utf8 s = b := by
  unfold fromUtf8 String.fromUTF8? at h
  split at h
  · cases h
    simp [utf8, String.fromUTF8]
  · cases h

/-! ## Big-endian integers -/

/-- The `k` low bytes of `x`, most significant first. -/
def toBe : ℕ → ℕ → Bytes
  | 0, _ => []
  | k + 1, x => toBe k (x / 256) ++ [UInt8.ofNat x]

/-- The number with the given bytes, most significant first. -/
def fromBe (b : Bytes) : ℕ := b.foldl (fun x d => x * 256 + d.toNat) 0

theorem fromBe_concat (b : Bytes) (d : UInt8) : fromBe (b ++ [d]) = fromBe b * 256 + d.toNat := by
  unfold fromBe; rw [List.foldl_append]; rfl

@[simp] theorem length_toBe (k x : ℕ) : (toBe k x).length = k := by
  induction k generalizing x with
  | zero => rfl
  | succ k ih => unfold toBe; rw [List.length_append, ih]; rfl

theorem fromBe_toBe {k x : ℕ} (h : x < 256 ^ k) : fromBe (toBe k x) = x := by
  induction k generalizing x with
  | zero => have : x = 0 := by omega
            subst this; rfl
  | succ k ih =>
    have hx : x / 256 < 256 ^ k := by
      rw [pow_succ] at h; omega
    unfold toBe
    rw [fromBe_concat, ih hx, UInt8.toNat_ofNat']
    omega

theorem fromBe_lt (b : Bytes) : fromBe b < 256 ^ b.length := by
  induction b using List.reverseRecOn with
  | nil => decide
  | append_singleton b d ih =>
    have hd := d.toNat_lt
    rw [fromBe_concat, List.length_append, List.length_singleton, pow_succ]
    omega

theorem toBe_fromBe (b : Bytes) : toBe b.length (fromBe b) = b := by
  induction b using List.reverseRecOn with
  | nil => rfl
  | append_singleton b d ih =>
    have hd := d.toNat_lt
    rw [List.length_append, List.length_singleton, fromBe_concat]
    unfold toBe
    rw [show (fromBe b * 256 + d.toNat) / 256 = fromBe b by omega, ih]
    have hmod : UInt8.ofNat (fromBe b * 256 + d.toNat) = d := by
      apply UInt8.toNat_inj.mp
      rw [UInt8.toNat_ofNat']
      omega
    rw [hmod]

/-! ## Extensions in the byte order -/

theorem append_lt_append_iff {p a b : Bytes} : p ++ a < p ++ b ↔ a < b := by
  induction p with
  | nil => exact Iff.rfl
  | cons x p ih => rw [List.cons_append, List.cons_append, List.cons_lt_cons_self, ih]

/-- Between `p ++ [b]` and `p ++ [b + 1]` stand exactly the proper extensions of `p ++ [b]`. -/
theorem between_iff_extends {p x : Bytes} {b : UInt8} (hb : b ≠ 255) :
    (p ++ [b] < x ∧ x < p ++ [b + 1]) ↔ ∃ t, t ≠ [] ∧ x = p ++ [b] ++ t := by
  have hlt : b < b + 1 := by
    have h1 : b.toNat ≠ 255 := fun h => hb (UInt8.toNat_inj.mp h)
    have h2 := b.toNat_lt
    rw [UInt8.lt_iff_toNat_lt, UInt8.toNat_add]
    simp only [UInt8.reduceToNat]
    omega
  constructor
  · rintro ⟨h1, h2⟩
    induction p generalizing x with
    | nil =>
      cases x with
      | nil => cases h1
      | cons c x =>
        rw [List.nil_append, List.cons_lt_cons_iff] at h1 h2
        have hc : c = b := by
          have h3 : b ≤ c := by
            rcases h1 with h | ⟨h, -⟩
            · exact h.le
            · exact h.le
          have h4 : c < b + 1 := by
            rcases h2 with h | ⟨-, h⟩
            · exact h
            · exact absurd h (List.not_lt_nil _)
          apply le_antisymm _ h3
          rw [UInt8.lt_iff_toNat_lt, UInt8.toNat_add] at h4
          rw [UInt8.le_iff_toNat_le]
          simp only [UInt8.reduceToNat] at h4
          omega
        subst hc
        refine ⟨x, ?_, rfl⟩
        rintro rfl
        rcases h1 with h | ⟨-, h⟩
        · exact absurd h (lt_irrefl _)
        · cases h
    | cons a p ih =>
      cases x with
      | nil => cases h1
      | cons c x =>
        rw [List.cons_append, List.cons_lt_cons_iff] at h1 h2
        have hc : c = a := by
          rcases h1 with h | ⟨h, -⟩
          · rcases h2 with h' | ⟨h', -⟩
            · exact absurd h h'.asymm
            · exact h'
          · exact h.symm
        subst hc
        obtain ⟨t, ht, rfl⟩ := ih (h1.resolve_left (lt_irrefl _)).2 (h2.resolve_left (lt_irrefl _)).2
        exact ⟨t, ht, rfl⟩
  · rintro ⟨t, ht, rfl⟩
    constructor
    · obtain ⟨c, t, rfl⟩ := List.exists_cons_of_ne_nil ht
      nth_rewrite 1 [← List.append_nil (p ++ [b])]
      exact append_lt_append_iff.mpr (List.nil_lt_cons _ _)
    · rw [List.append_assoc, append_lt_append_iff, List.singleton_append, List.cons_lt_cons_iff]
      exact Or.inl hlt

/-! ## Checked machine arithmetic -/

/-- Addition of 64-bit words that fails on overflow. -/
def checkedAdd (a b : UInt64) : Option UInt64 :=
  if a.toNat + b.toNat < 2 ^ 64 then some (a + b) else none

/-- Subtraction of 64-bit words that fails on underflow. -/
def checkedSub (a b : UInt64) : Option UInt64 := if b ≤ a then some (a - b) else none

/-- A size as a 64-bit word, if it fits. -/
def u64TryFrom (n : ℕ) : Option UInt64 := if n < 2 ^ 64 then some (UInt64.ofNat n) else none

/-- A size as a 32-bit word, if it fits. -/
def u32TryFrom (n : ℕ) : Option UInt32 := if n < 2 ^ 32 then some (UInt32.ofNat n) else none

/-- A size as a 16-bit word, if it fits. -/
def u16TryFrom (n : ℕ) : Option UInt16 := if n < 2 ^ 16 then some (UInt16.ofNat n) else none

theorem checkedAdd_eq_some {a b c : UInt64} :
    checkedAdd a b = some c ↔ c.toNat = a.toNat + b.toNat := by
  have hc := c.toNat_lt
  unfold checkedAdd
  by_cases h : a.toNat + b.toNat < 2 ^ 64
  · rw [if_pos h, Option.some.injEq, ← UInt64.toNat_inj, UInt64.toNat_add, Nat.mod_eq_of_lt h]
    exact eq_comm
  · rw [if_neg h]
    constructor
    · intro h'; cases h'
    · intro h'; omega

theorem checkedSub_eq_some {a b c : UInt64} :
    checkedSub a b = some c ↔ c.toNat + b.toNat = a.toNat := by
  unfold checkedSub
  by_cases h : b ≤ a
  · have h' := UInt64.le_iff_toNat_le.mp h
    rw [if_pos h, Option.some.injEq, ← UInt64.toNat_inj, UInt64.toNat_sub_of_le _ _ h]
    omega
  · rw [UInt64.le_iff_toNat_le] at h
    rw [if_neg (by rwa [UInt64.le_iff_toNat_le])]
    constructor
    · intro h'; cases h'
    · intro h'; omega

theorem checkedSub_of_le {a b : UInt64} (h : b.toNat ≤ a.toNat) :
    checkedSub a b = some (a - b) := by
  unfold checkedSub
  rw [if_pos (UInt64.le_iff_toNat_le.mpr h)]

theorem u64TryFrom_eq_some {n : ℕ} {c : UInt64} : u64TryFrom n = some c ↔ c.toNat = n := by
  have hc := c.toNat_lt
  unfold u64TryFrom
  by_cases h : n < 2 ^ 64
  · rw [if_pos h, Option.some.injEq, ← UInt64.toNat_inj, UInt64.toNat_ofNat', Nat.mod_eq_of_lt h]
    exact eq_comm
  · rw [if_neg h]
    constructor
    · intro h'; cases h'
    · intro h'; omega

end RustFactory.Lib
