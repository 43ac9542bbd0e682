import RustFactory.Lib.Bytes

/-!
# Digests

A hash function with 32-byte digests, and the lowercase hexadecimal text of bytes.  Nothing is
assumed of the hash but the length; where a result needs freedom from collisions it says so for
the inputs it is about.
-/

namespace RustFactory.Lib

/-- A hash function with 32-byte digests. -/
structure Sha256 where
  digest : Bytes → Bytes
  length_digest : ∀ input, (digest input).length = 32

/-- The lowercase hexadecimal digit of a number below 16. -/
def hexDigit (n : UInt8) : Char :=
  if n < 10 then Char.ofNat (48 + n.toNat) else Char.ofNat (87 + n.toNat)

/-- The hexadecimal digits of bytes, high digit first. -/
def hexChars (bytes : Bytes) : List Char :=
  bytes.flatMap fun b => [hexDigit (b / 16), hexDigit (b % 16)]

def Sha256.hexDigest (h : Sha256) (input : Bytes) : String :=
  String.ofList (hexChars (h.digest input))

/-- A hash function with the digests of a table, and zeros elsewhere. -/
def Sha256.ofTable (table : List (Bytes × Bytes))
    (h : ∀ entry ∈ table, entry.2.length = 32) : Sha256 where
  digest input :=
    match table.find? fun entry => entry.1 == input with
    | some entry => entry.2
    | none => List.replicate 32 0
  length_digest input := by
    cases hfind : table.find? fun entry => entry.1 == input with
    | some entry => exact h entry (List.mem_of_find?_eq_some hfind)
    | none => exact List.length_replicate ..

theorem length_hexChars (bytes : Bytes) : (hexChars bytes).length = 2 * bytes.length := by
  unfold hexChars
  induction bytes with
  | nil => rfl
  | cons b bytes ih =>
    simp only [List.flatMap_cons, List.length_append, List.length_cons, List.length_nil, ih]
    omega

/-- The digits and the letters from `a` to `f`. -/
def isHexChar (c : Char) : Prop := 48 ≤ c.toNat ∧ c.toNat ≤ 57 ∨ 97 ≤ c.toNat ∧ c.toNat ≤ 102

instance (c : Char) : Decidable (isHexChar c) := inferInstanceAs (Decidable (_ ∨ _))

theorem isHexChar_hexDigit {n : UInt8} (h : n < 16) : isHexChar (hexDigit n) := by
  have hall : ∀ n : Fin 16, isHexChar (hexDigit (UInt8.ofNat n)) := by decide
  have hlt : n.toNat < 16 := UInt8.lt_iff_toNat_lt.mp h
  have := hall ⟨n.toNat, hlt⟩
  rwa [show UInt8.ofNat (⟨n.toNat, hlt⟩ : Fin 16) = n from UInt8.ofNat_toNat] at this

theorem highDigit_lt (b : UInt8) : b / 16 < 16 := by
  rw [UInt8.lt_iff_toNat_lt, UInt8.toNat_div]
  have := b.toNat_lt
  show b.toNat / 16 < 16
  omega

theorem lowDigit_lt (b : UInt8) : b % 16 < 16 := by
  rw [UInt8.lt_iff_toNat_lt, UInt8.toNat_mod]
  exact Nat.mod_lt _ (by decide)

theorem isHexChar_of_mem_hexChars {bytes : Bytes} {c : Char} (h : c ∈ hexChars bytes) :
    isHexChar c := by
  unfold hexChars at h
  obtain ⟨b, -, hc⟩ := List.mem_flatMap.mp h
  rcases List.mem_cons.mp hc with rfl | hc
  · exact isHexChar_hexDigit (highDigit_lt b)
  · rw [List.mem_singleton.mp hc]
    exact isHexChar_hexDigit (lowDigit_lt b)

theorem hexDigit_inj {m n : UInt8} (hm : m < 16) (hn : n < 16) (h : hexDigit m = hexDigit n) :
    m = n := by
  have hall : ∀ m n : Fin 16, hexDigit (UInt8.ofNat m) = hexDigit (UInt8.ofNat n) → m = n := by
    decide
  have hm' : m.toNat < 16 := UInt8.lt_iff_toNat_lt.mp hm
  have hn' : n.toNat < 16 := UInt8.lt_iff_toNat_lt.mp hn
  have := hall ⟨m.toNat, hm'⟩ ⟨n.toNat, hn'⟩
  rw [show UInt8.ofNat (⟨m.toNat, hm'⟩ : Fin 16) = m from UInt8.ofNat_toNat,
    show UInt8.ofNat (⟨n.toNat, hn'⟩ : Fin 16) = n from UInt8.ofNat_toNat] at this
  exact UInt8.toNat_inj.mp (Fin.mk.inj (this h))

theorem hexChars_injective : Function.Injective hexChars := by
  intro as bs h
  unfold hexChars at h
  induction as generalizing bs with
  | nil =>
    cases bs with
    | nil => rfl
    | cons b bs => cases h
  | cons a as ih =>
    cases bs with
    | nil => cases h
    | cons b bs =>
      simp only [List.flatMap_cons, List.cons_append, List.nil_append, List.cons.injEq] at h
      obtain ⟨hhigh, hlow, h⟩ := h
      have hdiv := congrArg UInt8.toNat (hexDigit_inj (highDigit_lt a) (highDigit_lt b) hhigh)
      have hmod := congrArg UInt8.toNat (hexDigit_inj (lowDigit_lt a) (lowDigit_lt b) hlow)
      rw [UInt8.toNat_div, UInt8.toNat_div] at hdiv
      rw [UInt8.toNat_mod, UInt8.toNat_mod] at hmod
      simp only [UInt8.reduceToNat] at hdiv hmod
      have hab : a = b := UInt8.toNat_inj.mp (by omega)
      rw [hab, ih h]

theorem Sha256.hexDigest_eq_iff {h : Sha256} {x y : Bytes} :
    h.hexDigest x = h.hexDigest y ↔ h.digest x = h.digest y := by
  unfold Sha256.hexDigest
  rw [String.ofList_inj, hexChars_injective.eq_iff]

/-! ## The bytes of such texts -/

theorem utf8_append (s t : String) : utf8 (s ++ t) = utf8 s ++ utf8 t := by
  unfold utf8
  rw [String.toByteArray_append, ByteArray.data_append, Array.toList_append]

theorem utf8EncodeChar_ascii {c : Char} (h : c.toNat < 128) :
    String.utf8EncodeChar c = [UInt8.ofNat c.toNat] := by
  rw [String.utf8EncodeChar_eq_singleton (Char.utf8Size_eq_one_iff.mpr ?_)]
  · rfl
  · rw [UInt32.le_iff_toNat_le]
    exact Nat.le_of_lt_succ h

theorem utf8_ofList (cs : List Char) :
    utf8 (String.ofList cs) = cs.flatMap String.utf8EncodeChar := by
  unfold utf8
  rw [String.toByteArray_ofList]
  unfold List.utf8Encode
  rw [List.data_toByteArray, List.toList_toArray]

theorem utf8_ofList_hex {cs : List Char} (h : ∀ c ∈ cs, isHexChar c) :
    utf8 (String.ofList cs) = cs.map fun c => UInt8.ofNat c.toNat := by
  rw [utf8_ofList]
  induction cs with
  | nil => rfl
  | cons c cs ih =>
    have hascii : c.toNat < 128 := by
      have := h c List.mem_cons_self
      unfold isHexChar at this
      omega
    rw [List.flatMap_cons, List.map_cons, utf8EncodeChar_ascii hascii,
      ih fun c hc => h c (List.mem_cons_of_mem _ hc)]
    rfl

theorem utf8_hexDigest (h : Sha256) (input : Bytes) :
    utf8 (h.hexDigest input) = (hexChars (h.digest input)).map fun c => UInt8.ofNat c.toNat :=
  utf8_ofList_hex fun _ hc => isHexChar_of_mem_hexChars hc

theorem byteLen_hexDigest (h : Sha256) (input : Bytes) : byteLen (h.hexDigest input) = 64 := by
  unfold byteLen
  rw [utf8_hexDigest, List.length_map, length_hexChars, h.length_digest]

/-- The bytes of a digest are digits and the letters from `a` to `f`. -/
theorem lowercaseHex_of_mem_hexDigest {h : Sha256} {input : Bytes} {b : UInt8}
    (hb : b ∈ utf8 (h.hexDigest input)) : isAsciiDigit b || (97 ≤ b && b ≤ 102) := by
  rw [utf8_hexDigest] at hb
  obtain ⟨c, hc, rfl⟩ := List.mem_map.mp hb
  have hhex := isHexChar_of_mem_hexChars hc
  have hall : ∀ n : Fin 128, isHexChar (Char.ofNat n) →
      isAsciiDigit (UInt8.ofNat n) || (97 ≤ UInt8.ofNat n && UInt8.ofNat n ≤ 102) := by
    decide +kernel
  have hlt : c.toNat < 128 := by
    unfold isHexChar at hhex
    omega
  exact hall ⟨c.toNat, hlt⟩ (by rwa [Char.ofNat_toNat])

end RustFactory.Lib
