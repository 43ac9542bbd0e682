import RustFactory.Lib.Toml

/-!
# Debug texts

The literal that Rust's `{:?}` writes for a string, and what a reader of TOML makes of it.  The two
grammars share the short escapes; an escape by number has braces in the one and a fixed number of
digits in the other.
-/

namespace RustFactory.Lib

/-- The Unicode tables of Rust's standard library. -/
structure UnicodeTables where
  isGraphemeExtended : Char → Bool
  isPrintable : Char → Bool
  notExtended_ascii : ∀ c, c.toNat < 128 → isGraphemeExtended c = false
  isPrintable_ascii : ∀ c, c.toNat < 128 → isPrintable c = (32 ≤ c.toNat && c.toNat ≠ 127)

namespace UnicodeTables

variable (tables : UnicodeTables)

/-- The escape of a character by number. -/
def escapeUnicode (c : Char) : List Char :=
  '\\' :: 'u' :: '\x7b' :: Nat.toDigits 16 c.toNat ++ ['\x7d']

/-- A character inside the literal. -/
def escapeDebug (c : Char) : List Char :=
  if c = Char.ofNat 0 then ['\\', '0']
  else if c = '\t' then ['\\', 't']
  else if c = '\r' then ['\\', 'r']
  else if c = '\n' then ['\\', 'n']
  else if c = '\\' then ['\\', '\\']
  else if c = '"' then ['\\', '"']
  else if tables.isGraphemeExtended c then escapeUnicode c
  else if tables.isPrintable c then [c]
  else escapeUnicode c

/-- The debug text of a string. -/
def debug (s : String) : String :=
  "\"" ++ String.ofList (s.toList.flatMap tables.escapeDebug) ++ "\""

/-- The characters whose escapes, if any, TOML has as well. -/
def Shared (c : Char) : Prop :=
  c = '\t' ∨ c = '\n' ∨ c = '\r' ∨ tables.isPrintable c ∧ ¬tables.isGraphemeExtended c

instance (c : Char) : Decidable (tables.Shared c) := inferInstanceAs (Decidable (_ ∨ _))

variable {tables}

theorem isUnescaped_of_isPrintable {c : Char} (h : tables.isPrintable c) : Toml.isUnescaped c := by
  unfold Toml.isUnescaped
  rcases Nat.lt_or_ge c.toNat 128 with hascii | hwide
  · rw [tables.isPrintable_ascii c hascii] at h
    rw [h, Bool.or_true]
  · simp only [Bool.or_eq_true, Bool.and_eq_true, decide_eq_true_eq, ne_eq]
    omega

theorem basicString_escapeUnicode (c : Char) (rest : List Char) :
    Toml.basicString .between (escapeUnicode c ++ rest) = none := rfl

/-- A reader of TOML gets a shared character back. -/
theorem basicString_escapeDebug {c : Char} (h : tables.Shared c) (rest : List Char) :
    Toml.basicString .between (tables.escapeDebug c ++ rest) =
      (Toml.basicString .between rest).map fun (value, rest) => (c :: value, rest) := by
  unfold escapeDebug
  split_ifs with hnul htab hreturn hline hslash hquote hextended hprintable
  · subst hnul
    have hnot := tables.isPrintable_ascii (Char.ofNat 0) (by decide)
    rcases h with h | h | h | h
    · cases h
    · cases h
    · cases h
    · rw [hnot] at h
      exact absurd h.1 (by decide)
  · rw [htab]
    exact Toml.basicString_escaped rfl rest
  · rw [hreturn]
    exact Toml.basicString_escaped rfl rest
  · rw [hline]
    exact Toml.basicString_escaped rfl rest
  · rw [hslash]
    exact Toml.basicString_escaped rfl rest
  · rw [hquote]
    exact Toml.basicString_escaped rfl rest
  · rcases h with h | h | h | h
    · exact absurd h htab
    · exact absurd h hline
    · exact absurd h hreturn
    · exact absurd hextended h.2
  · exact Toml.basicString_unescaped hquote hslash (isUnescaped_of_isPrintable hprintable) rest
  · rcases h with h | h | h | h
    · exact absurd h htab
    · exact absurd h hline
    · exact absurd h hreturn
    · exact absurd h.1 hprintable

theorem basicString_escapeDebug_of_not {c : Char} (h : ¬tables.Shared c) (rest : List Char) :
    Toml.basicString .between (tables.escapeDebug c ++ rest) = none := by
  unfold Shared at h
  push Not at h
  obtain ⟨htab, hline, hreturn, hprintable⟩ := h
  have hascii : ∀ d : Char, d.toNat < 128 → 32 ≤ d.toNat ∧ d.toNat ≠ 127 → c ≠ d := by
    rintro d hd hvisible rfl
    have hextended := hprintable (by
      rw [tables.isPrintable_ascii c hd, Bool.and_eq_true, decide_eq_true_eq, decide_eq_true_eq]
      exact hvisible)
    rw [tables.notExtended_ascii c hd] at hextended
    cases hextended
  unfold escapeDebug
  rw [if_neg htab, if_neg hreturn, if_neg hline, if_neg (hascii '\\' (by decide) (by decide)),
    if_neg (hascii '"' (by decide) (by decide))]
  split_ifs with hnul hextended hshown
  · rfl
  · exact basicString_escapeUnicode c rest
  · exact absurd (hprintable hshown) hextended
  · exact basicString_escapeUnicode c rest

/-- The body of a literal is read back if its characters are shared, and refused otherwise. -/
theorem basicString_flatMap (text rest : List Char) :
    Toml.basicString .between (text.flatMap tables.escapeDebug ++ '"' :: rest) =
      if text.all fun c => tables.Shared c then some (text, rest) else none := by
  induction text with
  | nil => rfl
  | cons c text ih =>
    rw [List.flatMap_cons, List.append_assoc, List.all_cons]
    by_cases hc : tables.Shared c
    · rw [basicString_escapeDebug hc, ih, decide_eq_true hc, Bool.true_and]
      split
      · rfl
      · rfl
    · rw [basicString_escapeDebug_of_not hc, decide_eq_false hc, Bool.false_and]
      rfl

theorem toList_debug (s : String) :
    (tables.debug s).toList = '"' :: (s.toList.flatMap tables.escapeDebug ++ ['"']) := by
  have hquote : "\"".toList = ['"'] := rfl
  unfold debug
  rw [String.toList_append, String.toList_append, hquote, String.toList_ofList]
  rfl

theorem newline_notMem_toDigits (n : ℕ) : '\n' ∉ Nat.toDigits 16 n := by
  have hall : ∀ d : Fin 16, '\n' ≠ Nat.digitChar d := by decide
  induction n using Nat.strong_induction_on with
  | _ n ih =>
    rw [Nat.toDigits_eq_if (by decide)]
    split_ifs with hsmall
    · rw [List.mem_singleton]
      exact hall ⟨n, hsmall⟩
    · rw [List.mem_append, List.mem_singleton, not_or]
      exact ⟨ih (n / 16) (by omega), hall ⟨n % 16, Nat.mod_lt _ (by decide)⟩⟩

theorem newline_notMem_debug (s : String) : '\n' ∉ (tables.debug s).toList := by
  have hescape : ∀ c : Char, '\n' ∉ tables.escapeDebug c := by
    intro c
    have hunicode : '\n' ∉ escapeUnicode c := by
      unfold escapeUnicode
      simp only [List.cons_append, List.mem_cons, List.mem_append, List.not_mem_nil, or_false]
      rintro (h | h | h | h | h)
      · cases h
      · cases h
      · cases h
      · exact newline_notMem_toDigits _ h
      · cases h
    unfold escapeDebug
    split_ifs with hnul htab hreturn hline
    · decide
    · decide
    · decide
    · decide
    · decide
    · decide
    · exact hunicode
    · rw [List.mem_singleton]
      exact fun h => hline h.symm
    · exact hunicode
  rw [toList_debug, List.mem_cons, List.mem_append, List.mem_flatMap, List.mem_singleton]
  rintro (h | ⟨c, -, h⟩ | h)
  · cases h
  · exact hescape c h
  · cases h

/-- All characters have the same escapes in Rust and in TOML. -/
def SharedText (tables : UnicodeTables) (s : String) : Bool :=
  s.toList.all fun c => tables.Shared c

/-- A line with a debug text is read as its string, or not at all. -/
theorem expressions_debug {name : String} (hname : Toml.isBareKey name) (s : String) :
    Toml.expressions (Toml.line name (tables.debug s).toList) =
      if tables.SharedText s then some [.pair [name] (.string s)] else none := by
  rw [Toml.expressions_line hname (newline_notMem_debug s), Toml.length_line, toList_debug]
  show (Option.bind ((Toml.basicString .between (s.toList.flatMap tables.escapeDebug ++ ['"'])).map
    _) _).map _ = _
  rw [basicString_flatMap]
  unfold SharedText
  split
  · show some [Toml.Expression.pair [name] (.string (String.ofList s.toList))] = _
    rw [String.ofList_toList]
  · rfl

end UnicodeTables

end RustFactory.Lib
