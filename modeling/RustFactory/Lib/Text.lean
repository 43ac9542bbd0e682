import RustFactory.Lib.Digest

/-!
# Text

Strings cut at a separator and stripped of white space.  Both are functions on the characters of a
string; checks made on its UTF-8 bytes reach the characters through `mem_utf8`.
-/

namespace RustFactory.Lib

/-! ## Stripping the ends of a list -/

section Strip

variable {α : Type*} {p : α → Bool}

/-- The list without its longest ends that satisfy `p`. -/
def strip (p : α → Bool) (l : List α) : List α := (l.dropWhile p).rdropWhile p

theorem rdropWhile_append_cons {x : α} (hx : ¬p x) (a b : List α) :
    (a ++ x :: b).rdropWhile p = a ++ x :: b.rdropWhile p := by
  induction b using List.reverseRecOn with
  | nil => rw [List.rdropWhile_concat_neg _ _ _ hx, List.rdropWhile_nil]
  | append_singleton b y ih =>
    rw [← List.cons_append, ← List.append_assoc]
    by_cases hy : p y
    · rw [List.rdropWhile_concat_pos _ _ _ hy, List.rdropWhile_concat_pos _ _ _ hy, ih]
    · rw [List.rdropWhile_concat_neg _ _ _ hy, List.rdropWhile_concat_neg _ _ _ hy,
        List.append_assoc, List.cons_append]

theorem dropWhile_append_cons {x : α} (hx : ¬p x) (a b : List α) :
    (a ++ x :: b).dropWhile p = a.dropWhile p ++ x :: b := by
  induction a with
  | nil => rw [List.nil_append, List.dropWhile_cons_of_neg hx, List.dropWhile_nil, List.nil_append]
  | cons y a ih =>
    rw [List.cons_append]
    by_cases hy : p y
    · rw [List.dropWhile_cons_of_pos hy, List.dropWhile_cons_of_pos hy, ih]
    · rw [List.dropWhile_cons_of_neg hy, List.dropWhile_cons_of_neg hy, List.cons_append]

theorem strip_append_cons {x : α} (hx : ¬p x) (a b : List α) :
    strip p (a ++ x :: b) = a.dropWhile p ++ x :: b.rdropWhile p := by
  unfold strip
  rw [dropWhile_append_cons hx, rdropWhile_append_cons hx]

theorem strip_of_forall {l : List α} (h : ∀ x ∈ l, p x) : strip p l = [] := by
  unfold strip
  rw [List.dropWhile_eq_nil_iff.mpr h, List.rdropWhile_nil]

theorem strip_eq_nil_iff {l : List α} : strip p l = [] ↔ ∀ x ∈ l, p x := by
  refine ⟨fun h x hx => ?_, strip_of_forall⟩
  by_contra hp
  obtain ⟨a, b, rfl⟩ := List.append_of_mem hx
  rw [strip_append_cons hp] at h
  exact absurd h (by simp)

theorem strip_rdropWhile (l : List α) : strip p (l.rdropWhile p) = strip p l := by
  by_cases h : ∀ x ∈ l, p x
  · rw [List.rdropWhile_eq_nil_iff.mpr h, strip_of_forall h, strip_of_forall (by simp)]
  · push Not at h
    obtain ⟨x, hx, hp⟩ := h
    obtain ⟨a, b, rfl⟩ := List.append_of_mem hx
    rw [rdropWhile_append_cons hp, strip_append_cons hp, strip_append_cons hp,
      List.rdropWhile_idempotent]

/-- A right end of elements that are stripped makes no difference. -/
theorem strip_append_of_forall {m : List α} (h : ∀ x ∈ m, p x) (l : List α) :
    strip p (l ++ m) = strip p l := by
  induction m using List.reverseRecOn with
  | nil => rw [List.append_nil]
  | append_singleton m x ih =>
    rw [List.forall_mem_append, List.forall_mem_singleton] at h
    rw [← ih h.1, ← strip_rdropWhile, ← List.append_assoc, List.rdropWhile_concat_pos _ _ _ h.2,
      strip_rdropWhile]

theorem strip_sublist (l : List α) : (strip p l).Sublist l :=
  (List.rdropWhile_prefix p _).sublist.trans (List.dropWhile_sublist p)

theorem strip_eq_self_iff {l : List α} :
    strip p l = l ↔ (∀ x ∈ l.head?, ¬p x) ∧ ∀ x ∈ l.getLast?, ¬p x := by
  unfold strip
  constructor
  · intro h
    have hdrop : l.dropWhile p = l := by
      refine (List.dropWhile_sublist p).eq_of_length_le ?_
      conv_lhs => rw [← h]
      exact (List.rdropWhile_prefix p _).length_le
    rw [hdrop, List.rdropWhile_eq_self_iff] at h
    refine ⟨fun x hx => ?_, fun x hx => ?_⟩
    · cases l with
      | nil => cases hx
      | cons y l =>
        rw [List.head?_cons, Option.mem_some_iff] at hx
        subst hx
        intro hp
        rw [List.dropWhile_cons_of_pos hp] at hdrop
        have := (List.dropWhile_sublist (l := l) p).length_le
        rw [hdrop, List.length_cons] at this
        omega
    · obtain ⟨hne, rfl⟩ := List.mem_getLast?_eq_getLast hx
      exact h hne
  · rintro ⟨hhead, hlast⟩
    have hdrop : l.dropWhile p = l := by
      cases l with
      | nil => rfl
      | cons y l => exact List.dropWhile_cons_of_neg (hhead y rfl)
    rw [hdrop, List.rdropWhile_eq_self_iff]
    exact fun hne => hlast _ (List.getLast?_eq_getLast_of_ne_nil hne)

end Strip

/-! ## Characters and bytes -/

theorem utf8_eq_flatMap (s : String) : utf8 s = s.toList.flatMap String.utf8EncodeChar := by
  conv_lhs => rw [← String.ofList_toList (s := s)]
  exact utf8_ofList _

theorem byteLen_ofList_of_ascii {l : List Char} (h : ∀ c ∈ l, c.toNat < 128) :
    byteLen (String.ofList l) = l.length := by
  unfold byteLen
  rw [utf8_eq_flatMap, String.toList_ofList]
  induction l with
  | nil => rfl
  | cons c l ih =>
    have hc : (String.utf8EncodeChar c).length = 1 := by
      rw [String.length_utf8EncodeChar, Char.utf8Size_eq_one_iff]
      exact Nat.le_of_lt_succ (h c List.mem_cons_self)
    rw [List.flatMap_cons, List.length_append, hc, List.length_cons,
      ih fun c' hc' => h c' (List.mem_cons_of_mem c hc')]
    omega

theorem mem_utf8 {s : String} {b : UInt8} :
    b ∈ utf8 s ↔ ∃ c ∈ s.toList, b ∈ String.utf8EncodeChar c := by
  rw [utf8_eq_flatMap, List.mem_flatMap]

theorem mem_utf8_of_ascii {s : String} {c : Char} (hc : c ∈ s.toList) (hascii : c.toNat < 128) :
    UInt8.ofNat c.toNat ∈ utf8 s := by
  refine mem_utf8.mpr ⟨c, hc, ?_⟩
  rw [utf8EncodeChar_ascii hascii]
  exact List.mem_cons_self

theorem exists_mem_utf8EncodeChar {c : Char} (h : 128 ≤ c.toNat) :
    ∃ b ∈ String.utf8EncodeChar c, 128 ≤ b.toNat := by
  have hval : 128 ≤ c.val.toNat := h
  unfold String.utf8EncodeChar
  dsimp only
  split_ifs with h1 h2 h3
  · omega
  all_goals
    refine ⟨_, List.mem_cons_self, ?_⟩
    rw [UInt8.toNat_ofNat']
    omega

/-- What holds of the bytes of a string, ASCII bytes all of them, holds of its characters. -/
theorem forall_char_of_utf8 {q : UInt8 → Prop} {P : Char → Prop} {s : String}
    (hq : ∀ n : ℕ, n < 256 → q (UInt8.ofNat n) → n < 128 ∧ P (Char.ofNat n))
    (h : ∀ b ∈ utf8 s, q b) : ∀ c ∈ s.toList, P c := by
  intro c hc
  by_cases hascii : c.toNat < 128
  · have hchar := (hq c.toNat (by omega) (h _ (mem_utf8_of_ascii hc hascii))).2
    rwa [Char.ofNat_toNat] at hchar
  · obtain ⟨b, hb, hhigh⟩ := exists_mem_utf8EncodeChar (Nat.not_lt.mp hascii)
    have hbyte := h b (mem_utf8.mpr ⟨c, hc, hb⟩)
    rw [← UInt8.ofNat_toNat (x := b)] at hbyte
    have hlow := (hq b.toNat b.toNat_lt hbyte).1
    omega

theorem utf8_sublist {s t : String} (h : s.toList.Sublist t.toList) :
    (utf8 s).Sublist (utf8 t) := by
  rw [utf8_eq_flatMap, utf8_eq_flatMap]
  exact h.flatMap _

/-! ## Trimming and splitting -/

/-- The string without the white space around it. -/
def trim (s : String) : String := String.ofList (strip isWhitespace s.toList)

/-- The pieces of a string between the occurrences of a separator. -/
def split (sep : Char) (s : String) : List String := (s.toList.splitOn sep).map String.ofList

/-- The text before the first separator and, if there is one, the text after it. -/
def splitn2 (sep : Char) (s : String) : String × Option String :=
  match s.toList.dropWhile (· != sep) with
  | [] => (s, none)
  | _ :: rest => (String.ofList (s.toList.takeWhile (· != sep)), some (String.ofList rest))

theorem toList_trim (s : String) : (trim s).toList = strip isWhitespace s.toList :=
  String.toList_ofList

/-- A string neither starts nor ends with white space. -/
def Unpadded (s : String) : Prop :=
  (∀ c ∈ s.toList.head?, ¬isWhitespace c) ∧ ∀ c ∈ s.toList.getLast?, ¬isWhitespace c

instance (s : String) : Decidable (Unpadded s) := inferInstanceAs (Decidable (_ ∧ _))

theorem trim_eq_self_iff {s : String} : trim s = s ↔ Unpadded s := by
  rw [← String.toList_inj, toList_trim]
  exact strip_eq_self_iff

theorem trim_of_forall {s : String} (h : ∀ c ∈ s.toList, ¬isWhitespace c) : trim s = s :=
  trim_eq_self_iff.mpr
    ⟨fun c hc => h c (List.mem_of_mem_head? hc), fun c hc => h c (List.mem_of_mem_getLast? hc)⟩

example : trim "\t two words \n" = "two words" := by decide +kernel

theorem trim_append_of_forall {t : String} (h : ∀ c ∈ t.toList, isWhitespace c) (s : String) :
    trim (s ++ t) = trim s := by
  unfold trim
  rw [String.toList_append, strip_append_of_forall h]

theorem trim_sublist (s : String) : (utf8 (trim s)).Sublist (utf8 s) := by
  refine utf8_sublist ?_
  rw [toList_trim]
  exact strip_sublist _

theorem intercalate_cons (sep piece : String) (pieces : List String) :
    ∃ rest, sep.intercalate (piece :: pieces) = piece ++ rest := by
  cases pieces with
  | nil => exact ⟨"", by rw [String.intercalate_singleton, String.append_empty]⟩
  | cons next pieces =>
    exact ⟨sep ++ sep.intercalate (next :: pieces), by
      rw [String.intercalate_cons_cons, String.append_assoc]⟩

/-- Pieces of bounded length, each with its separator, bound what they are joined to. -/
theorem byteLen_intercalate_le {sep : String} {pieces : List String} {n : ℕ}
    (h : ∀ piece ∈ pieces, byteLen piece + byteLen sep ≤ n) :
    byteLen (sep.intercalate pieces) ≤ pieces.length * n := by
  induction pieces with
  | nil => exact Nat.zero_le _
  | cons piece pieces ih =>
    rw [List.forall_mem_cons] at h
    have hpieces := ih h.2
    have hpiece := h.1
    rw [List.length_cons, Nat.add_mul, Nat.one_mul]
    by_cases hne : pieces = []
    · subst hne
      rw [String.intercalate_singleton]
      omega
    · rw [String.intercalate_cons_of_ne_nil hne]
      unfold byteLen at hpieces hpiece ⊢
      rw [utf8_append, utf8_append, List.length_append, List.length_append]
      omega

/-- Splitting undoes joining, when no piece holds the separator. -/
theorem split_intercalate {sep : Char} {pieces : List String} (hne : pieces ≠ [])
    (h : ∀ piece ∈ pieces, sep ∉ piece.toList) :
    split sep ((String.singleton sep).intercalate pieces) = pieces := by
  unfold split
  rw [String.toList_intercalate, String.toList_singleton, List.splitOn_intercalate,
    List.map_map]
  · conv_rhs => rw [← List.map_id pieces]
    exact List.map_congr_left fun piece _ => String.ofList_toList
  · intro piece hpiece
    obtain ⟨piece, hmem, rfl⟩ := List.mem_map.mp hpiece
    exact h piece hmem
  · exact fun hnil => hne (List.map_eq_nil_iff.mp hnil)

theorem split_of_not_mem {sep : Char} {s : String} (h : sep ∉ s.toList) : split sep s = [s] := by
  unfold split
  rw [List.splitOn_eq_singleton h, List.map_singleton, String.ofList_toList]

theorem intercalate_split (sep : Char) (s : String) :
    (String.singleton sep).intercalate (split sep s) = s := by
  rw [← String.toList_inj, String.toList_intercalate, String.toList_singleton]
  unfold split
  have hid : String.toList ∘ String.ofList = id := funext fun _ => String.toList_ofList
  rw [List.map_map, hid, List.map_id, List.intercalate_splitOn]

theorem split_intercalate_eq_flatMap {sep : Char} {fields : List String} (hne : fields ≠ []) :
    split sep ((String.singleton sep).intercalate fields) = fields.flatMap (split sep) := by
  induction fields with
  | nil => exact absurd rfl hne
  | cons field fields ih =>
    by_cases hnil : fields = []
    · subst hnil
      rw [String.intercalate_singleton, List.flatMap_singleton]
    · rw [List.flatMap_cons, ← ih hnil, String.intercalate_cons_of_ne_nil hnil]
      unfold split
      rw [String.toList_append, String.toList_append, String.toList_singleton, List.append_assoc,
        List.singleton_append, List.splitOn_append_cons_self, List.map_append]

theorem split_ne_nil (sep : Char) (s : String) : split sep s ≠ [] := by
  unfold split
  rw [ne_eq, List.map_eq_nil_iff]
  exact List.splitOn_ne_nil _ _

theorem eq_of_split_singleton {sep : Char} {s piece : String} (h : split sep s = [piece]) :
    s = piece := by
  rw [← intercalate_split sep s, h, String.intercalate_singleton]

theorem length_le_flatMap_split (sep : Char) (fields : List String) :
    fields.length ≤ (fields.flatMap (split sep)).length := by
  induction fields with
  | nil => exact Nat.zero_le _
  | cons field fields ih =>
    have hpos := List.length_pos_iff.mpr (split_ne_nil sep field)
    rw [List.flatMap_cons, List.length_append, List.length_cons]
    omega

theorem flatMap_split_eq {sep : Char} {fields : List String}
    (h : (fields.flatMap (split sep)).length ≤ fields.length) :
    fields.flatMap (split sep) = fields := by
  induction fields with
  | nil => rfl
  | cons field fields ih =>
    have hpos := List.length_pos_iff.mpr (split_ne_nil sep field)
    have hrest := length_le_flatMap_split sep fields
    rw [List.flatMap_cons, List.length_append, List.length_cons] at h
    obtain ⟨piece, hpiece⟩ := List.length_eq_one_iff.mp (show (split sep field).length = 1 by omega)
    rw [List.flatMap_cons, ih (by omega), hpiece, eq_of_split_singleton hpiece]
    rfl

theorem splitn2_of_mem {sep : Char} {a : String} (h : sep ∉ a.toList) (b : String) :
    splitn2 sep (a ++ String.singleton sep ++ b) = (a, some b) := by
  have hall : ∀ c ∈ a.toList, (c != sep) := by
    intro c hc
    exact bne_iff_ne.mpr fun heq => h (heq ▸ hc)
  unfold splitn2
  rw [String.toList_append, String.toList_append, String.toList_singleton, List.append_assoc,
    List.dropWhile_append_of_pos hall, List.takeWhile_append_of_pos hall]
  simp

end RustFactory.Lib
