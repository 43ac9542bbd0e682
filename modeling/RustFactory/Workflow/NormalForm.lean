import RustFactory.Workflow.Json

/-!
# Workflows: the canonical text is a normal form

On a text that the JSON library reads, the scanner accepts exactly the values without repeated
members.  So the canonical text depends on the value alone, up to the order of members: spellings
that differ in white space, in escapes or in the order of members have one canonical text, and
different values have different ones.
-/

namespace RustFactory.Workflow

open Lib Gateway

variable {codec : JsonCodec} {starved : Except WorkflowError Bytes}

/-! ## Tokens -/

theorem skipWs_blank {blank : Bytes} (h : Blank blank) (rest : Bytes) :
    skipWs (blank ++ rest) = skipWs rest := by
  induction blank with
  | nil => rfl
  | cons byte blank ih =>
    have hspace : isAsciiWhitespace byte := by
      rcases h byte List.mem_cons_self with rfl | rfl | rfl | rfl <;> rfl
    unfold skipWs at ih ⊢
    rw [List.cons_append, List.dropWhile_cons_of_pos hspace]
    exact ih fun b hb => h b (List.mem_cons_of_mem _ hb)

theorem skipWs_cons {byte : UInt8} (h : ¬isAsciiWhitespace byte) (rest : Bytes) :
    skipWs (byte :: rest) = byte :: rest := List.dropWhile_cons_of_neg h

theorem closeString_body {body : Bytes} (h : StringBody body) (rest : Bytes) :
    closeString false (body ++ 34 :: rest) = some (body ++ [34], rest) := by
  induction h with
  | nil => rfl
  | @plain byte body hquote hslash _ ih =>
    rw [List.cons_append, closeString, if_neg Bool.false_ne_true, if_neg (by rwa [beq_iff_eq]),
      if_neg (by rwa [beq_iff_eq]), ih]
    rfl
  | @escape byte body _ ih =>
    have hslash : closeString false (92 :: byte :: (body ++ 34 :: rest)) =
        (closeString true (byte :: (body ++ 34 :: rest))).map
          fun split => (92 :: split.1, split.2) := rfl
    have hescaped : closeString true (byte :: (body ++ 34 :: rest)) =
        (closeString false (body ++ 34 :: rest)).map fun split => (byte :: split.1, split.2) := rfl
    rw [List.cons_append, List.cons_append, hslash, hescaped, ih]
    rfl

theorem scanString_token {body : Bytes} {text : String} (h : StringToken codec body text)
    (rest : Bytes) : scanString codec (body ++ 34 :: rest) = .ok (text, rest) := by
  unfold scanString
  rw [closeString_body h.1]
  simp only [h.2, okOr_some, ok_bind]

/-- The input after a value: its end, or a byte that ends a number or a literal. -/
def Stops (tail : Bytes) : Prop := ∀ byte ∈ tail.head?, endsScalar byte

theorem stops_nil : Stops [] := nofun

theorem stops_cons {byte : UInt8} (h : endsScalar byte) (rest : Bytes) : Stops (byte :: rest) := by
  rintro _ ⟨⟩
  exact h

/-- White space and then a byte that ends a value, or nothing. -/
theorem stops_blank {blank tail : Bytes} (h : Blank blank) (htail : Stops tail) :
    Stops (blank ++ tail) := by
  cases blank with
  | nil => exact htail
  | cons byte blank =>
    refine stops_cons ?_ _
    rcases h byte List.mem_cons_self with rfl | rfl | rfl | rfl <;> rfl

theorem scanScalar_token {token tail : Bytes} (h : ScalarToken token) (htail : Stops tail) :
    scanScalar (token ++ tail) = .ok tail := by
  have hrest : (token ++ tail).dropWhile (fun byte => !endsScalar byte) = tail := by
    rw [List.dropWhile_append_of_pos fun byte hbyte => by
      rw [Bool.eq_false_iff.mpr (h.unbroken byte hbyte)]; rfl]
    cases tail with
    | nil => rfl
    | cons byte tail =>
      have hends := htail byte rfl
      exact List.dropWhile_cons_of_neg (by rw [hends]; exact Bool.false_ne_true)
  obtain ⟨byte, rest, htoken, -⟩ := h.start
  unfold scanScalar
  rw [hrest, if_neg]
  rw [htoken, List.length_append, List.length_cons]
  omega

/-! ## Trees -/

mutual

/-- The fuel that scanning a tree uses up. -/
def Tree.size : Tree → ℕ
  | .scalar _ _ => 1
  | .string _ _ => 1
  | .emptyArray _ => 1
  | .array elements => elements.size + 1
  | .emptyObject _ => 2
  | .object members => members.size + 1

def Elements.size : Elements → ℕ
  | .last _ tree _ => tree.size + 1
  | .cons _ tree _ rest => tree.size + rest.size + 1

def Members.size : Members → ℕ
  | .last _ _ _ _ _ tree _ => tree.size + 1
  | .cons _ _ _ _ _ tree _ rest => tree.size + rest.size + 1

end

mutual

theorem Tree.size_le : (tree : Tree) → tree.WellFormed codec → tree.size ≤ tree.render.length
  | .scalar token _, h => by
    obtain ⟨byte, rest, htoken, -⟩ := h.1.start
    rw [Tree.size, Tree.render, htoken, List.length_cons]
    omega
  | .string _ _, _ => by
    rw [Tree.size, Tree.render, List.length_cons]
    omega
  | .emptyArray _, _ => by
    rw [Tree.size, Tree.render, List.length_cons]
    omega
  | .array elements, h => by
    have hle := elements.size_le h
    rw [Tree.size, Tree.render, List.length_cons]
    omega
  | .emptyObject _, _ => by
    rw [Tree.size, Tree.render, List.length_cons, List.length_append, List.length_singleton]
    omega
  | .object members, h => by
    have hle := members.size_le h
    rw [Tree.size, Tree.render, List.length_cons]
    omega

theorem Elements.size_le :
    (elements : Elements) → elements.WellFormed codec → elements.size ≤ elements.render.length
  | .last _ tree _, h => by
    have hle := tree.size_le h.2.1
    rw [Elements.size, Elements.render]
    simp only [List.length_append, List.length_singleton]
    omega
  | .cons _ tree _ rest, h => by
    have hle := tree.size_le h.1.2.1
    have hrest := rest.size_le h.2
    rw [Elements.size, Elements.render]
    simp only [List.length_append, List.length_cons]
    omega

theorem Members.size_le :
    (members : Members) → members.WellFormed codec → members.size ≤ members.render.length
  | .last _ _ _ _ _ tree _, h => by
    have hle := tree.size_le h.2.2.1
    rw [Members.size, Members.render]
    simp only [List.length_append, List.length_cons, List.length_nil]
    omega
  | .cons _ _ _ _ _ tree _ rest, h => by
    have hle := tree.size_le h.1.2.2.1
    have hrest := rest.size_le h.2
    rw [Members.size, Members.render]
    simp only [List.length_append, List.length_cons]
    omega

end

/-- A value starts with a byte that is neither white space nor the end of an array. -/
theorem Tree.render_start (tree : Tree) (h : tree.WellFormed codec) :
    ∃ byte rest, tree.render = byte :: rest ∧ ¬isAsciiWhitespace byte ∧ byte ≠ 93 := by
  cases tree with
  | scalar token value =>
    obtain ⟨byte, rest, rfl, -⟩ := h.1.start
    have hunbroken := h.1.unbroken byte List.mem_cons_self
    unfold endsScalar at hunbroken
    simp only [Bool.or_eq_true, beq_iff_eq, not_or] at hunbroken
    exact ⟨byte, rest, by rw [Tree.render], hunbroken.2, hunbroken.1.1.2⟩
  | string body text => exact ⟨34, _, by rw [Tree.render], by decide, by decide⟩
  | emptyArray blank => exact ⟨91, _, by rw [Tree.render], by decide, by decide⟩
  | array elements => exact ⟨91, _, by rw [Tree.render], by decide, by decide⟩
  | emptyObject blank => exact ⟨123, _, by rw [Tree.render], by decide, by decide⟩
  | object members => exact ⟨123, _, by rw [Tree.render], by decide, by decide⟩

theorem Elements.render_start (elements : Elements) (h : elements.WellFormed codec) (tail : Bytes) :
    ∃ byte rest, skipWs (elements.render ++ tail) = byte :: rest ∧ byte ≠ 93 := by
  cases elements with
  | last before tree after =>
    obtain ⟨byte, rest, hrender, hspace, hclose⟩ := tree.render_start h.2.1
    rw [Elements.render, List.append_assoc, skipWs_blank h.1, hrender, List.cons_append,
      List.cons_append, skipWs_cons hspace]
    exact ⟨byte, _, rfl, hclose⟩
  | cons before tree after rest =>
    obtain ⟨byte, rest', hrender, hspace, hclose⟩ := tree.render_start h.1.2.1
    rw [Elements.render, List.append_assoc, skipWs_blank h.1.1, hrender, List.cons_append,
      List.cons_append, skipWs_cons hspace]
    exact ⟨byte, _, rfl, hclose⟩

/-! ## The scanner finds every repetition -/

/-- The answer of the scanner on a part of a text, with the input after the part. -/
def verdict (free : Prop) [Decidable free] (tail : Bytes) : Except WorkflowError Bytes :=
  if free then .ok tail else .error .invalidRequest

theorem verdict_bind {free : Prop} [Decidable free] {tail : Bytes}
    {f : Bytes → Except WorkflowError Bytes} {result : Prop} [Decidable result] {after : Bytes}
    (h : f tail = verdict result after) :
    (verdict free tail >>= f) = verdict (free ∧ result) after := by
  unfold verdict
  by_cases hfree : free
  · rw [if_pos hfree, ok_bind, h]
    exact if_congr ⟨fun hresult => ⟨hfree, hresult⟩, fun hboth => hboth.2⟩ rfl rfl
  · rw [if_neg hfree, if_neg fun hboth => hfree hboth.1, error_bind]

/-- The members repeat no name, none of those seen before, and no name inside their values. -/
def Fresh (keys : List String) (pairs : List (String × Json)) : Prop :=
  (pairs.map Prod.fst).Nodup ∧ (∀ pair ∈ pairs, pair.1 ∉ keys) ∧
    ∀ pair ∈ pairs, pair.2.duplicateFree

instance (keys : List String) (pairs : List (String × Json)) : Decidable (Fresh keys pairs) :=
  inferInstanceAs (Decidable (_ ∧ _))

theorem fresh_cons {keys : List String} {name : String} {value : Json}
    {pairs : List (String × Json)} : Fresh keys ((name, value) :: pairs) ↔
      name ∉ keys ∧ value.duplicateFree ∧ Fresh (name :: keys) pairs := by
  unfold Fresh
  rw [List.map_cons, List.nodup_cons, List.forall_mem_cons, List.forall_mem_cons]
  constructor
  · rintro ⟨⟨hname, hnodup⟩, ⟨hkeys, hother⟩, hvalue, hvalues⟩
    refine ⟨hkeys, hvalue, hnodup, fun pair hpair => ?_, hvalues⟩
    rw [List.mem_cons, not_or]
    refine ⟨fun hsame => hname ?_, hother pair hpair⟩
    exact List.mem_map.mpr ⟨pair, hpair, hsame⟩
  · rintro ⟨hkeys, hvalue, hnodup, hother, hvalues⟩
    refine ⟨⟨fun hmem => ?_, hnodup⟩, ⟨hkeys, fun pair hpair => ?_⟩, hvalue, hvalues⟩
    · obtain ⟨pair, hpair, hsame⟩ := List.mem_map.mp hmem
      exact hother pair hpair (hsame ▸ List.mem_cons_self)
    · exact fun hmem => hother pair hpair (List.mem_cons_of_mem _ hmem)

theorem fresh_nil_iff {members : Members} :
    Fresh [] members.pairs ↔ (Json.object members.pairs).duplicateFree := by
  rw [Json.duplicateFree_object]
  unfold Fresh
  constructor
  · rintro ⟨hnodup, -, hvalues⟩
    exact ⟨hnodup, hvalues⟩
  · rintro ⟨hnodup, hvalues⟩
    exact ⟨hnodup, fun _ _ => List.not_mem_nil, hvalues⟩

theorem verdict_congr {free free' : Prop} [Decidable free] [Decidable free'] (h : free ↔ free')
    (tail : Bytes) : verdict free tail = verdict free' tail := if_congr h rfl rfl

/-- What the loop does with a member whose name and colon it has read. -/
theorem scanMembers_member {before body colon : Bytes} {name : String} {fuel : ℕ}
    {keys : List String} {input : Bytes} (hbefore : Blank before)
    (hname : StringToken codec body name) (hcolon : Blank colon) :
    scanMembers codec starved (fuel + 1) keys
        (before ++ 34 :: (body ++ 34 :: (colon ++ 58 :: input))) =
      if name ∈ keys then .error .invalidRequest
      else scanValue codec starved fuel input >>= fun rest =>
        match skipWs rest with
        | [] => .error .invalidRequest
        | byte :: rest =>
          if byte == 44 then scanMembers codec starved fuel (name :: keys) rest
          else if byte == 125 then .ok rest
          else .error .invalidRequest := by
  rw [scanMembers, skipWs_blank hbefore, skipWs_cons (by decide)]
  simp only [show ((34 : UInt8) == 125) = false from rfl,
    show ((34 : UInt8) != 34) = false from rfl, Bool.false_eq_true, if_false,
    scanString_token hname, ok_bind, List.contains_iff_mem]
  by_cases hkey : name ∈ keys
  · rw [if_pos hkey, if_pos hkey]
  · rw [if_neg hkey, if_neg hkey, skipWs_blank hcolon, skipWs_cons (by decide)]
    rfl

mutual

theorem scanValue_render : (tree : Tree) → tree.WellFormed codec →
    ∀ {fuel : ℕ} {before : Bytes} (tail : Bytes), tree.size ≤ fuel → Blank before → Stops tail →
      scanValue codec starved fuel (before ++ (tree.render ++ tail)) =
        verdict (tree.value.duplicateFree) tail
  | .scalar token value, h, fuel, before, tail, hfuel, hbefore, htail => by
    obtain ⟨fuel, rfl⟩ := Nat.exists_eq_succ_of_ne_zero (Nat.ne_of_gt hfuel)
    obtain ⟨byte, rest, htoken, hquote, hbracket, hbrace⟩ := h.1.start
    have hspace : ¬isAsciiWhitespace byte := by
      have hunbroken := h.1.unbroken byte (htoken ▸ List.mem_cons_self)
      unfold endsScalar at hunbroken
      simp only [Bool.or_eq_true, beq_iff_eq, not_or] at hunbroken
      exact hunbroken.2
    have hfree : value.duplicateFree := by
      have hscalar := h.2
      cases value with
      | null => rfl
      | bool b => rfl
      | number literal => rfl
      | string text => rfl
      | array values => cases hscalar
      | object members => cases hscalar
    have hscan := scanScalar_token h.1 htail
    rw [Tree.render, scanValue, skipWs_blank hbefore]
    rw [htoken, List.cons_append] at hscan ⊢
    rw [skipWs_cons hspace]
    simp only [beq_iff_eq, hquote, hbracket, hbrace, if_false, hscan]
    exact (if_pos hfree).symm
  | .string body text, h, fuel, before, tail, hfuel, hbefore, htail => by
    obtain ⟨fuel, rfl⟩ := Nat.exists_eq_succ_of_ne_zero (Nat.ne_of_gt hfuel)
    rw [Tree.render, scanValue, skipWs_blank hbefore, List.cons_append, skipWs_cons (by decide),
      List.append_assoc, List.singleton_append]
    simp only [beq_self_eq_true, if_true, scanString_token h]
    exact (if_pos rfl).symm
  | .emptyArray blank, h, fuel, before, tail, hfuel, hbefore, htail => by
    obtain ⟨fuel, rfl⟩ := Nat.exists_eq_succ_of_ne_zero (Nat.ne_of_gt hfuel)
    rw [Tree.render, scanValue, skipWs_blank hbefore, List.cons_append, skipWs_cons (by decide),
      List.append_assoc, List.singleton_append]
    simp only [skipWs_blank h, skipWs_cons (show ¬isAsciiWhitespace 93 by decide)]
    exact (if_pos rfl).symm
  | .array elements, h, fuel, before, tail, hfuel, hbefore, htail => by
    obtain ⟨fuel, rfl⟩ := Nat.exists_eq_succ_of_ne_zero (Nat.ne_of_gt (Nat.zero_lt_of_lt hfuel))
    obtain ⟨byte, rest, hstart, hclose⟩ := elements.render_start h tail
    have hscan := scanElements_render elements h tail (Nat.le_of_succ_le_succ hfuel)
    rw [Tree.render, scanValue, skipWs_blank hbefore, List.cons_append, skipWs_cons (by decide)]
    simp only [show ((91 : UInt8) == 34) = false from rfl,
      show ((91 : UInt8) == 123) = false from rfl, beq_self_eq_true, Bool.false_eq_true, if_false,
      if_true, hstart, beq_iff_eq, hclose, hscan]
    exact verdict_congr Json.duplicateFree_array.symm tail
  | .emptyObject blank, h, fuel, before, tail, hfuel, hbefore, htail => by
    obtain ⟨fuel, rfl⟩ := Nat.exists_eq_add_of_le' hfuel
    have hscan : scanMembers codec starved (fuel + 1) [] (blank ++ 125 :: tail) = .ok tail := by
      rw [scanMembers, skipWs_blank h, skipWs_cons (by decide)]
      rfl
    rw [Tree.render, Tree.size, scanValue, skipWs_blank hbefore, List.cons_append,
      skipWs_cons (by decide), List.append_assoc, List.singleton_append]
    simp only [show ((123 : UInt8) == 34) = false from rfl, beq_self_eq_true, Bool.false_eq_true,
      if_false, if_true, hscan]
    exact (if_pos rfl).symm
  | .object members, h, fuel, before, tail, hfuel, hbefore, htail => by
    obtain ⟨fuel, rfl⟩ := Nat.exists_eq_succ_of_ne_zero (Nat.ne_of_gt (Nat.zero_lt_of_lt hfuel))
    have hscan := scanMembers_render members h [] tail (Nat.le_of_succ_le_succ hfuel)
    rw [Tree.render, scanValue, skipWs_blank hbefore, List.cons_append, skipWs_cons (by decide)]
    simp only [show ((123 : UInt8) == 34) = false from rfl, beq_self_eq_true, Bool.false_eq_true,
      if_false, if_true, hscan]
    exact verdict_congr fresh_nil_iff tail

theorem scanElements_render : (elements : Elements) → elements.WellFormed codec →
    ∀ {fuel : ℕ} (tail : Bytes), elements.size ≤ fuel →
      scanElements codec starved fuel (elements.render ++ tail) =
        verdict (∀ value ∈ elements.values, value.duplicateFree) tail
  | .last before tree after, h, fuel, tail, hfuel => by
    obtain ⟨fuel, rfl⟩ := Nat.exists_eq_succ_of_ne_zero (Nat.ne_of_gt (Nat.zero_lt_of_lt hfuel))
    have hscan := scanValue_render tree h.2.1 (after ++ 93 :: tail) (Nat.le_of_succ_le_succ hfuel)
      h.1 (stops_blank h.2.2 (stops_cons rfl tail))
    have hclose : skipWs (after ++ 93 :: tail) = 93 :: tail := by
      rw [skipWs_blank h.2.2, skipWs_cons (by decide)]
    rw [Elements.render, scanElements]
    simp only [List.append_assoc, List.singleton_append, hscan]
    refine (verdict_bind (?_ : _ = verdict True tail)).trans (verdict_congr ?_ tail)
    · rw [hclose]
      rfl
    · rw [Elements.values, List.forall_mem_singleton, and_true]
  | .cons before tree after rest, h, fuel, tail, hfuel => by
    obtain ⟨fuel, rfl⟩ := Nat.exists_eq_succ_of_ne_zero (Nat.ne_of_gt (Nat.zero_lt_of_lt hfuel))
    have hsize : tree.size + rest.size ≤ fuel := Nat.le_of_succ_le_succ hfuel
    have hscan := scanValue_render tree h.1.2.1 (after ++ 44 :: (rest.render ++ tail))
      (Nat.le_of_add_right_le hsize) h.1.1 (stops_blank h.1.2.2 (stops_cons rfl _))
    have hcomma : skipWs (after ++ 44 :: (rest.render ++ tail)) = 44 :: (rest.render ++ tail) := by
      rw [skipWs_blank h.1.2.2, skipWs_cons (by decide)]
    have hrest := scanElements_render rest h.2 tail (Nat.le_of_add_left_le hsize)
    rw [Elements.render, scanElements]
    simp only [List.append_assoc, List.cons_append, hscan]
    refine (verdict_bind (?_ : _ = verdict (∀ value ∈ rest.values, value.duplicateFree) tail)).trans
      (verdict_congr ?_ tail)
    · rw [hcomma, ← hrest]
      rfl
    · rw [Elements.values, List.forall_mem_cons]

theorem scanMembers_render : (members : Members) → members.WellFormed codec →
    ∀ {fuel : ℕ} (keys : List String) (tail : Bytes), members.size ≤ fuel →
      scanMembers codec starved fuel keys (members.render ++ tail) =
        verdict (Fresh keys members.pairs) tail
  | .last before body name colon before' tree after, h, fuel, keys, tail, hfuel => by
    obtain ⟨fuel, rfl⟩ := Nat.exists_eq_succ_of_ne_zero (Nat.ne_of_gt (Nat.zero_lt_of_lt hfuel))
    have hscan := scanValue_render tree h.2.2.1 (after ++ 125 :: tail)
      (Nat.le_of_succ_le_succ hfuel) h.2.1 (stops_blank h.2.2.2 (stops_cons rfl tail))
    have hclose : skipWs (after ++ 125 :: tail) = 125 :: tail := by
      rw [skipWs_blank h.2.2.2, skipWs_cons (by decide)]
    rw [Members.render]
    simp only [List.append_assoc, List.cons_append, List.nil_append]
    rw [scanMembers_member h.1.1 h.1.2.1 h.1.2.2, hscan, Members.pairs]
    by_cases hkey : name ∈ keys
    · rw [if_pos hkey]
      exact (if_neg fun hfresh => (fresh_cons.mp hfresh).1 hkey).symm
    · rw [if_neg hkey]
      refine (verdict_bind (?_ : _ = verdict (Fresh (name :: keys) []) tail)).trans
        (verdict_congr ?_ tail)
      · rw [hclose]
        rfl
      · rw [fresh_cons, and_iff_right hkey]
  | .cons before body name colon before' tree after rest, h, fuel, keys, tail, hfuel => by
    obtain ⟨fuel, rfl⟩ := Nat.exists_eq_succ_of_ne_zero (Nat.ne_of_gt (Nat.zero_lt_of_lt hfuel))
    have hsize : tree.size + rest.size ≤ fuel := Nat.le_of_succ_le_succ hfuel
    have hscan := scanValue_render tree h.1.2.2.1 (after ++ 44 :: (rest.render ++ tail))
      (Nat.le_of_add_right_le hsize) h.1.2.1 (stops_blank h.1.2.2.2 (stops_cons rfl _))
    have hcomma : skipWs (after ++ 44 :: (rest.render ++ tail)) = 44 :: (rest.render ++ tail) := by
      rw [skipWs_blank h.1.2.2.2, skipWs_cons (by decide)]
    have hrest := scanMembers_render rest h.2 (name :: keys) tail (Nat.le_of_add_left_le hsize)
    rw [Members.render]
    simp only [List.append_assoc, List.cons_append]
    rw [scanMembers_member h.1.1.1 h.1.1.2.1 h.1.1.2.2, hscan, Members.pairs]
    by_cases hkey : name ∈ keys
    · rw [if_pos hkey]
      exact (if_neg fun hfresh => (fresh_cons.mp hfresh).1 hkey).symm
    · rw [if_neg hkey]
      refine (verdict_bind (?_ : _ = verdict (Fresh (name :: keys) rest.pairs) tail)).trans
        (verdict_congr ?_ tail)
      · rw [hcomma, ← hrest]
        rfl
      · rw [fresh_cons, and_iff_right hkey]

end

/-- On a text that the library reads the scanner does not use up its fuel. -/
theorem scanValue_reads {text : String} {tree : Tree} (h : codec.Reads text tree) :
    ∃ after, skipWs after = [] ∧ ∀ starved fuel, byteLen text < fuel →
      scanValue codec starved fuel (utf8 text) = verdict tree.value.duplicateFree after := by
  obtain ⟨before, after, hbefore, hafter, hspelled⟩ := h.spelled
  have hstops : Stops after := List.append_nil after ▸ stops_blank hafter stops_nil
  have hend : skipWs after = [] := List.append_nil after ▸ skipWs_blank hafter []
  refine ⟨after, hend, fun starved fuel hfuel => ?_⟩
  have hsize : tree.size ≤ fuel := by
    have hle := tree.size_le h.wellFormed
    unfold byteLen at hfuel
    rw [hspelled, List.length_append, List.length_append] at hfuel
    omega
  rw [hspelled, scanValue_render tree h.wellFormed after hsize hbefore hstops]

/-- On a text that the library reads the scanner rejects exactly the repeated members. -/
theorem rejectDuplicateKeys_reads {text : String} {tree : Tree} (h : codec.Reads text tree) :
    rejectDuplicateKeys codec text =
      if tree.value.duplicateFree then .ok () else .error .invalidRequest := by
  obtain ⟨after, hend, hscan⟩ := scanValue_reads h
  unfold rejectDuplicateKeys
  rw [hscan _ _ (Nat.lt_succ_self _)]
  unfold verdict
  by_cases hfree : tree.value.duplicateFree
  · rw [if_pos hfree, if_pos hfree, ok_bind, if_pos hend]
  · rw [if_neg hfree, if_neg hfree, error_bind]

/-! ## The canonical text -/

/-- The text is not longer than the caller and the crate allow. -/
def WithinLimits (text : String) (maxBytes : ℕ) : Prop :=
  byteLen text ≤ maxBytes ∧ byteLen text ≤ maxJsonInputBytes

instance (text : String) (maxBytes : ℕ) : Decidable (WithinLimits text maxBytes) :=
  inferInstanceAs (Decidable (_ ∧ _))

/-- The answer on a text that the library reads. -/
theorem canonicalJson_reads {text : String} {tree : Tree} (h : codec.Reads text tree)
    (maxBytes : ℕ) :
    canonicalJson codec text maxBytes =
      if ¬WithinLimits text maxBytes then .error .limitExceeded
      else if tree.value.duplicateFree then .ok (codec.print tree.value.sortValue)
      else .error .invalidRequest := by
  have hlimits : (maxBytes < byteLen text ∨ maxJsonInputBytes < byteLen text) ↔
      ¬WithinLimits text maxBytes := by
    unfold WithinLimits
    omega
  have hvalue : codec.fromStr text = some tree.value.sortValue := by
    unfold Serde.fromStr
    rw [h.parse_eq, Option.map_some]
  unfold canonicalJson canonicalValue
  rw [if_congr hlimits rfl rfl, hvalue, okOr_some, ok_bind, rejectDuplicateKeys_reads h,
    Json.sortValue_sortValue]
  by_cases hfree : tree.value.duplicateFree
  · rw [if_pos hfree, if_pos hfree, ok_bind]
  · rw [if_neg hfree, if_neg hfree, error_bind]

/-- An accepted text is within the limits, repeats no member, and gives the text of its sorted
value. -/
theorem canonicalJson_eq_ok_iff {text out : String} {tree : Tree} {maxBytes : ℕ}
    (h : codec.Reads text tree) :
    canonicalJson codec text maxBytes = .ok out ↔
      WithinLimits text maxBytes ∧ tree.value.duplicateFree ∧
        codec.print tree.value.sortValue = out := by
  rw [canonicalJson_reads h]
  by_cases hlimits : WithinLimits text maxBytes
  · by_cases hfree : tree.value.duplicateFree
    · rw [if_neg (not_not_intro hlimits), if_pos hfree, Except.ok.injEq]
      exact ⟨fun hout => ⟨hlimits, hfree, hout⟩, fun hall => hall.2.2⟩
    · rw [if_neg (not_not_intro hlimits), if_neg hfree]
      exact ⟨nofun, fun hall => absurd hall.2.1 hfree⟩
  · rw [if_pos hlimits]
    exact ⟨nofun, fun hall => absurd hall.1 hlimits⟩

theorem canonicalJson_print {value : Json} (h : codec.RoundTrips value.sortValue) (maxBytes : ℕ) :
    canonicalJson codec (codec.print value.sortValue) maxBytes =
      if WithinLimits (codec.print value.sortValue) maxBytes then
        .ok (codec.print value.sortValue)
      else .error .limitExceeded := by
  obtain ⟨tree, hreads, hvalue⟩ := h
  rw [canonicalJson_reads hreads, hvalue, Json.sortValue_sortValue,
    if_pos (Json.duplicateFree_sortValue value), ite_not]

/-- A printer whose texts are read back prints different values differently. -/
theorem JsonCodec.RoundTrips.print_injective {value value' : Json} (h : codec.RoundTrips value)
    (h' : codec.RoundTrips value') (hprint : codec.print value = codec.print value') :
    value = value' := by
  obtain ⟨tree, hreads, hvalue⟩ := h
  obtain ⟨tree', hreads', hvalue'⟩ := h'
  have hparse := hreads.parse_eq
  rw [hprint, hreads'.parse_eq] at hparse
  rw [← hvalue, ← hvalue', Option.some.inj hparse]

/-- **The canonical text is a normal form.**  Every reordering and respelling of an accepted text
that fits the limits gives the same canonical text.  The canonical text is its own canonical text,
unless it is longer than the limits allow.  A text of a value that is no reordering never gives
it. -/
theorem canonicalJson_normalForm {codec : JsonCodec} {text out : String} {tree : Tree}
    {maxBytes : ℕ} (hreads : codec.Reads text tree)
    (hok : canonicalJson codec text maxBytes = .ok out) :
    (∀ (text' : String) (tree' : Tree) (maxBytes' : ℕ), codec.Reads text' tree' →
      Json.Reordered tree.value tree'.value → WithinLimits text' maxBytes' →
        canonicalJson codec text' maxBytes' = .ok out) ∧
    (codec.RoundTrips tree.value.sortValue → ∀ maxBytes' : ℕ,
      canonicalJson codec out maxBytes' =
        if WithinLimits out maxBytes' then .ok out else .error .limitExceeded) ∧
    ∀ (text' : String) (tree' : Tree) (maxBytes' : ℕ), codec.Reads text' tree' →
      codec.RoundTrips tree.value.sortValue → codec.RoundTrips tree'.value.sortValue →
      ¬Json.Reordered tree.value tree'.value → canonicalJson codec text' maxBytes' ≠ .ok out := by
  obtain ⟨-, hfree, rfl⟩ := (canonicalJson_eq_ok_iff hreads).mp hok
  refine ⟨?_, canonicalJson_print, ?_⟩
  · intro text' tree' maxBytes' hreads' hreordered hlimits
    obtain ⟨hsorted, hfree'⟩ := hreordered.sortValue_eq hfree
    exact (canonicalJson_eq_ok_iff hreads').mpr ⟨hlimits, hfree', by rw [hsorted]⟩
  · intro text' tree' maxBytes' hreads' htrips htrips' hdiffer hsame
    obtain ⟨-, hfree', hprint⟩ := (canonicalJson_eq_ok_iff hreads').mp hsame
    have hsorted := htrips.print_injective htrips' hprint.symm
    exact hdiffer (Json.reordered_of_sortValue_eq hfree hfree' hsorted)

/-- The library on a few texts. -/
def sampleCodec : JsonCodec where
  parse text :=
    if text = "\x7b\"b\":1,\"a\":2\x7d" then
      some (.object [("b", .number "1"), ("a", .number "2")])
    else if text = " \x7b\"a\": 2,\"\\u0062\":1\x7d" ∨ text = "\x7b\"a\":2,\"b\":1\x7d" then
      some (.object [("a", .number "2"), ("b", .number "1")])
    else if text = "1e2" ∨ text = "100.0" then some (.number "100.0")
    else none
  print
    | .number literal => literal
    | .object [("a", .number "2"), ("b", .number "1")] => "\x7b\"a\":2,\"b\":1\x7d"
    | _ => "null"
  parseString token :=
    if token = utf8 "\"a\"" then some "a"
    else if token = utf8 "\"b\"" ∨ token = utf8 "\"\\u0062\"" then some "b"
    else none

/-- The tree of a spelling of one hundred. -/
def hundred (token : Bytes) : Tree := .scalar token (.number "100.0")

theorem reads_hundred : sampleCodec.Reads "1e2" (hundred [49, 101, 50]) :=
  ⟨⟨⟨by decide +kernel, 49, [101, 50], by decide⟩, rfl⟩, ⟨[], [], nofun, nofun, by decide +kernel⟩, rfl⟩

theorem reads_hundred_printed : sampleCodec.Reads "100.0" (hundred [49, 48, 48, 46, 48]) :=
  ⟨⟨⟨by decide +kernel, 49, [48, 48, 46, 48], by decide⟩, rfl⟩,
    ⟨[], [], nofun, nofun, by decide +kernel⟩, rfl⟩

/-- The canonical text of `1e2` is longer than the text, so that a limit that admits the one may
reject the other. -/
theorem canonicalJson_longer :
    sampleCodec.Reads "1e2" (hundred [49, 101, 50]) ∧
      sampleCodec.RoundTrips (hundred [49, 101, 50]).value ∧
      canonicalJson sampleCodec "1e2" 3 = .ok "100.0" ∧
      canonicalJson sampleCodec "100.0" 3 = .error .limitExceeded := by
  refine ⟨reads_hundred, ⟨_, reads_hundred_printed, rfl⟩, ?_, ?_⟩
  · rw [canonicalJson_reads reads_hundred]
    rfl
  · rw [canonicalJson_reads reads_hundred_printed]
    rfl

/-- The members `b` and `a`, as written and with white space, an escape and the other order. -/
def swapped : Tree :=
  .object (.cons [] [98] "b" [] [] (.scalar [49] (.number "1")) []
    (.last [] [97] "a" [] [] (.scalar [50] (.number "2")) []))

def ordered (blank b : Bytes) : Tree :=
  .object (.cons [] [97] "a" [] blank (.scalar [50] (.number "2")) []
    (.last [] b "b" [] [] (.scalar [49] (.number "1")) []))

theorem stringToken_a : StringToken sampleCodec [97] "a" :=
  ⟨.plain (by decide) (by decide) .nil, by decide +kernel⟩

theorem stringToken_b : StringToken sampleCodec [98] "b" :=
  ⟨.plain (by decide) (by decide) .nil, by decide +kernel⟩

theorem stringToken_b_escaped : StringToken sampleCodec [92, 117, 48, 48, 54, 50] "b" :=
  ⟨.escape 117 (.plain (by decide) (by decide) (.plain (by decide) (by decide)
    (.plain (by decide) (by decide) (.plain (by decide) (by decide) .nil)))), by decide +kernel⟩

theorem scalarToken_digit {byte : UInt8} (h : ¬endsScalar byte) (hquote : byte ≠ 34)
    (hbracket : byte ≠ 91) (hbrace : byte ≠ 123) : ScalarToken [byte] :=
  ⟨fun _ hother => (List.mem_singleton.mp hother).symm ▸ h,
    byte, [], rfl, hquote, hbracket, hbrace⟩

theorem wellFormed_swapped : swapped.WellFormed sampleCodec := by
  have hone : ScalarToken [49] := scalarToken_digit (by decide) (by decide) (by decide) (by decide)
  have htwo : ScalarToken [50] := scalarToken_digit (by decide) (by decide) (by decide) (by decide)
  exact ⟨⟨⟨nofun, stringToken_b, nofun⟩, nofun, ⟨hone, rfl⟩, nofun⟩,
    ⟨nofun, stringToken_a, nofun⟩, nofun, ⟨htwo, rfl⟩, nofun⟩

theorem wellFormed_ordered {blank b : Bytes} (hblank : Blank blank)
    (hb : StringToken sampleCodec b "b") : (ordered blank b).WellFormed sampleCodec := by
  have hone : ScalarToken [49] := scalarToken_digit (by decide) (by decide) (by decide) (by decide)
  have htwo : ScalarToken [50] := scalarToken_digit (by decide) (by decide) (by decide) (by decide)
  exact ⟨⟨⟨nofun, stringToken_a, nofun⟩, hblank, ⟨htwo, rfl⟩, nofun⟩,
    ⟨nofun, hb, nofun⟩, nofun, ⟨hone, rfl⟩, nofun⟩

example : fromUtf8 swapped.render = some "\x7b\"b\":1,\"a\":2\x7d" := by decide +kernel

theorem reads_swapped : sampleCodec.Reads "\x7b\"b\":1,\"a\":2\x7d" swapped :=
  ⟨wellFormed_swapped, ⟨[], [], nofun, nofun, by decide +kernel⟩, rfl⟩

theorem blank_space : Blank [32] := fun _ hbyte => Or.inl (List.mem_singleton.mp hbyte)

theorem reads_ordered : sampleCodec.Reads " \x7b\"a\": 2,\"\\u0062\":1\x7d"
    (ordered [32] [92, 117, 48, 48, 54, 50]) :=
  ⟨wellFormed_ordered blank_space stringToken_b_escaped,
    ⟨[32], [], blank_space, nofun, by decide +kernel⟩, rfl⟩

theorem reads_ordered_printed : sampleCodec.Reads "\x7b\"a\":2,\"b\":1\x7d" (ordered [] [98]) :=
  ⟨wellFormed_ordered nofun stringToken_b, ⟨[], [], nofun, nofun, by decide +kernel⟩, rfl⟩

/-- Two spellings have the canonical text of the ordered members, this text keeps itself, and a
number has another one. -/
theorem canonicalJson_normalForm_sample :
    canonicalJson sampleCodec " \x7b\"a\": 2,\"\\u0062\":1\x7d" 64 =
        .ok "\x7b\"a\":2,\"b\":1\x7d" ∧
      canonicalJson sampleCodec "\x7b\"a\":2,\"b\":1\x7d" 64 = .ok "\x7b\"a\":2,\"b\":1\x7d" ∧
      canonicalJson sampleCodec "1e2" 64 ≠ .ok "\x7b\"a\":2,\"b\":1\x7d" := by
  have hok : canonicalJson sampleCodec "\x7b\"b\":1,\"a\":2\x7d" 64 =
      .ok "\x7b\"a\":2,\"b\":1\x7d" := by
    rw [canonicalJson_reads reads_swapped]
    rfl
  have htrips : sampleCodec.RoundTrips swapped.value.sortValue :=
    ⟨ordered [] [98], reads_ordered_printed, rfl⟩
  have hnumber : sampleCodec.RoundTrips (hundred [49, 101, 50]).value.sortValue :=
    ⟨_, reads_hundred_printed, rfl⟩
  obtain ⟨hrespelled, hagain, hother⟩ := canonicalJson_normalForm reads_swapped hok
  refine ⟨hrespelled _ _ 64 reads_ordered ?_ (by decide +kernel), ?_,
    hother _ _ 64 reads_hundred htrips hnumber nofun⟩
  · exact .object rfl (.cons (.same _) (.cons (.same _) .nil)) (List.Perm.swap _ _ [])
  · rw [hagain htrips 64, if_pos (by decide +kernel)]

end RustFactory.Workflow
