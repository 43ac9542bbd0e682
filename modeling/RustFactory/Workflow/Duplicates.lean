import RustFactory.Workflow.NormalForm

/-!
# Workflows: repeated members

Two crates refuse an object with two members of one name.  The gateway's visitor looks each name up
while the value is built; the scanner of this crate reads the bytes a second time.  On every text
that the JSON library accepts they refuse the same ones: those with a repetition in some object, at
any depth and however the names are spelled.
-/

namespace RustFactory.Gateway.Json

/-! ## Repetitions at any depth -/

/-- A value that stands somewhere in another. -/
inductive Inside (inner : Json) : Json → Prop
  | whole : Inside inner inner
  | element {values : List Json} {value : Json} : value ∈ values → Inside inner value →
      Inside inner (.array values)
  | member {members : List (String × Json)} {member : String × Json} : member ∈ members →
      Inside inner member.2 → Inside inner (.object members)

/-- No object has two members of one name. -/
def NoDuplicates (value : Json) : Prop :=
  ∀ members, Inside (.object members) value → (members.map Prod.fst).Nodup

theorem inside_array {values members} :
    Inside (.object members) (.array values) ↔ ∃ value ∈ values, Inside (.object members) value := by
  constructor
  · rintro (_ | ⟨hmem, hinside⟩)
    exact ⟨_, hmem, hinside⟩
  · rintro ⟨value, hmem, hinside⟩
    exact .element hmem hinside

theorem inside_object {members members' : List (String × Json)} :
    Inside (.object members) (.object members') ↔
      members = members' ∨ ∃ member ∈ members', Inside (.object members) member.2 := by
  constructor
  · rintro (_ | _ | ⟨hmem, hinside⟩)
    · exact .inl rfl
    · exact .inr ⟨_, hmem, hinside⟩
  · rintro (rfl | ⟨member, hmem, hinside⟩)
    · exact .whole
    · exact .member hmem hinside

/-- The check of each object on the way down finds every repetition. -/
theorem duplicateFree_iff (value : Json) : value.duplicateFree ↔ value.NoDuplicates := by
  induction value using induction with
  | null => exact iff_of_true rfl nofun
  | bool value => exact iff_of_true rfl nofun
  | number literal => exact iff_of_true rfl nofun
  | string value => exact iff_of_true rfl nofun
  | array values ih =>
    rw [duplicateFree_array]
    constructor
    · intro h members hinside
      obtain ⟨value, hvalue, hinside⟩ := inside_array.mp hinside
      exact (ih value hvalue).mp (h value hvalue) members hinside
    · intro h value hvalue
      refine (ih value hvalue).mpr fun members hinside => ?_
      exact h members (.element hvalue hinside)
  | object members ih =>
    rw [duplicateFree_object]
    constructor
    · rintro ⟨hnodup, h⟩ members' hinside
      rcases inside_object.mp hinside with rfl | ⟨member, hmember, hinside⟩
      · exact hnodup
      · exact (ih member hmember).mp (h member hmember) members' hinside
    · intro h
      refine ⟨h members .whole, fun member hmember => (ih member hmember).mpr ?_⟩
      intro members' hinside
      exact h members' (.member hmember hinside)

end RustFactory.Gateway.Json

namespace RustFactory.Workflow

open Lib Gateway

/-! ## The scanner -/

/-- The library accepts only texts of JSON values, and reads them as what they spell. -/
def JsonCodec.Faithful (codec : JsonCodec) : Prop :=
  ∀ text value, codec.parse text = some value → ∃ tree, codec.Reads text tree

theorem JsonCodec.Faithful.reads {codec : JsonCodec} (h : codec.Faithful) {text : String}
    {value : Json} (hparse : codec.parse text = some value) :
    ∃ tree : Tree, codec.Reads text tree ∧ tree.value = value := by
  obtain ⟨tree, hreads⟩ := h text value hparse
  exact ⟨tree, hreads, Option.some.inj (hreads.parse_eq.symm.trans hparse)⟩

/-- The scanner accepts exactly the texts without repetitions among those the library accepts, has
one error for the others, and comes to its answer before its fuel runs out. -/
theorem rejectDuplicateKeys_exact (codec : JsonCodec) (hcodec : codec.Faithful) (text : String)
    (value : Json) (haccepted : codec.parse text = some value) :
    (rejectDuplicateKeys codec text = .ok () ↔ value.NoDuplicates) ∧
    (¬value.NoDuplicates → rejectDuplicateKeys codec text = .error .invalidRequest) ∧
    ∀ starved fuel, byteLen text < fuel → scanValue codec starved fuel (utf8 text) =
      scanValue codec (.error .invalidRequest) (byteLen text + 1) (utf8 text) := by
  obtain ⟨tree, hreads, rfl⟩ := hcodec.reads haccepted
  rw [rejectDuplicateKeys_reads hreads, ← Json.duplicateFree_iff]
  refine ⟨?_, fun hfree => if_neg hfree, ?_⟩
  · by_cases hfree : tree.value.duplicateFree
    · rw [if_pos hfree]
      exact iff_of_true rfl hfree
    · rw [if_neg hfree]
      exact iff_of_false nofun hfree
  · obtain ⟨after, -, hscan⟩ := scanValue_reads hreads
    intro starved fuel hfuel
    rw [hscan starved fuel hfuel, hscan _ _ (Nat.lt_succ_self _)]

/-! ## The two canonical texts -/

theorem validateLen_bind_eq {n max : ℕ} {s : String} :
    ((validateLen n max >>= fun _ => .ok s : Except LlmError String) = .ok s ∧ n ≤ max) ∨
      (validateLen n max >>= fun _ => .ok s : Except LlmError String) = .error .limitExceeded := by
  unfold validateLen
  by_cases hlen : max < n
  · rw [if_pos hlen]
    exact .inr rfl
  · rw [if_neg hlen]
    exact .inl ⟨rfl, Nat.not_lt.mp hlen⟩

/-- What the gateway answers on an object whose canonical text is not too long. -/
theorem canonicalObject_eq_ok_iff {serde : Serde} {text out : String}
    (h : serde.canonicalObject text ≠ .error .limitExceeded) :
    serde.canonicalObject text = .ok out ↔
      ∃ members, serde.parse text = some (.object members) ∧
        (Json.object members).duplicateFree ∧ serde.print (Json.object members).sortValue = out := by
  by_cases hobject : ∃ members, serde.parse text = some (.object members) ∧
      (Json.object members).duplicateFree
  · obtain ⟨members, hparse, hfree⟩ := hobject
    rw [Serde.canonicalObject_of_parse hparse hfree] at h ⊢
    rw [(validateLen_bind_eq.resolve_right h).1, Except.ok.injEq]
    constructor
    · intro hout
      exact ⟨members, hparse, hfree, hout⟩
    · rintro ⟨members', hparse', -, hout⟩
      cases Option.some.inj (hparse.symm.trans hparse')
      exact hout
  · rw [Serde.canonicalObject_eq_error fun members hparse hfree =>
      hobject ⟨members, hparse, hfree⟩]
    refine iff_of_false nofun ?_
    rintro ⟨members, hparse, hfree, -⟩
    exact hobject ⟨members, hparse, hfree⟩

theorem fromStr_object_iff {serde : Serde} {text : String} :
    (∃ members, serde.fromStr text = some (.object members)) ↔
      ∃ members, serde.parse text = some (.object members) := by
  unfold Serde.fromStr
  constructor
  · rintro ⟨members, h⟩
    obtain ⟨value, hparse, hsorted⟩ := Option.map_eq_some_iff.mp h
    cases value with
    | object members => exact ⟨members, hparse⟩
    | array values =>
      rw [Json.sortValue_array] at hsorted
      cases hsorted
    | null => cases hsorted
    | bool value => cases hsorted
    | number literal => cases hsorted
    | string value => cases hsorted
  · rintro ⟨members, hparse⟩
    rw [hparse, Option.map_some, Json.sortValue_object]
    exact ⟨_, rfl⟩

theorem withinLimits_of_canonicalJson {codec : JsonCodec} {text : String} {maxBytes : ℕ}
    (h : canonicalJson codec text maxBytes ≠ .error .limitExceeded) :
    WithinLimits text maxBytes := by
  unfold canonicalJson at h
  by_cases hlimits : maxBytes < byteLen text ∨ maxJsonInputBytes < byteLen text
  · exact absurd (if_pos hlimits) h
  · unfold WithinLimits
    omega

/-- Where no limit is exceeded, the gateway accepts a text exactly if this crate does and its value
is an object, both with the same canonical text; and both refuse an object exactly for a
repetition. -/
theorem canonicalObject_iff_canonicalJson (codec : JsonCodec) (hcodec : codec.Faithful)
    (text : String) (maxBytes : ℕ)
    (hobject : codec.canonicalObject text ≠ .error .limitExceeded)
    (hjson : canonicalJson codec text maxBytes ≠ .error .limitExceeded) :
    (∀ out, codec.canonicalObject text = .ok out ↔
      canonicalJson codec text maxBytes = .ok out ∧
        ∃ members, codec.fromStr text = some (.object members)) ∧
    ∀ members, codec.parse text = some (.object members) →
      (codec.canonicalObject text = .error .invalidRequest ↔
        ¬(Json.object members).NoDuplicates) ∧
      (canonicalJson codec text maxBytes = .error .invalidRequest ↔
        ¬(Json.object members).NoDuplicates) := by
  have hlimits := withinLimits_of_canonicalJson hjson
  constructor
  · intro out
    rw [canonicalObject_eq_ok_iff hobject, fromStr_object_iff]
    cases hparse : codec.parse text with
    | none =>
      refine iff_of_false ?_ ?_
      · rintro ⟨members, hsome, -⟩
        cases hsome
      · rintro ⟨-, members, hsome⟩
        cases hsome
    | some value =>
      obtain ⟨tree, hreads, rfl⟩ := hcodec.reads hparse
      rw [canonicalJson_eq_ok_iff hreads, and_iff_right hlimits]
      constructor
      · rintro ⟨members, hsome, hfree, hout⟩
        rw [Option.some.inj hsome]
        exact ⟨⟨hfree, hout⟩, members, rfl⟩
      · rintro ⟨⟨hfree, hout⟩, members, hsome⟩
        rw [Option.some.inj hsome] at hfree hout
        exact ⟨members, hsome, hfree, hout⟩
  · intro members hparse
    obtain ⟨tree, hreads, hvalue⟩ := hcodec.reads hparse
    rw [← Json.duplicateFree_iff, canonicalJson_reads hreads, hvalue,
      if_neg (not_not_intro hlimits)]
    by_cases hfree : (Json.object members).duplicateFree
    · have hok := (canonicalObject_eq_ok_iff hobject).mpr ⟨members, hparse, hfree, rfl⟩
      rw [hok, if_pos hfree]
      exact ⟨iff_of_false nofun (not_not_intro hfree), iff_of_false nofun (not_not_intro hfree)⟩
    · have herror : codec.canonicalObject text = .error .invalidRequest := by
        refine Serde.canonicalObject_eq_error fun members' hparse' => ?_
        cases Option.some.inj (hparse.symm.trans hparse')
        exact hfree
      rw [herror, if_neg hfree]
      exact ⟨iff_of_true rfl hfree, iff_of_true rfl hfree⟩

/-! ## Two spellings of one name -/

def repeatedText : String := "\x7b\"b\":\x7b\"a\":1,\"\\u0061\":2\x7d\x7d"

def singleText : String := "\x7b \"b\":\x7b\"\\u0061\":1\x7d\x7d"

/-- The library on an object that spells a name in two ways, and on one that does not. -/
def respellingCodec : JsonCodec where
  parse text :=
    if text = repeatedText then
      some (.object [("b", .object [("a", .number "1"), ("a", .number "2")])])
    else if text = singleText then some (.object [("b", .object [("a", .number "1")])])
    else none
  print
    | .object [("b", .object [("a", .number "1")])] => "\x7b\"b\":\x7b\"a\":1\x7d\x7d"
    | _ => "null"
  parseString token :=
    if token = utf8 "\"a\"" ∨ token = utf8 "\"\\u0061\"" then some "a"
    else if token = utf8 "\"b\"" then some "b"
    else none

def escapedA : Bytes := [92, 117, 48, 48, 54, 49]

def repeatedTree : Tree :=
  .object (.last [] [98] "b" [] [] (.object (.cons [] [97] "a" [] []
    (.scalar [49] (.number "1")) [] (.last [] escapedA "a" [] []
      (.scalar [50] (.number "2")) []))) [])

def singleTree : Tree :=
  .object (.last [32] [98] "b" [] [] (.object (.last [] escapedA "a" [] []
    (.scalar [49] (.number "1")) [])) [])

example : escapedA.length = 6 := by decide +kernel

theorem respellingCodec_faithful : respellingCodec.Faithful := by
  have ha : StringToken respellingCodec [97] "a" :=
    ⟨.plain (by decide) (by decide) .nil, by decide +kernel⟩
  have hb : StringToken respellingCodec [98] "b" :=
    ⟨.plain (by decide) (by decide) .nil, by decide +kernel⟩
  have hescaped : StringToken respellingCodec escapedA "a" :=
    ⟨.escape 117 (.plain (by decide) (by decide) (.plain (by decide) (by decide)
      (.plain (by decide) (by decide) (.plain (by decide) (by decide) .nil)))), by decide +kernel⟩
  have hone : ScalarToken [49] := scalarToken_digit (by decide) (by decide) (by decide) (by decide)
  have htwo : ScalarToken [50] := scalarToken_digit (by decide) (by decide) (by decide) (by decide)
  intro text value hparse
  by_cases hrepeated : text = repeatedText
  · subst hrepeated
    refine ⟨repeatedTree, ?_, ⟨[], [], nofun, nofun, by decide +kernel⟩, rfl⟩
    exact ⟨⟨nofun, hb, nofun⟩, nofun, ⟨⟨⟨nofun, ha, nofun⟩, nofun, ⟨hone, rfl⟩, nofun⟩,
      ⟨nofun, hescaped, nofun⟩, nofun, ⟨htwo, rfl⟩, nofun⟩, nofun⟩
  · by_cases hsingle : text = singleText
    · subst hsingle
      refine ⟨singleTree, ?_, ⟨[], [], nofun, nofun, by decide +kernel⟩, rfl⟩
      exact ⟨⟨blank_space, hb, nofun⟩, nofun,
        ⟨⟨nofun, hescaped, nofun⟩, nofun, ⟨hone, rfl⟩, nofun⟩, nofun⟩
    · have hnone : respellingCodec.parse text = none :=
        (if_neg hrepeated).trans (if_neg hsingle)
      rw [hnone] at hparse
      cases hparse

theorem rejectDuplicateKeys_exact_sample :
    rejectDuplicateKeys respellingCodec singleText = .ok () ∧
      rejectDuplicateKeys respellingCodec repeatedText = .error .invalidRequest := by
  obtain ⟨hiff, -, -⟩ := rejectDuplicateKeys_exact respellingCodec respellingCodec_faithful
    singleText _ rfl
  obtain ⟨-, herror, -⟩ := rejectDuplicateKeys_exact respellingCodec respellingCodec_faithful
    repeatedText _ rfl
  refine ⟨hiff.mpr ((Json.duplicateFree_iff _).mp (by decide +kernel)), herror ?_⟩
  rw [← Json.duplicateFree_iff]
  decide +kernel

theorem canonicalObject_iff_canonicalJson_sample :
    respellingCodec.canonicalObject singleText = .ok "\x7b\"b\":\x7b\"a\":1\x7d\x7d" ∧
      canonicalJson respellingCodec singleText 64 = .ok "\x7b\"b\":\x7b\"a\":1\x7d\x7d" ∧
      respellingCodec.canonicalObject repeatedText = .error .invalidRequest ∧
      canonicalJson respellingCodec repeatedText 64 = .error .invalidRequest := by
  have hsingle : respellingCodec.canonicalObject singleText =
      .ok "\x7b\"b\":\x7b\"a\":1\x7d\x7d" := by decide +kernel
  have hrepeated : respellingCodec.canonicalObject repeatedText = .error .invalidRequest := by
    decide +kernel
  have hmembers : respellingCodec.parse repeatedText =
    some (.object [("b", .object [("a", .number "1"), ("a", .number "2")])]) := rfl
  obtain ⟨hiff, -⟩ := canonicalObject_iff_canonicalJson respellingCodec respellingCodec_faithful
    singleText 64 (by rw [hsingle]; nofun) (by decide +kernel)
  obtain ⟨-, hrefused⟩ := canonicalObject_iff_canonicalJson respellingCodec
    respellingCodec_faithful repeatedText 64 (by rw [hrepeated]; nofun) (by decide +kernel)
  obtain ⟨hobject, hjson⟩ := hrefused _ hmembers
  exact ⟨hsingle, ((hiff _).mp hsingle).1, hrepeated, hjson.mpr (hobject.mp hrepeated)⟩

end RustFactory.Workflow
