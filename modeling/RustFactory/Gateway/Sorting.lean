import RustFactory.Gateway.Model

/-!
# JSON values up to the order of members

Sorting the members of every object picks one value out of those that differ in the order of
members only.  On values without repeated members two have the same sorted form exactly if they are
reorderings of each other.
-/

namespace RustFactory.Gateway

open Lib

namespace Json

/-! ## Induction over a value -/

theorem induction {P : Json → Prop} (null : P .null) (bool : ∀ value, P (.bool value))
    (number : ∀ literal, P (.number literal)) (string : ∀ value, P (.string value))
    (array : ∀ values, (∀ value ∈ values, P value) → P (.array values))
    (object : ∀ members, (∀ member ∈ members, P member.2) → P (.object members)) :
    ∀ value, P value :=
  @Json.rec P (fun values => ∀ value ∈ values, P value)
    (fun members => ∀ member ∈ members, P member.2) (fun member => P member.2)
    null bool number string array object nofun
    (fun _ _ hhead htail => List.forall_mem_cons.mpr ⟨hhead, htail⟩) nofun
    (fun _ _ hhead htail => List.forall_mem_cons.mpr ⟨hhead, htail⟩) (fun _ _ h => h)

/-- A member with its value sorted. -/
def sortMember (member : String × Json) : String × Json := (member.1, member.2.sortValue)

theorem sortValues_eq_map (values : List Json) : sortValues values = values.map sortValue := by
  induction values with
  | nil => rw [sortValues, List.map_nil]
  | cons value values ih => rw [sortValues, List.map_cons, ih]

theorem sortMembers_eq_map (members : List (String × Json)) :
    sortMembers members = members.map sortMember := by
  induction members with
  | nil => rw [sortMembers, List.map_nil]
  | cons member members ih =>
    obtain ⟨key, value⟩ := member
    rw [sortMembers, List.map_cons, ih]
    rfl

theorem allDuplicateFree_iff {values : List Json} :
    allDuplicateFree values ↔ ∀ value ∈ values, value.duplicateFree := by
  induction values with
  | nil => exact iff_of_true (by rw [allDuplicateFree]) nofun
  | cons value values ih =>
    rw [allDuplicateFree, Bool.and_eq_true, ih, List.forall_mem_cons]

theorem membersDuplicateFree_iff {members : List (String × Json)} :
    membersDuplicateFree members ↔ ∀ member ∈ members, member.2.duplicateFree := by
  induction members with
  | nil => exact iff_of_true (by rw [membersDuplicateFree]) nofun
  | cons member members ih =>
    obtain ⟨key, value⟩ := member
    rw [membersDuplicateFree, Bool.and_eq_true, ih, List.forall_mem_cons]

theorem duplicateFree_array {values : List Json} :
    (Json.array values).duplicateFree ↔ ∀ value ∈ values, value.duplicateFree := by
  rw [duplicateFree, allDuplicateFree_iff]

theorem duplicateFree_object {members : List (String × Json)} :
    (Json.object members).duplicateFree ↔
      (members.map Prod.fst).Nodup ∧ ∀ member ∈ members, member.2.duplicateFree := by
  rw [duplicateFree, Bool.and_eq_true, decide_eq_true_eq, membersDuplicateFree_iff]

/-! ## Sorting -/

/-- The ordered map of the members, a later one in the place of an earlier one of its name. -/
def memberMap (members : List (String × Json)) : BTreeMap String Json :=
  (members.map sortMember).foldl (fun sorted member => sorted.insert member.1 member.2) ∅

theorem sortValue_array (values : List Json) :
    (Json.array values).sortValue = .array (values.map sortValue) := by
  rw [sortValue, sortValues_eq_map]

theorem sortValue_object (members : List (String × Json)) :
    (Json.object members).sortValue = .object (memberMap members).toList := by
  rw [sortValue, sortMembers_eq_map]
  rfl

theorem memberMap_eq_ofList (members : List (String × Json)) :
    memberMap members = Std.ExtTreeMap.ofList (members.map sortMember) compare :=
  Std.ExtTreeMap.ofList_eq_foldl.symm

theorem pairwise_sortMember {members : List (String × Json)} (h : (members.map Prod.fst).Nodup) :
    (members.map sortMember).Pairwise fun a b => a.1 ≠ b.1 := by
  rw [List.pairwise_map]
  exact List.pairwise_map.mp h

theorem mem_memberMap {members : List (String × Json)} (h : (members.map Prod.fst).Nodup)
    {entry : String × Json} :
    entry ∈ (memberMap members).toList ↔ entry ∈ members.map sortMember := by
  rw [BTreeMap.mem_toList, memberMap_eq_ofList, BTreeMap.getElem?_ofList (pairwise_sortMember h)]

theorem mem_of_memberMap {members : List (String × Json)} {entry : String × Json}
    (h : entry ∈ (memberMap members).toList) : entry ∈ members.map sortMember := by
  have hfrom : ∀ (entries : List (String × Json)) (m : BTreeMap String Json),
      entry ∈ (entries.foldl (fun sorted e => sorted.insert e.1 e.2) m).toList →
        entry ∈ entries ∨ entry ∈ m.toList := by
    intro entries
    induction entries with
    | nil => exact fun m h => Or.inr h
    | cons e entries ih =>
      intro m hentry
      rcases ih _ hentry with htail | hinsert
      · exact Or.inl (List.mem_cons_of_mem _ htail)
      · rw [BTreeMap.mem_toList] at hinsert
        by_cases hkey : e.1 = entry.1
        · rw [← hkey, Std.ExtTreeMap.getElem?_insert_self] at hinsert
          have hsame : entry = e := Prod.ext hkey.symm (Option.some.inj hinsert).symm
          exact Or.inl (hsame ▸ List.mem_cons_self)
        · rw [BTreeMap.getElem?_insert_of_ne hkey] at hinsert
          exact Or.inr (BTreeMap.mem_toList.mpr hinsert)
  rcases hfrom _ _ h with hmember | hempty
  · exact hmember
  · exact absurd hempty (by rw [BTreeMap.mem_toList, Std.ExtTreeMap.getElem?_empty]; nofun)

theorem nodup_keys_toList (m : BTreeMap String Json) : (m.toList.map Prod.fst).Nodup :=
  List.pairwise_map.mpr ((BTreeMap.ordered_toList m).imp fun h => h.ne)

theorem duplicateFree_sortValue (value : Json) : value.sortValue.duplicateFree := by
  induction value using induction with
  | null => rfl
  | bool value => rfl
  | number literal => rfl
  | string value => rfl
  | array values ih =>
    rw [sortValue_array, duplicateFree_array]
    intro value hvalue
    obtain ⟨original, horiginal, rfl⟩ := List.mem_map.mp hvalue
    exact ih original horiginal
  | object members ih =>
    rw [sortValue_object, duplicateFree_object]
    refine ⟨nodup_keys_toList _, fun entry hentry => ?_⟩
    obtain ⟨member, hmember, rfl⟩ := List.mem_map.mp (mem_of_memberMap hentry)
    exact ih member hmember

theorem sortValue_sortValue (value : Json) : value.sortValue.sortValue = value.sortValue := by
  induction value using induction with
  | null => rfl
  | bool value => rfl
  | number literal => rfl
  | string value => rfl
  | array values ih =>
    rw [sortValue_array, sortValue_array, List.map_map]
    exact congrArg Json.array (List.map_congr_left ih)
  | object members ih =>
    have hsame : (memberMap members).toList.map sortMember = (memberMap members).toList := by
      have hentry : ∀ entry ∈ (memberMap members).toList, sortMember entry = id entry := by
        intro entry hentry
        obtain ⟨member, hmember, rfl⟩ := List.mem_map.mp (mem_of_memberMap hentry)
        exact Prod.ext rfl (ih member hmember)
      rw [List.map_congr_left hentry, List.map_id]
    rw [sortValue_object, sortValue_object, memberMap_eq_ofList _, hsame, BTreeMap.ofList_toList]

/-! ## Reordering -/

/-- The values are equal up to the order of the members of objects at any depth. -/
inductive Reordered : Json → Json → Prop
  | same (value : Json) : Reordered value value
  | array {values values' : List Json} : List.Forall₂ Reordered values values' →
      Reordered (.array values) (.array values')
  | object {members between members' : List (String × Json)} :
      members.map Prod.fst = between.map Prod.fst →
      List.Forall₂ Reordered (members.map Prod.snd) (between.map Prod.snd) →
      between.Perm members' → Reordered (.object members) (.object members')

theorem map_eq_of_forall₂ {values values' : List Json} (h : List.Forall₂ Reordered values values')
    (hsort : ∀ value ∈ values, ∀ value', Reordered value value' →
      value.sortValue = value'.sortValue) :
    values.map sortValue = values'.map sortValue := by
  induction h with
  | nil => rfl
  | cons hhead _ ih =>
    rw [List.map_cons, List.map_cons, hsort _ List.mem_cons_self _ hhead,
      ih fun value hvalue => hsort value (List.mem_cons_of_mem _ hvalue)]

theorem forall_of_forall₂ {values values' : List Json} (h : List.Forall₂ Reordered values values')
    (hfree : ∀ value ∈ values, ∀ value', Reordered value value' → value'.duplicateFree) :
    ∀ value' ∈ values', value'.duplicateFree := by
  induction h with
  | nil => nofun
  | cons hhead _ ih =>
    exact List.forall_mem_cons.mpr ⟨hfree _ List.mem_cons_self _ hhead,
      ih fun value hvalue => hfree value (List.mem_cons_of_mem _ hvalue)⟩

theorem map_sortMember_eq {members members' : List (String × Json)}
    (hkeys : members.map Prod.fst = members'.map Prod.fst)
    (hvalues : (members.map Prod.snd).map sortValue = (members'.map Prod.snd).map sortValue) :
    members.map sortMember = members'.map sortMember := by
  induction members generalizing members' with
  | nil =>
    have hnil : members' = [] := by
      cases members' with
      | nil => rfl
      | cons member' members' => cases hkeys
    rw [hnil]
  | cons member members ih =>
    cases members' with
    | nil => cases hkeys
    | cons member' members' =>
      simp only [List.map_cons, List.cons.injEq] at hkeys hvalues ⊢
      exact ⟨Prod.ext hkeys.1 hvalues.1, ih hkeys.2 hvalues.2⟩

/-- The map of members without repetitions does not depend on their order. -/
theorem memberMap_perm {members members' : List (String × Json)}
    (hnodup : (members.map Prod.fst).Nodup)
    (h : (members.map sortMember).Perm (members'.map sortMember)) :
    memberMap members = memberMap members' := by
  have hnodup' : (members'.map Prod.fst).Nodup := by
    have hkeys : (members.map Prod.fst).Perm (members'.map Prod.fst) := by
      have hfst := h.map Prod.fst
      rwa [List.map_map, List.map_map] at hfst
    exact hkeys.nodup hnodup
  apply Std.ExtTreeMap.ext_getElem?
  intro key
  ext value
  have hleft := @mem_memberMap _ hnodup (key, value)
  have hright := @mem_memberMap _ hnodup' (key, value)
  rw [BTreeMap.mem_toList] at hleft hright
  rw [hleft, hright, h.mem_iff]

/-- Reordering a value without repetitions leaves it without repetitions and sorted as before. -/
theorem Reordered.sortValue_eq {value value' : Json} (h : Reordered value value')
    (hfree : value.duplicateFree) :
    value.sortValue = value'.sortValue ∧ value'.duplicateFree := by
  induction value using induction generalizing value' with
  | null => cases h; exact ⟨rfl, hfree⟩
  | bool b => cases h; exact ⟨rfl, hfree⟩
  | number literal => cases h; exact ⟨rfl, hfree⟩
  | string text => cases h; exact ⟨rfl, hfree⟩
  | array values ih =>
    cases h with
    | same => exact ⟨rfl, hfree⟩
    | array hall =>
      have hvalues := duplicateFree_array.mp hfree
      rw [sortValue_array, sortValue_array, duplicateFree_array]
      exact ⟨congrArg Json.array (map_eq_of_forall₂ hall fun value hvalue value' h =>
          (ih value hvalue h (hvalues value hvalue)).1),
        forall_of_forall₂ hall fun value hvalue value' h =>
          (ih value hvalue h (hvalues value hvalue)).2⟩
  | object members ih =>
    cases h with
    | same => exact ⟨rfl, hfree⟩
    | @object _ between members' hkeys hall hperm =>
      obtain ⟨hnodup, hvalues⟩ := duplicateFree_object.mp hfree
      have hmember : ∀ value ∈ members.map Prod.snd, ∀ value', Reordered value value' →
          value.sortValue = value'.sortValue ∧ value'.duplicateFree := by
        intro value hvalue value' h
        obtain ⟨member, hmember, rfl⟩ := List.mem_map.mp hvalue
        exact ih member hmember h (hvalues member hmember)
      have hsorted : members.map sortMember = between.map sortMember :=
        map_sortMember_eq hkeys (map_eq_of_forall₂ hall fun value hvalue value' h =>
          (hmember value hvalue value' h).1)
      have hbetween : ∀ value ∈ between.map Prod.snd, value.duplicateFree :=
        forall_of_forall₂ hall fun value hvalue value' h => (hmember value hvalue value' h).2
      rw [sortValue_object, sortValue_object, duplicateFree_object]
      refine ⟨?_, ?_, ?_⟩
      · rw [memberMap_perm hnodup (hsorted ▸ hperm.map sortMember)]
      · exact (hperm.map Prod.fst).nodup (hkeys ▸ hnodup)
      · intro member hmember
        exact hbetween _ (List.mem_map_of_mem (hperm.mem_iff.mpr hmember))

/-- A sorted value that is neither an array nor an object comes from itself. -/
theorem eq_of_sortValue_eq {value value' : Json} (h : value.sortValue = value'.sortValue)
    (harray : ∀ values, value.sortValue ≠ .array values)
    (hobject : ∀ members, value.sortValue ≠ .object members) : value'.sortValue = value' := by
  rw [h] at harray hobject
  cases value' with
  | null => rfl
  | bool b => rfl
  | number literal => rfl
  | string text => rfl
  | array values => exact absurd (sortValue_array values) (harray _)
  | object members => exact absurd (sortValue_object members) (hobject _)

theorem forall₂_of_map_eq {values values' : List Json}
    (h : values.map sortValue = values'.map sortValue)
    (hreordered : ∀ value ∈ values, ∀ value' ∈ values', value.sortValue = value'.sortValue →
      Reordered value value') : List.Forall₂ Reordered values values' := by
  induction values generalizing values' with
  | nil =>
    cases values' with
    | nil => exact List.Forall₂.nil
    | cons value' values' => cases h
  | cons value values ih =>
    cases values' with
    | nil => cases h
    | cons value' values' =>
      rw [List.map_cons, List.map_cons, List.cons.injEq] at h
      exact List.Forall₂.cons (hreordered _ List.mem_cons_self _ List.mem_cons_self h.1)
        (ih h.2 fun value hvalue value' hvalue' => hreordered value (List.mem_cons_of_mem _ hvalue)
          value' (List.mem_cons_of_mem _ hvalue'))

/-- Lists of members with the same sorted members in some order: the one is a permutation of a list
that has the sorted members of the other in their order. -/
theorem exists_between {members members' : List (String × Json)}
    (h : (members.map sortMember).Perm (members'.map sortMember)) :
    ∃ between : List (String × Json),
      members.map sortMember = between.map sortMember ∧ between.Perm members' := by
  have hforall : List.Forall₂ (fun entry member => entry = sortMember member)
      (members'.map sortMember) members' := by
    rw [List.forall₂_map_left_iff, List.forall₂_same]
    exact fun _ _ => rfl
  obtain ⟨between, hbetween, hperm⟩ := List.perm_comp_forall₂ h hforall
  refine ⟨between, ?_, hperm⟩
  have hmap : List.Forall₂ (· = ·) (members.map sortMember) (between.map sortMember) :=
    List.forall₂_map_right_iff.mpr hbetween
  rwa [List.forall₂_eq_eq_eq] at hmap

theorem perm_of_memberMap_eq {members members' : List (String × Json)}
    (hnodup : (members.map Prod.fst).Nodup) (hnodup' : (members'.map Prod.fst).Nodup)
    (h : memberMap members = memberMap members') :
    (members.map sortMember).Perm (members'.map sortMember) := by
  have hfst : ∀ {members : List (String × Json)}, (members.map Prod.fst).Nodup →
      (members.map sortMember).Nodup := fun hkeys =>
    (pairwise_sortMember hkeys).imp fun hne hsame => hne (congrArg Prod.fst hsame)
  rw [List.perm_ext_iff_of_nodup (hfst hnodup) (hfst hnodup')]
  intro entry
  rw [← mem_memberMap hnodup, ← mem_memberMap hnodup', h]

/-- Values without repetitions and with one sorted form are reorderings of each other. -/
theorem reordered_of_sortValue_eq {value value' : Json} (hfree : value.duplicateFree)
    (hfree' : value'.duplicateFree) (h : value.sortValue = value'.sortValue) :
    Reordered value value' := by
  induction value using induction generalizing value' with
  | null =>
    rw [← eq_of_sortValue_eq h nofun nofun, ← h]
    exact Reordered.same _
  | bool b =>
    rw [← eq_of_sortValue_eq h nofun nofun, ← h]
    exact Reordered.same _
  | number literal =>
    rw [← eq_of_sortValue_eq h nofun nofun, ← h]
    exact Reordered.same _
  | string text =>
    rw [← eq_of_sortValue_eq h nofun nofun, ← h]
    exact Reordered.same _
  | array values ih =>
    rw [sortValue_array] at h
    cases value' with
    | array values' =>
      rw [sortValue_array, Json.array.injEq] at h
      have hvalues := duplicateFree_array.mp hfree
      have hvalues' := duplicateFree_array.mp hfree'
      exact Reordered.array (forall₂_of_map_eq h fun value hvalue value' hvalue' hsame =>
        ih value hvalue (hvalues value hvalue) (hvalues' value' hvalue') hsame)
    | object members => rw [sortValue_object] at h; cases h
    | null => cases h
    | bool b => cases h
    | number literal => cases h
    | string text => cases h
  | object members ih =>
    rw [sortValue_object] at h
    cases value' with
    | object members' =>
      rw [sortValue_object, Json.object.injEq] at h
      obtain ⟨hnodup, hvalues⟩ := duplicateFree_object.mp hfree
      obtain ⟨hnodup', hvalues'⟩ := duplicateFree_object.mp hfree'
      have hmap : memberMap members = memberMap members' := by
        rw [← BTreeMap.ofList_toList (memberMap members), h, BTreeMap.ofList_toList]
      obtain ⟨between, hsorted, hperm⟩ := exists_between (perm_of_memberMap_eq hnodup hnodup' hmap)
      have hkeys := congrArg (List.map Prod.fst) hsorted
      have hsnd := congrArg (List.map Prod.snd) hsorted
      rw [List.map_map, List.map_map] at hkeys hsnd
      refine Reordered.object hkeys (forall₂_of_map_eq ?_ ?_) hperm
      · rw [List.map_map, List.map_map]
        exact hsnd
      · intro value hvalue value' hvalue' hsame
        obtain ⟨member, hmember, rfl⟩ := List.mem_map.mp hvalue
        obtain ⟨member', hmember', rfl⟩ := List.mem_map.mp hvalue'
        exact ih member hmember (hvalues member hmember)
          (hvalues' member' (hperm.mem_iff.mp hmember')) hsame
    | array values => rw [sortValue_array] at h; cases h
    | null => cases h
    | bool b => cases h
    | number literal => cases h
    | string text => cases h

/-! ## The visitor -/

/-- What the loop over the members of an object can add to a map. -/
structure Admits (values : BTreeMap String Json) (members : List (String × Json)) : Prop where
  nodup : (members.map Prod.fst).Nodup
  fresh : ∀ member ∈ members, member.1 ∉ values
  free : ∀ member ∈ members, member.2.duplicateFree

theorem admits_cons {values : BTreeMap String Json} {key : String} {value : Json} (added : Json)
    {members : List (String × Json)} : Admits values ((key, value) :: members) ↔
      key ∉ values ∧ value.duplicateFree ∧ Admits (values.insert key added) members := by
  constructor
  · rintro ⟨hnodup, hfresh, hfree⟩
    rw [List.map_cons, List.nodup_cons] at hnodup
    rw [List.forall_mem_cons] at hfresh hfree
    refine ⟨hfresh.1, hfree.1, hnodup.2, fun member hmember hin => ?_, hfree.2⟩
    rcases Std.ExtTreeMap.mem_insert.mp hin with hsame | hin
    · have hkey : key = member.1 := compare_eq_iff_eq.mp hsame
      exact hnodup.1 (List.mem_map.mpr ⟨member, hmember, hkey.symm⟩)
    · exact hfresh.2 member hmember hin
  · rintro ⟨hkey, hvalue, hnodup, hfresh, hfree⟩
    refine ⟨?_, List.forall_mem_cons.mpr ⟨hkey, fun member hmember hin => ?_⟩,
      List.forall_mem_cons.mpr ⟨hvalue, hfree⟩⟩
    · rw [List.map_cons, List.nodup_cons]
      refine ⟨fun hmem => ?_, hnodup⟩
      obtain ⟨member, hmember, rfl⟩ := List.mem_map.mp hmem
      exact hfresh member hmember Std.ExtTreeMap.mem_insert_self
    · exact hfresh member hmember (Std.ExtTreeMap.mem_insert.mpr (Or.inr hin))

open DuplicateRejectingVisitor

/-- Whether the visitor takes a value, and what it makes of it. -/
def Visits (value : Json) : Prop :=
  ∀ result, visit value = some result ↔ value.duplicateFree ∧ value.sortValue = result

theorem visits_of_eq {value : Json} (hvisit : visit value = some value)
    (hfree : value.duplicateFree) (hsorted : value.sortValue = value) : Visits value := by
  intro result
  rw [hvisit, hsorted, Option.some.injEq, and_iff_right hfree]

theorem visitSeq_eq_some {values : List Json} (ih : ∀ value ∈ values, Visits value)
    {results : List Json} : visitSeq values = some results ↔
      (∀ value ∈ values, value.duplicateFree) ∧ values.map sortValue = results := by
  induction values generalizing results with
  | nil =>
    rw [visitSeq, Option.some.injEq]
    exact ⟨fun h => ⟨nofun, h⟩, fun h => h.2⟩
  | cons value values ihvalues =>
    rw [List.forall_mem_cons] at ih
    rw [visitSeq, Option.bind_eq_bind, Option.bind_eq_some_iff, List.forall_mem_cons, List.map_cons]
    constructor
    · rintro ⟨result, hresult, h⟩
      obtain ⟨hfree, rfl⟩ := (ih.1 result).mp hresult
      obtain ⟨rest, hrest, h⟩ := Option.bind_eq_some_iff.mp h
      obtain ⟨hall, rfl⟩ := (ihvalues ih.2).mp hrest
      exact ⟨⟨hfree, hall⟩, Option.some.inj h⟩
    · rintro ⟨⟨hfree, hall⟩, rfl⟩
      exact ⟨_, (ih.1 _).mpr ⟨hfree, rfl⟩,
        Option.bind_eq_some_iff.mpr ⟨_, (ihvalues ih.2).mpr ⟨hall, rfl⟩, rfl⟩⟩

theorem visitMap_eq_some {members : List (String × Json)}
    (ih : ∀ member ∈ members, Visits member.2) {values result : BTreeMap String Json} :
    visitMap values members = some result ↔ Admits values members ∧
      (members.map sortMember).foldl (fun sorted member => sorted.insert member.1 member.2) values =
        result := by
  induction members generalizing values with
  | nil =>
    rw [visitMap, Option.some.injEq]
    exact ⟨fun h => ⟨⟨.nil, nofun, nofun⟩, h⟩, fun h => h.2⟩
  | cons member members ihmembers =>
    obtain ⟨key, value⟩ := member
    rw [List.forall_mem_cons] at ih
    rw [visitMap, admits_cons value.sortValue, List.map_cons, List.foldl_cons]
    by_cases hkey : key ∈ values
    · rw [if_pos (Std.ExtTreeMap.contains_iff_mem.mpr hkey)]
      exact iff_of_false nofun fun h => h.1.1 hkey
    · rw [if_neg fun h => hkey (Std.ExtTreeMap.contains_iff_mem.mp h), Option.bind_eq_bind,
        Option.bind_eq_some_iff]
      constructor
      · rintro ⟨visited, hvisited, h⟩
        obtain ⟨hfree, rfl⟩ := (ih.1 visited).mp hvisited
        obtain ⟨hadmits, hresult⟩ := (ihmembers ih.2).mp h
        exact ⟨⟨hkey, hfree, hadmits⟩, hresult⟩
      · rintro ⟨⟨-, hfree, hadmits⟩, hresult⟩
        exact ⟨_, (ih.1 _).mpr ⟨hfree, rfl⟩, (ihmembers ih.2).mpr ⟨hadmits, hresult⟩⟩

/-- The visitor takes exactly the values without repeated members, and sorts them. -/
theorem visit_eq_some (value : Json) : Visits value := by
  induction value using induction with
  | null => exact visits_of_eq rfl rfl rfl
  | bool value => exact visits_of_eq rfl rfl rfl
  | number literal => exact visits_of_eq rfl rfl rfl
  | string value => exact visits_of_eq rfl rfl rfl
  | array values ih =>
    intro result
    rw [visit, Option.map_eq_some_iff, duplicateFree_array, sortValue_array]
    constructor
    · rintro ⟨results, hresults, rfl⟩
      obtain ⟨hfree, rfl⟩ := (visitSeq_eq_some ih).mp hresults
      exact ⟨hfree, rfl⟩
    · rintro ⟨hfree, rfl⟩
      exact ⟨_, (visitSeq_eq_some ih).mpr ⟨hfree, rfl⟩, rfl⟩
  | object members ih =>
    intro result
    rw [visit, Option.map_eq_some_iff, duplicateFree_object, sortValue_object]
    constructor
    · rintro ⟨results, hresults, rfl⟩
      obtain ⟨hadmits, rfl⟩ := (visitMap_eq_some ih).mp hresults
      exact ⟨⟨hadmits.nodup, hadmits.free⟩, rfl⟩
    · rintro ⟨⟨hnodup, hfree⟩, rfl⟩
      refine ⟨_, (visitMap_eq_some ih).mpr ⟨⟨hnodup, fun member _ => ?_, hfree⟩, rfl⟩, rfl⟩
      exact Std.ExtTreeMap.not_mem_empty

end Json

/-! ## Canonical objects -/

/-- The members of a canonical object come without repetitions from a parsed object. -/
theorem Serde.canonicalObject_of_parse {serde : Serde} {input : String}
    {members : List (String × Json)} (hparse : serde.parse input = some (.object members))
    (hfree : (Json.object members).duplicateFree) :
    serde.canonicalObject input =
      (validateLen (byteLen (serde.print (Json.object members).sortValue)) maxJsonObjectBytes >>=
        fun _ => .ok (serde.print (Json.object members).sortValue)) := by
  have hvisit := (Json.visit_eq_some _ _).mpr ⟨hfree, rfl⟩
  unfold Serde.canonicalObject
  rw [hparse, Option.bind_some, hvisit, okOr_some, ok_bind]
  have hagain := Json.sortValue_sortValue (.object members)
  rw [Json.sortValue_object] at hagain ⊢
  simp only [hagain]

theorem Serde.canonicalObject_eq_error {serde : Serde} {input : String}
    (h : ∀ members, serde.parse input = some (.object members) →
      ¬(Json.object members).duplicateFree) :
    serde.canonicalObject input = .error .invalidRequest := by
  unfold Serde.canonicalObject
  cases hvisited : (serde.parse input).bind DuplicateRejectingVisitor.visit with
  | none => rfl
  | some value =>
    rw [okOr_some, ok_bind]
    obtain ⟨parsed, hparse, hvisit⟩ := Option.bind_eq_some_iff.mp hvisited
    obtain ⟨hfree, rfl⟩ := (Json.visit_eq_some _ _).mp hvisit
    cases parsed with
    | object members => exact absurd hfree (h members hparse)
    | array values =>
      rw [Json.sortValue_array]
    | null => rfl
    | bool value => rfl
    | number literal => rfl
    | string value => rfl

end RustFactory.Gateway
