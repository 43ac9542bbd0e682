import Mathlib

/-!
# File trees

A file tree has an entry at some locations.  A location lists names from an entry up to the root, so
that the tail of a location is the directory it lies in and what is below a directory ends in its
location.  Whatever has an entry lies in a directory: this is a field, so that every operation keeps
it.

Each operation has one equation for the entries after it: `entry_createDir`, `entry_createDirAll`,
`entry_writeFile` and `entry_prune`.  `listed` is the tree that a list of files describes, and
`listed_concat` is what writing one more file makes of it.
-/

namespace RustFactory.Lib

/-- What may be at a location. -/
inductive Entry (γ : Type) where
  | directory
  | file (contents : γ)
  | other
  deriving DecidableEq

def Entry.isFile {γ : Type} : Entry γ → Bool
  | .file _ => true
  | _ => false

/-- A tree of directories and files. -/
structure FileTree (ν γ : Type) where
  entry : List ν → Option (Entry γ)
  root : entry [] = some .directory
  parent : ∀ name location, entry (name :: location) ≠ none → entry location = some .directory

namespace FileTree

variable {ν γ : Type} {tree tree' : FileTree ν γ} {location below : List ν}

/-- What has an entry lies in directories all the way up. -/
theorem entry_of_append (h : tree.entry (below ++ location) ≠ none) (hne : below ≠ []) :
    tree.entry location = some .directory := by
  induction below with
  | nil => exact absurd rfl hne
  | cons name below ih =>
    have hparent := tree.parent name (below ++ location) h
    cases below with
    | nil => exact hparent
    | cons next below => exact ih (by rw [hparent]; exact Option.some_ne_none _) (List.cons_ne_nil _ _)

theorem entry_append_of_none (h : tree.entry location = none) (below : List ν) :
    tree.entry (below ++ location) = none := by
  cases below with
  | nil => exact h
  | cons name below =>
    by_contra hentry
    have hdirectory := entry_of_append hentry (List.cons_ne_nil _ _)
    rw [h] at hdirectory
    cases hdirectory

/-! ## The operations -/

/-- The tree without the entries that are `gone` and what is below them. -/
def prune (tree : FileTree ν γ) (gone : List ν → Bool) : FileTree ν γ where
  entry location :=
    if location.tails.any fun above => above ≠ [] && gone above then none else tree.entry location
  root := by
    rw [if_neg (by simp), tree.root]
  parent name location h := by
    rw [ne_eq, ite_eq_left_iff, not_forall] at h
    obtain ⟨hkept, hentry⟩ := h
    rw [List.tails_cons, List.any_cons, Bool.or_eq_true, not_or] at hkept
    rw [if_neg hkept.2, tree.parent name location hentry]

theorem entry_prune_of_gone {gone : List ν → Bool} (hgone : gone location) (hne : location ≠ [])
    (below : List ν) : (tree.prune gone).entry (below ++ location) = none := by
  refine if_pos (List.any_eq_true.mpr ⟨location, ?_, ?_⟩)
  · exact (List.mem_tails _ _).mpr (List.suffix_append _ _)
  · rw [hgone, Bool.and_true]
    exact decide_eq_true hne

theorem entry_prune_of_kept {gone : List ν → Bool}
    (hkept : ∀ above, above <:+ location → above ≠ [] → ¬gone above) :
    (tree.prune gone).entry location = tree.entry location := by
  refine if_neg fun hany => ?_
  obtain ⟨above, habove, hgone⟩ := List.any_eq_true.mp hany
  rw [Bool.and_eq_true, decide_eq_true_eq] at hgone
  exact hkept above ((List.mem_tails _ _).mp habove) hgone.1 hgone.2

section Operations

variable [DecidableEq ν] [DecidableEq γ]

/-- A new entry in a directory, in place of what is not one. -/
def place (tree : FileTree ν γ) (name : ν) (location : List ν) (entry : Entry γ)
    (hparent : tree.entry location = some .directory)
    (hfree : tree.entry (name :: location) ≠ some .directory) : FileTree ν γ where
  entry := Function.update tree.entry (name :: location) (some entry)
  root := by rw [Function.update_of_ne (List.cons_ne_nil _ _).symm, tree.root]
  parent other above h := by
    by_cases hself : other :: above = name :: location
    · obtain ⟨-, rfl⟩ := List.cons.inj hself
      rw [Function.update_of_ne (List.cons_ne_self _ _).symm, hparent]
    · rw [Function.update_of_ne hself] at h
      have habove := tree.parent other above h
      have hne : above ≠ name :: location := fun heq => hfree (by rw [← heq, habove])
      rw [Function.update_of_ne hne, habove]

/-- The tree with one more directory, if its parent is there and the place is free. -/
def createDir (tree : FileTree ν γ) : List ν → Option (FileTree ν γ)
  | [] => none
  | name :: location =>
    if h : (tree.entry location = some .directory) ∧ tree.entry (name :: location) = none then
      some (tree.place name location .directory h.1 (by rw [h.2]; exact (Option.some_ne_none _).symm))
    else none

/-- The directory and those above it, as far as they do not exist. -/
def createDirAll (tree : FileTree ν γ) : List ν → Option (FileTree ν γ)
  | [] => some tree
  | name :: location => do
    let tree ← tree.createDirAll location
    if tree.entry (name :: location) = some .directory then some tree
    else tree.createDir (name :: location)

/-- A file with these contents, new or in place of a file. -/
def writeFile (tree : FileTree ν γ) (contents : γ) : List ν → Option (FileTree ν γ)
  | [] => none
  | name :: location =>
    if h : (tree.entry location = some .directory) ∧
        (tree.entry (name :: location)).all Entry.isFile then
      some (tree.place name location (.file contents) h.1 (fun hentry => by
        rw [hentry] at h
        exact Bool.false_ne_true h.2))
    else none

/-! ## What the operations do -/

theorem entry_createDir (h : tree.createDir location = some tree') :
    tree.entry location = none ∧
      tree'.entry = Function.update tree.entry location (some .directory) := by
  unfold createDir at h
  split at h
  · cases h
  · split_ifs at h with hcond
    cases h
    exact ⟨hcond.2, rfl⟩

theorem exists_createDir {name : ν} (hparent : tree.entry location = some .directory)
    (hfree : tree.entry (name :: location) = none) :
    ∃ tree', tree.createDir (name :: location) = some tree' := by
  exact ⟨_, dif_pos ⟨hparent, hfree⟩⟩

/-- Afterwards all locations on the way are directories, and before nothing else was there. -/
theorem entry_createDirAll (h : tree.createDirAll location = some tree') :
    (∀ above, above <:+ location → tree.entry above = none ∨ tree.entry above = some .directory) ∧
      ∀ other, tree'.entry other =
        if other <:+ location then some .directory else tree.entry other := by
  induction location generalizing tree' with
  | nil =>
    cases h
    refine ⟨fun above habove => .inr ?_, fun other => ?_⟩
    · rw [List.suffix_nil.mp habove, tree.root]
    · by_cases hother : other <:+ []
      · rw [if_pos hother, List.suffix_nil.mp hother, tree.root]
      · rw [if_neg hother]
  | cons name location ih =>
    rw [createDirAll, Option.bind_eq_bind, Option.bind_eq_some_iff] at h
    obtain ⟨between, hbetween, h⟩ := h
    obtain ⟨hbefore, hentry⟩ := ih hbetween
    -- the location itself is not on the way to the directory it lies in
    have hself : between.entry (name :: location) = tree.entry (name :: location) := by
      rw [hentry, if_neg]
      exact fun hsuffix => absurd hsuffix.length_le (by simp)
    have hafter : (tree.entry (name :: location) = none ∨
          tree.entry (name :: location) = some .directory) ∧
        tree'.entry = Function.update between.entry (name :: location) (some .directory) := by
      split_ifs at h with hdirectory
      · cases h
        exact ⟨.inr (hself ▸ hdirectory), by rw [← hdirectory, Function.update_eq_self]⟩
      · obtain ⟨hfree, hupdate⟩ := entry_createDir h
        exact ⟨.inl (hself ▸ hfree), hupdate⟩
    refine ⟨fun above habove => ?_, fun other => ?_⟩
    · rcases List.suffix_cons_iff.mp habove with rfl | habove
      · exact hafter.1
      · exact hbefore above habove
    · rw [hafter.2]
      by_cases hother : other = name :: location
      · rw [hother, Function.update_self, if_pos List.suffix_rfl]
      · rw [Function.update_of_ne hother, hentry]
        refine if_congr ?_ rfl rfl
        rw [List.suffix_cons_iff]
        exact (or_iff_right hother).symm

theorem exists_createDirAll
    (h : ∀ above, above <:+ location → tree.entry above = none ∨ tree.entry above = some .directory) :
    ∃ tree', tree.createDirAll location = some tree' := by
  induction location with
  | nil => exact ⟨tree, rfl⟩
  | cons name location ih =>
    obtain ⟨between, hbetween⟩ := ih fun above habove => h above (habove.trans (List.suffix_cons _ _))
    have hentry := (entry_createDirAll hbetween).2
    have hself : between.entry (name :: location) = tree.entry (name :: location) := by
      rw [hentry, if_neg]
      exact fun hsuffix => absurd hsuffix.length_le (by simp)
    rw [createDirAll, hbetween, Option.bind_eq_bind, Option.bind_some, hself]
    rcases h _ List.suffix_rfl with hfree | hdirectory
    · rw [if_neg (by rw [hfree]; exact (Option.some_ne_none _).symm)]
      exact exists_createDir (by rw [hentry, if_pos List.suffix_rfl]) (hself ▸ hfree)
    · exact ⟨between, if_pos hdirectory⟩

theorem entry_writeFile {contents : γ} (h : tree.writeFile contents location = some tree') :
    tree.entry location ≠ some .directory ∧ tree.entry location.tail = some .directory ∧
      location ≠ [] ∧
      tree'.entry = Function.update tree.entry location (some (.file contents)) := by
  unfold writeFile at h
  split at h
  · cases h
  · split_ifs at h with hcond
    cases h
    refine ⟨fun hentry => ?_, hcond.1, List.cons_ne_nil _ _, rfl⟩
    rw [hentry] at hcond
    exact Bool.false_ne_true hcond.2

theorem exists_writeFile {name : ν} (contents : γ) (hparent : tree.entry location = some .directory)
    (hfile : (tree.entry (name :: location)).all Entry.isFile) :
    ∃ tree', tree.writeFile contents (name :: location) = some tree' := by
  exact ⟨_, dif_pos ⟨hparent, hfile⟩⟩

/-! ## The tree of a list of files -/

/-- The entry at a location of the tree that the files describe: of several files at one location the
last counts, and what is above a file is a directory. -/
def listed (files : List (List ν × γ)) (location : List ν) : Option (Entry γ) :=
  match files.reverse.find? fun file => file.1 = location with
  | some file => some (.file file.2)
  | none =>
    if location = [] ∨ files.any fun file => location <:+ file.1 then some .directory else none

omit [DecidableEq γ] in
theorem listed_nil (location : List ν) :
    listed ([] : List (List ν × γ)) location = if location = [] then some .directory else none := by
  unfold listed
  rw [List.reverse_nil, List.find?_nil, List.any_nil]
  simp only [Bool.false_eq_true, or_false]

omit [DecidableEq γ] in
theorem listed_concat {files : List (List ν × γ)} {file : List ν × γ}
    (habove : ∀ above, above <:+ file.1.tail →
      listed files above = none ∨ listed files above = some .directory) (other : List ν) :
    listed (files ++ [file]) other = if other = file.1 then some (.file file.2)
      else if other <:+ file.1.tail then some .directory else listed files other := by
  have hunfold : listed (files ++ [file]) other = if file.1 = other then some (.file file.2) else
      match files.reverse.find? fun file => file.1 = other with
      | some file => some (.file file.2)
      | none => if other = [] ∨ (files ++ [file]).any fun file => other <:+ file.1
        then some .directory else none := by
    unfold listed
    rw [List.reverse_append, List.reverse_singleton, List.singleton_append, List.find?_cons]
    by_cases hself : file.1 = other
    · rw [if_pos hself, decide_eq_true hself]
    · rw [if_neg hself, decide_eq_false hself]
  rw [hunfold]
  by_cases hself : file.1 = other
  · rw [if_pos hself, if_pos hself.symm]
  · rw [if_neg hself, if_neg (Ne.symm hself)]
    have hsuffix : other <:+ file.1 ↔ other <:+ file.1.tail := by
      cases hlocation : file.1 with
      | nil => rfl
      | cons name above =>
        rw [List.tail_cons, List.suffix_cons_iff]
        exact or_iff_right fun heq => hself (hlocation.trans heq.symm)
    unfold listed
    unfold listed at habove
    cases hfind : files.reverse.find? fun file => file.1 = other with
    | some found =>
      have hnot : ¬other <:+ file.1.tail := by
        intro hother
        have h := habove other hother
        rw [hfind] at h
        rcases h with h | h
        · cases h
        · cases h
      rw [if_neg hnot]
    | none =>
      have hcond : (other = [] ∨ (files ++ [file]).any fun file => other <:+ file.1) ↔
          (other = [] ∨ files.any fun file => other <:+ file.1) ∨ other <:+ file.1.tail := by
        rw [List.any_append, List.any_cons, List.any_nil, Bool.or_false, Bool.or_eq_true,
          decide_eq_true_eq, hsuffix, or_assoc]
      dsimp only
      rw [if_congr hcond rfl rfl]
      by_cases hother : other <:+ file.1.tail
      · rw [if_pos (.inr hother), if_pos hother]
      · rw [if_neg hother, if_congr (or_iff_left hother) rfl rfl]

omit [DecidableEq γ] in
theorem listed_of_forall_ne {files : List (List ν × γ)} (h : ∀ file ∈ files, file.1 ≠ location) :
    listed files location = none ∨ listed files location = some .directory := by
  have hfind : files.reverse.find? (fun file => file.1 = location) = none := by
    rw [List.find?_eq_none]
    intro file hfile
    rw [decide_eq_true_eq]
    exact h file (List.mem_reverse.mp hfile)
  unfold listed
  rw [hfind]
  dsimp only
  split_ifs
  · exact .inr rfl
  · exact .inl rfl

omit [DecidableEq γ] in
/-- Nothing but a file is where files are and what is above them is not. -/
theorem all_isFile_listed {files : List (List ν × γ)} (hne : location ≠ [])
    (h : ∀ file ∈ files, location <:+ file.1 → location = file.1) :
    (listed files location).all Entry.isFile := by
  unfold listed
  cases hfind : files.reverse.find? fun file => file.1 = location with
  | some file => rfl
  | none =>
    have hnot : ¬(location = [] ∨ files.any fun file => location <:+ file.1) := by
      rintro (hnil | hany)
      · exact hne hnil
      · obtain ⟨file, hfile, hsuffix⟩ := List.any_eq_true.mp hany
        have hself := h file hfile (of_decide_eq_true hsuffix)
        rw [List.find?_eq_none] at hfind
        exact hfind file (List.mem_reverse.mpr hfile) (decide_eq_true hself.symm)
    dsimp only
    rw [if_neg hnot]
    rfl

end Operations

end FileTree

end RustFactory.Lib
