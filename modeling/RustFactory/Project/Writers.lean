import RustFactory.Project.Materialize

/-!
# Projects: writers that run at once

Any number of writers run over one output root, a command at a time, and any command may fail.
`Progress` is the invariant of such a run: the writer of every changed entry holds its directory, and
no two hold one.  From it follow what a run never touches (`run_confined`), what a success means
(`run_materialized`) and that a run without failures has one winner for every free target
(`run_one_winner`).
-/

namespace RustFactory.Project

open Lib

variable {ι : Type} [DecidableEq ι]

abbrev WriterPool (ι : Type) :=
  Pool OutputTree ι DirCommand (Except ErrorKind Unit) (Except FsWriterError MaterializedProject)

/-- The writers before their first commands. -/
def startWriters (initial : OutputTree) (writers : ι → Writer) : WriterPool ι where
  shared := initial
  programs i := RootConfinedWriter.write (writers i).plan (writers i).target

/-- The writers after a run; an input names a writer and what goes wrong with its next command. -/
def runWriters (initial : OutputTree) (writers : ι → Writer) (inputs : List (ι × Faults)) :
    WriterPool ι :=
  (Pool.machine exec).final (startWriters initial writers) inputs

/-! ## The invariant -/

/-- The writers are in stages, and the entries that have changed are below targets that are held.  Only
a failed removal leaves changed entries that no writer holds (`leaky`). -/
structure Progress (initial : OutputTree) (writers : ι → Writer) (leaky : Prop) (pool : WriterPool ι)
    (stages : ι → Stage) : Prop where
  programs : ∀ i, pool.programs i = (stages i).program (writers i)
  fits : ∀ i, (stages i).Fits (writers i) pool.shared
  exclusive : ∀ i j, (stages i).Holds → (stages j).Holds →
    (writers i).target.name = (writers j).target.name → i = j
  fresh : ∀ i, (stages i).Holds → initial.entry [(writers i).target.name] = none
  frame : ∀ location, pool.shared.entry location = initial.entry location ∨
    ∃ i, [(writers i).target.name] <:+ location ∧
      initial.entry [(writers i).target.name] = none ∧ ((stages i).Holds ∨ leaky)

theorem eq_of_singleton_suffix {name other : String} {below : List String}
    (h : [name] <:+ below ++ [other]) : name = other := by
  obtain ⟨front, heq⟩ := h
  exact List.singleton_inj.mp (List.append_inj_right' heq rfl)

section Step

variable {initial : OutputTree} {writers : ι → Writer} {leaky : Prop} {pool : WriterPool ι}
  {stages : ι → Stage}

omit [DecidableEq ι] in
theorem Progress.initial_of_none (hprogress : Progress initial writers leaky pool stages) {i : ι}
    (hfree : pool.shared.entry [(writers i).target.name] = none) :
    initial.entry [(writers i).target.name] = none := by
  rcases hprogress.frame [(writers i).target.name] with hsame | ⟨j, hsuffix, hnone, -⟩
  · exact hsame.symm.trans hfree
  · have hname := hsuffix.eq_of_length rfl
    rwa [hname] at hnone

/-- An entry that a command of a writer leaves alone is accounted for as before, where the writer does
not hold its target. -/
theorem Progress.frame_update (hprogress : Progress initial writers leaky pool stages) {i : ι}
    {location : List String} (following : Stage)
    (hne : ∀ j, [(writers j).target.name] <:+ location → (stages j).Holds → j ≠ i) :
    pool.shared.entry location = initial.entry location ∨
      ∃ j, [(writers j).target.name] <:+ location ∧
        initial.entry [(writers j).target.name] = none ∧
        ((Function.update stages i following j).Holds ∨ leaky) := by
  refine (hprogress.frame location).imp_right ?_
  rintro ⟨j, hsuffix, hnone, hj⟩
  refine ⟨j, hsuffix, hnone, hj.imp_left fun hholds => ?_⟩
  rwa [Function.update_of_ne (hne j hsuffix hholds)]

/-- Where an entry is changed, its target is held or a removal has failed. -/
theorem Progress.frame_step (hprogress : Progress initial writers leaky pool stages) {i : ι}
    {faults : Faults} {after : OutputTree} {following : Stage}
    (hstep : Stage.Step (writers i) faults pool.shared (stages i) after following)
    (hleaky : faults.removeDirAll ≠ none → leaky)
    (hfresh : following.Holds → initial.entry [(writers i).target.name] = none)
    (location : List String) : after.entry location = initial.entry location ∨
      ∃ j, [(writers j).target.name] <:+ location ∧
        initial.entry [(writers j).target.name] = none ∧
        ((Function.update stages i following j).Holds ∨ leaky) := by
  by_cases hidle : (stages i).Holds ∨ following.Holds
  · by_cases hbelow : [(writers i).target.name] <:+ location
    · by_cases hnext : following.Holds
      · exact .inr ⟨i, hbelow, hfresh hnext, .inl (by rwa [Function.update_self])⟩
      · have hheld : (stages i).Holds := hidle.resolve_right hnext
        have hnone := hprogress.fresh i hheld
        by_cases hfault : faults.removeDirAll = none
        · obtain ⟨below, rfl⟩ := hbelow
          rw [hstep.releases hheld hnext hfault, FileTree.entry_append_of_none hnone]
          exact .inl rfl
        · exact .inr ⟨i, hbelow, hnone, .inr (hleaky hfault)⟩
    · rw [hstep.outside location hbelow]
      exact hprogress.frame_update following fun j hsuffix _ heq => hbelow (heq ▸ hsuffix)
  · rw [not_or] at hidle
    rw [hstep.idle hidle.1 hidle.2]
    exact hprogress.frame_update following fun j _ hholds heq => hidle.1 (heq ▸ hholds)

omit [DecidableEq ι] in
/-- No other writer holds the directory of a writer that holds it or comes to hold it. -/
theorem Progress.name_ne (hprogress : Progress initial writers leaky pool stages) {i j : ι}
    {faults : Faults} {after : OutputTree} {following : Stage}
    (hstep : Stage.Step (writers i) faults pool.shared (stages i) after following) (hj : j ≠ i)
    (hholds : (stages j).Holds) (hself : (stages i).Holds ∨ following.Holds) :
    (writers j).target.name ≠ (writers i).target.name := by
  intro hname
  by_cases hheld : (stages i).Holds
  · exact hj (hprogress.exclusive j i hholds hheld hname)
  · have hfree := hstep.claims hheld (hself.resolve_left hheld)
    have hdirectory := (hprogress.fits j).entry_of_holds hholds
    rw [hname, hfree] at hdirectory
    cases hdirectory

/-- A command of one writer keeps the invariant. -/
theorem Progress.step_stages (hprogress : Progress initial writers leaky pool stages) {i : ι}
    {faults : Faults} {after : OutputTree} {following : Stage}
    (hstep : Stage.Step (writers i) faults pool.shared (stages i) after following)
    (hleaky : faults.removeDirAll ≠ none → leaky) :
    Progress initial writers leaky
      ⟨after, Function.update pool.programs i (following.program (writers i))⟩
      (Function.update stages i following) := by
  have hfresh : following.Holds → initial.entry [(writers i).target.name] = none := by
    intro hholds
    by_cases hheld : (stages i).Holds
    · exact hprogress.fresh i hheld
    · exact hprogress.initial_of_none (hstep.claims hheld hholds)
  refine ⟨fun j => ?_, fun j => ?_, fun j k hj hk hname => ?_, fun j hj => ?_, fun location => ?_⟩
  · by_cases hj : j = i
    · subst hj
      change Function.update _ _ _ _ = _
      rw [Function.update_self, Function.update_self]
    · change Function.update _ _ _ _ = _
      rw [Function.update_of_ne hj, Function.update_of_ne hj, hprogress.programs]
  · by_cases hj : j = i
    · subst hj
      rw [Function.update_self]
      exact hstep.fits
    · rw [Function.update_of_ne hj]
      by_cases hholds : (stages j).Holds
      · by_cases hidle : (stages i).Holds ∨ following.Holds
        · refine (hprogress.fits j).congr fun below => hstep.outside _ fun hsuffix => ?_
          exact hprogress.name_ne hstep hj hholds hidle (eq_of_singleton_suffix hsuffix).symm
        · rw [not_or] at hidle
          rw [hstep.idle hidle.1 hidle.2]
          exact hprogress.fits j
      · exact Stage.fits_of_not_holds hholds
  · by_cases hself : j = i
    · by_cases hother : k = i
      · exact hself.trans hother.symm
      · subst hself
        rw [Function.update_self] at hj
        rw [Function.update_of_ne hother] at hk
        exact absurd hname.symm (hprogress.name_ne hstep hother hk (.inr hj))
    · rw [Function.update_of_ne hself] at hj
      by_cases hother : k = i
      · subst hother
        rw [Function.update_self] at hk
        exact absurd hname (hprogress.name_ne hstep hself hj (.inr hk))
      · rw [Function.update_of_ne hother] at hk
        exact hprogress.exclusive j k hj hk hname
  · by_cases hself : j = i
    · subst hself
      rw [Function.update_self] at hj
      exact hfresh hj
    · rw [Function.update_of_ne hself] at hj
      exact hprogress.fresh j hj
  · exact hprogress.frame_step hstep hleaky hfresh location

theorem Progress.step (hprogress : Progress initial writers leaky pool stages) {input : ι × Faults}
    (hleaky : input.2.removeDirAll ≠ none → leaky) :
    ∃ stages, Progress initial writers leaky ((Pool.machine exec).step pool input).2 stages := by
  cases hprogram : pool.programs input.1 with
  | done result =>
    rw [Pool.step_done hprogram]
    exact ⟨stages, hprogress⟩
  | call command next =>
    rw [Pool.step_call hprogram]
    rw [hprogress.programs] at hprogram
    obtain ⟨following, hnext, hstep⟩ := Stage.advances (hprogress.fits input.1) hprogram input.2
    rw [hnext]
    exact ⟨_, hprogress.step_stages hstep hleaky⟩

end Step

section Run

variable (initial : OutputTree) (writers : ι → Writer)

omit [DecidableEq ι] in
theorem progress_start (leaky : Prop) :
    Progress initial writers leaky (startWriters initial writers) fun _ => .waiting where
  programs _ := rfl
  fits _ := trivial
  exclusive _ _ h := h.elim
  fresh _ h := h.elim
  frame _ := .inl rfl

/-- The invariant holds after every run. -/
theorem progress_run {leaky : Prop} {inputs : List (ι × Faults)}
    (hleaky : ∀ input ∈ inputs, input.2.removeDirAll ≠ none → leaky) :
    ∃ stages, Progress initial writers leaky (runWriters initial writers inputs) stages := by
  have hfrom : ∀ (inputs : List (ι × Faults)) (pool : WriterPool ι) (stages : ι → Stage),
      (∀ input ∈ inputs, input.2.removeDirAll ≠ none → leaky) →
      Progress initial writers leaky pool stages →
      ∃ stages, Progress initial writers leaky ((Pool.machine exec).final pool inputs) stages := by
    intro inputs
    induction inputs with
    | nil => exact fun pool stages _ hprogress => ⟨stages, hprogress⟩
    | cons input inputs ih =>
      intro pool stages hleaky hprogress
      rw [List.forall_mem_cons] at hleaky
      obtain ⟨following, hfollowing⟩ := hprogress.step hleaky.1
      exact ih _ following hleaky.2 hfollowing
  exact hfrom inputs _ _ hleaky (progress_start initial writers leaky)

/-- **Confinement.**  Whatever fails, a run of writers changes nothing that existed and creates entries
only below targets that were free.  A writer that returns its project has written exactly its plan, it
stays so, and no other writer returns one with the same directory. -/
theorem run_confined (inputs : List (ι × Faults)) :
    (∀ location, (runWriters initial writers inputs).shared.entry location ≠ initial.entry location →
      initial.entry location = none ∧ ∃ i, [(writers i).target.name] <:+ location ∧
        initial.entry [(writers i).target.name] = none) ∧
    ∀ i project, (runWriters initial writers inputs).programs i = .done (.ok project) →
      project = ⟨(writers i).target, (writers i).plan.files.map GeneratedFile.relativePath⟩ ∧
      initial.entry [(writers i).target.name] = none ∧
      (∀ below, (runWriters initial writers inputs).shared.entry
          (below ++ [(writers i).target.name]) =
        FileTree.listed (planFiles (writers i).plan.files) below) ∧
      ∀ j other, (runWriters initial writers inputs).programs j = .done (.ok other) →
        (writers j).target.name = (writers i).target.name → j = i := by
  obtain ⟨stages, hprogress⟩ := @progress_run _ _ initial writers True inputs fun _ _ _ => trivial
  have hok : ∀ {i project}, (runWriters initial writers inputs).programs i = .done (.ok project) →
      stages i = .building (writers i).plan.files [] ∧ project =
        ⟨(writers i).target, (writers i).plan.files.map GeneratedFile.relativePath⟩ := by
    intro i project h
    rw [hprogress.programs] at h
    exact Stage.eq_building_of_ok (hprogress.fits i) h
  refine ⟨fun location hchanged => ?_, fun i project h => ?_⟩
  · obtain hsame | ⟨i, ⟨below, rfl⟩, hfree, -⟩ := hprogress.frame location
    · exact absurd hsame hchanged
    · exact ⟨FileTree.entry_append_of_none hfree below, i, List.suffix_append _ _, hfree⟩
  · obtain ⟨hstage, rfl⟩ := hok h
    have hholds : (stages i).Holds := by
      rw [hstage]
      trivial
    have hfits := hprogress.fits i
    rw [hstage] at hfits
    refine ⟨rfl, hprogress.fresh i hholds, hfits.2.2, fun j other hother hname => ?_⟩
    refine hprogress.exclusive j i ?_ hholds hname
    rw [(hok hother).1]
    trivial

/-- **All or nothing.**  When removals work, a location below the targets of writers that have all
returned is part of a project that was returned, or it is as it was. -/
theorem run_all_or_nothing {inputs : List (ι × Faults)}
    (hremovals : ∀ input ∈ inputs, input.2.removeDirAll = none) (location : List String)
    (hdone : ∀ i, [(writers i).target.name] <:+ location →
      ∃ result, (runWriters initial writers inputs).programs i = .done result) :
    (∃ i project below, (runWriters initial writers inputs).programs i = .done (.ok project) ∧
      location = below ++ [(writers i).target.name] ∧
      (runWriters initial writers inputs).shared.entry location =
        FileTree.listed (planFiles (writers i).plan.files) below) ∨
    (runWriters initial writers inputs).shared.entry location = initial.entry location := by
  obtain ⟨stages, hprogress⟩ := @progress_run _ _ initial writers False inputs
    fun input hinput hfault => hfault (hremovals input hinput)
  obtain hsame | ⟨i, hsuffix, -, hholds | hleaky⟩ := hprogress.frame location
  · exact .inr hsame
  · obtain ⟨result, hresult⟩ := hdone i hsuffix
    have hprogram := hresult
    rw [hprogress.programs] at hprogram
    cases result with
    | error error =>
      rw [Stage.eq_failed_of_error hprogram] at hholds
      exact hholds.elim
    | ok project =>
      have hfits := hprogress.fits i
      rw [(Stage.eq_building_of_ok hfits hprogram).1] at hfits
      obtain ⟨below, rfl⟩ := hsuffix
      exact .inl ⟨i, project, below, hresult, rfl, hfits.2.2 below⟩
  · exact hleaky.elim

/-- A root with nothing in it. -/
def emptyRoot : OutputTree where
  entry location := if location = [] then some .directory else none
  root := rfl
  parent _ _ h := absurd (if_neg (List.cons_ne_nil _ _)) h

def sampleWriter : Writer where
  plan := buildPlan asciiTables (exampleBlueprint "An example.")
  target := ⟨"demo", .refl true⟩

end Run

/-- The first directory of the plan cannot be created, and the target is removed again. -/
def failingTurns : List (Unit × Faults) :=
  [((), .none), ((), ⟨false, some 0, none, none⟩), ((), .none)]

theorem run_all_or_nothing_sample :
    (∃ i project below, (runWriters emptyRoot (fun _ => sampleWriter) failingTurns).programs i =
        .done (.ok project) ∧ ["demo"] = below ++ ["demo"] ∧
      (runWriters emptyRoot (fun _ => sampleWriter) failingTurns).shared.entry ["demo"] =
        FileTree.listed (planFiles sampleWriter.plan.files) below) ∨
    (runWriters emptyRoot (fun _ => sampleWriter) failingTurns).shared.entry ["demo"] =
      emptyRoot.entry ["demo"] := by
  have hremovals : ∀ input ∈ failingTurns, input.2.removeDirAll = none := by
    unfold failingTurns
    simp only [List.forall_mem_cons, Faults.none, List.not_mem_nil, false_imp_iff, implies_true,
      and_self]
  exact run_all_or_nothing emptyRoot (fun _ => sampleWriter) hremovals ["demo"]
    fun _ _ => ⟨.error (.createParent .other), rfl⟩

end RustFactory.Project
