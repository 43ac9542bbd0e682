import RustFactory.Lib.Except
import RustFactory.Lib.FileTree
import RustFactory.Lib.Program
import RustFactory.Lib.Text
import RustFactory.Project.Plan

/-!
# Projects: writing a plan below the output root

The writer reserves the directory of its target with a single `create_dir`, writes the files of the
plan one after the other, and removes the directory again when one of them fails.  A writer is a
program over the file tree of the output root; its commands are those of the directory capability, and
any of them may fail, a failed one possibly half done.

Any number of writers run at once.  A writer goes through the stages of `Stage`; from its reservation
on it holds its directory, alone (`Progress.exclusive`), and so it is the only one whose commands reach
the entries there.
-/

namespace RustFactory.Project

open Lib

/-! ## Paths -/

/-- A component of a path. -/
inductive Component where
  | rootDir
  | curDir
  | parentDir
  | normal (name : String)
  deriving DecidableEq

def Component.isNormal : Component → Bool
  | .normal _ => true
  | _ => false

def isAbsolute (path : String) : Bool := path.toList.head? == some '/'

/-- The component of a piece between two separators; an empty piece and a `.` are none. -/
def pieceComponent (piece : String) : Option Component :=
  if piece = "" ∨ piece = "." then none
  else if piece = ".." then some .parentDir
  else some (.normal piece)

/-- The components of a path.  A `.` is a component at the front of a relative path only. -/
def components (path : String) : List Component :=
  (if isAbsolute path then [.rootDir]
    else if (split '/' path).head? = some "." then [.curDir] else []) ++
  (split '/' path).filterMap pieceComponent

/-- The path below a base; an absolute path replaces the base. -/
def join (base path : String) : String :=
  if isAbsolute path then path
  else match base.toList.getLast? with
    | none => path
    | some last => if last = '/' then base ++ path else base ++ "/" ++ path

/-- The path without its last component. -/
def parent (components : List Component) : Option (List Component) :=
  match components.getLast? with
  | none | some .rootDir => none
  | some .curDir | some .parentDir | some (.normal _) => some components.dropLast

/-- The path ends in a separator or in a `.`, so that it can only name a directory. -/
def namesDirectory (path : String) : Bool :=
  (split '/' path).getLast?.any fun piece => piece = "" || piece = "."

/-! ## The target -/

/-- One name, neither absolute nor a step to another directory. -/
def isTarget (value : String) : Bool :=
  value != "" && !isAbsolute value && (components value).length == 1 &&
    (components value).head?.any Component.isNormal

/-- A path below the output root. -/
structure ProjectTarget where
  asStr : String
  valid : isTarget asStr

/-- Why a path is no target. -/
inductive TargetError where
  | invalid (value : String)

def ProjectTarget.new (value : String) : Except TargetError ProjectTarget :=
  if h : isTarget value then .ok ⟨value, h⟩ else .error (.invalid value)

/-! ## The output root -/

/-- What the operating system reports of a failure. -/
inductive ErrorKind where
  | alreadyExists
  | other
  deriving DecidableEq

/-- The operations of the directory capability; a path is given by its components. -/
inductive DirCommand where
  | createDir (path : List Component)
  | createDirAll (path : List Component)
  | write (path : List Component) (namesDirectory : Bool) (contents : List UInt8)
  | removeDirAll (path : List Component)

abbrev OutputTree := FileTree String (List UInt8)

/-- What goes wrong with the operations.  A `createDirAll` may have created some of the directories, a
`write` may have left the file with other contents, and a `removeDirAll` may have removed some of what
it should. -/
structure Faults where
  createDir : Bool
  createDirAll : Option ℕ
  write : Option (Option (List UInt8))
  removeDirAll : Option (List String → Bool)

/-- Nothing goes wrong. -/
def Faults.none : Faults := ⟨false, Option.none, Option.none, Option.none⟩

/-- Where a path leads from the opened directory; it does not lead out of it. -/
def location (path : List Component) : Option (List String) :=
  path.foldlM (fun above component =>
    match component with
    | .normal name => some (name :: above)
    | .curDir => some above
    | .rootDir | .parentDir => Option.none) []

/-- The answer to an operation that leads to the tree `after`, if it can be carried out. -/
def attempt (tree : OutputTree) (after : Option OutputTree) (kind : ErrorKind) :
    Except ErrorKind Unit × OutputTree :=
  match after with
  | some after => (.ok (), after)
  | none => (.error kind, tree)

/-- An operation, as the operating system carries it out. -/
def exec (tree : OutputTree) (faults : Faults) : DirCommand → Except ErrorKind Unit × OutputTree
  | .createDir path =>
    match location path with
    | none => (.error .other, tree)
    | some location =>
      if faults.createDir then (.error .other, tree)
      else attempt tree (tree.createDir location)
        (if (tree.entry location).isSome then .alreadyExists else .other)
  | .createDirAll path =>
    match location path, faults.createDirAll with
    | none, _ => (.error .other, tree)
    | some location, some depth =>
      (.error .other, (tree.createDirAll (location.drop depth)).getD tree)
    | some location, none => attempt tree (tree.createDirAll location)
        (if (tree.entry location).isSome then .alreadyExists else .other)
  | .write path namesDirectory contents =>
    match location path, faults.write with
    | none, _ => (.error .other, tree)
    | some location, some left => (.error .other,
      (left.bind fun contents => if namesDirectory then none else tree.writeFile contents location).getD
        tree)
    | some location, none =>
      attempt tree (if namesDirectory then none else tree.writeFile contents location) .other
  | .removeDirAll path =>
    match location path with
    | none => (.error .other, tree)
    | some location =>
      if tree.entry location ≠ some .directory then (.error .other, tree)
      else match faults.removeDirAll with
        | some gone => (.error .other, tree.prune fun other => location.isSuffixOf other && gone other)
        | none => (.ok (), tree.prune fun other => other = location)

/-! ## The writer -/

/-- What a materialization can fail with. -/
inductive FsWriterError where
  | destinationExists (target : String)
  | createTarget (error : ErrorKind)
  | unsafePlanPath (path : String)
  | createParent (error : ErrorKind)
  | writeFile (error : ErrorKind)
  deriving DecidableEq

/-- A project that has been written. -/
structure MaterializedProject where
  target : ProjectTarget
  writtenFiles : List String

/-- A program of directory operations. -/
abbrev DirProgram := Program DirCommand (Except ErrorKind Unit)

/-- The path of a file must stay below its target. -/
def validateRelativePath (path : String) : Except FsWriterError Unit :=
  if path = "" ∨ isAbsolute path ∨ (components path).any (fun component =>
      component = .parentDir || component = .rootDir) then .error (.unsafePlanPath path)
  else .ok ()

/-- What a failed creation of the target means. -/
def mapTargetCreationError (target : ProjectTarget) : ErrorKind → FsWriterError
  | .alreadyExists => .destinationExists target.asStr
  | error => .createTarget error

/-- A command, its error and what comes after it. -/
def request {α : Type} (command : DirCommand) (mapError : ErrorKind → FsWriterError)
    (next : DirProgram (Except FsWriterError α)) : DirProgram (Except FsWriterError α) :=
  .call command fun answer =>
    match answer with
    | .error error => .done (.error (mapError error))
    | .ok () => next

/-- Writes the files of a plan one by one. -/
def writePlan (target : ProjectTarget) :
    List GeneratedFile → List String → DirProgram (Except FsWriterError (List String))
  | [], writtenFiles => .done (.ok writtenFiles)
  | file :: files, writtenFiles =>
    match validateRelativePath file.relativePath with
    | .error error => .done (.error error)
    | .ok () =>
      let destination := join target.asStr file.relativePath
      match parent (components destination) with
      | none => .done (.error (.unsafePlanPath file.relativePath))
      | some parent =>
        request (.createDirAll parent) .createParent
          (request (.write (components destination) (namesDirectory destination) (utf8 file.contents))
            .writeFile (writePlan target files (writtenFiles ++ [file.relativePath])))

/-- What follows the writing of the plan: after an error the directory of the target is removed. -/
def finish (target : ProjectTarget) : Except FsWriterError (List String) →
    DirProgram (Except FsWriterError MaterializedProject)
  | .ok writtenFiles => .done (.ok ⟨target, writtenFiles⟩)
  | .error error => .call (.removeDirAll (components target.asStr)) fun _ => .done (.error error)

/-- The writer's `write`. -/
def RootConfinedWriter.write (plan : GenerationPlan) (target : ProjectTarget) :
    DirProgram (Except FsWriterError MaterializedProject) :=
  .call (.createDir (components target.asStr)) fun answer =>
    match answer with
    | .error error => .done (.error (mapTargetCreationError target error))
    | .ok () => writePlan target plan.files [] >>= finish target

/-! ## Where the paths lead -/

/-- The name of the target's directory. -/
def ProjectTarget.name (target : ProjectTarget) : String :=
  match components target.asStr with
  | [.normal name] => name
  | _ => ""

/-- Where a path of a plan leads from the directory of its project. -/
def relativeLocation (path : String) : List String :=
  ((split '/' path).filter fun piece => piece ≠ "" && piece ≠ ".").reverse

/-- The path to a location below the opened directory. -/
def pathTo (names : List String) : List Component := names.reverse.map .normal

theorem components_target (target : ProjectTarget) :
    components target.asStr = [.normal target.name] := by
  have h := target.valid
  unfold isTarget at h
  simp only [Bool.and_eq_true, beq_iff_eq] at h
  obtain ⟨component, hcomponents⟩ := List.length_eq_one_iff.mp h.1.2
  have hnormal := h.2
  unfold ProjectTarget.name
  rw [hcomponents] at hnormal ⊢
  cases component with
  | normal name => rfl
  | rootDir => cases hnormal
  | curDir => cases hnormal
  | parentDir => cases hnormal

theorem ProjectTarget.ne_empty (target : ProjectTarget) : target.asStr ≠ "" := by
  have h := target.valid
  unfold isTarget at h
  simp only [Bool.and_eq_true, bne_iff_ne] at h
  exact h.1.1.1

theorem split_append_separator (base path : String) :
    split '/' (base ++ "/" ++ path) = split '/' base ++ split '/' path := by
  unfold split
  rw [String.toList_append, String.toList_append, show "/".toList = ['/'] from rfl,
    List.append_assoc, List.singleton_append, List.splitOn_append_cons_self, List.map_append]

theorem exists_split_join {base path : String} (hbase : base ≠ "") (hpath : ¬isAbsolute path) :
    ∃ pieces extra, pieces ≠ [] ∧ extra.filterMap pieceComponent = [] ∧
      split '/' base = pieces ++ extra ∧ split '/' (join base path) = pieces ++ split '/' path := by
  unfold join
  rw [if_neg hpath]
  cases hlast : base.toList.getLast? with
  | none =>
    rw [List.getLast?_eq_none_iff] at hlast
    exact absurd (String.toList_inj.mp (hlast.trans String.toList_empty.symm)) hbase
  | some last =>
    dsimp only
    by_cases hslash : last = '/'
    · rw [if_pos hslash]
      obtain ⟨front, hlist⟩ := List.getLast?_eq_some_iff.mp hlast
      have hfront : base = String.ofList front ++ "/" ++ "" := by
        rw [← String.toList_inj, hlist, hslash, String.toList_append, String.toList_append,
          String.toList_ofList, String.toList_empty, List.append_nil]
        rfl
      refine ⟨split '/' (String.ofList front), split '/' "", split_ne_nil _ _, rfl, ?_, ?_⟩
      · rw [hfront, split_append_separator]
      · rw [hfront, String.append_empty, split_append_separator]
    · rw [if_neg hslash, split_append_separator]
      exact ⟨split '/' base, [], split_ne_nil _ _, rfl, (List.append_nil _).symm, rfl⟩

theorem isAbsolute_join {base path : String} (hbase : base ≠ "") (hpath : ¬isAbsolute path) :
    isAbsolute (join base path) = isAbsolute base := by
  have hne : base.toList ≠ [] := fun hnil => hbase (String.toList_inj.mp (hnil.trans rfl))
  have happend : ∀ rest : String, isAbsolute (base ++ rest) = isAbsolute base := by
    intro rest
    unfold isAbsolute
    rw [String.toList_append, List.head?_append_of_ne_nil _ hne]
  unfold join
  rw [if_neg hpath]
  split
  · rw [List.getLast?_eq_none_iff] at *
    contradiction
  · split_ifs
    · exact happend path
    · rw [String.append_assoc, happend]

theorem components_join {base path : String} (hbase : base ≠ "") (hpath : ¬isAbsolute path) :
    components (join base path) =
      components base ++ (split '/' path).filterMap pieceComponent := by
  obtain ⟨pieces, extra, hne, hextra, hsplit, hjoin⟩ := exists_split_join hbase hpath
  unfold components
  rw [isAbsolute_join hbase hpath, hsplit, hjoin, List.head?_append_of_ne_nil _ hne,
    List.head?_append_of_ne_nil _ hne, List.filterMap_append, List.filterMap_append, hextra,
    List.append_nil, List.append_assoc]

theorem namesDirectory_join {base path : String} (hbase : base ≠ "") (hpath : ¬isAbsolute path) :
    namesDirectory (join base path) = namesDirectory path := by
  obtain ⟨pieces, -, -, -, -, hjoin⟩ := exists_split_join hbase hpath
  unfold namesDirectory
  rw [hjoin, List.getLast?_append_of_ne_nil _ (split_ne_nil _ _)]

theorem any_pieceComponent (pieces : List String) :
    ((pieces.filterMap pieceComponent).any fun component =>
      component = .parentDir || component = .rootDir) = pieces.contains ".." := by
  induction pieces with
  | nil => rfl
  | cons piece pieces ih =>
    rw [List.contains_cons, ← ih]
    by_cases hempty : piece = "" ∨ piece = "."
    · have hpiece : pieceComponent piece = none := if_pos hempty
      rw [List.filterMap_cons_none hpiece]
      rcases hempty with rfl | rfl
      · rfl
      · rfl
    · by_cases hparent : piece = ".."
      · subst hparent
        rfl
      · have hpiece : pieceComponent piece = some (.normal piece) := by
          unfold pieceComponent
          rw [if_neg hempty, if_neg hparent]
        rw [List.filterMap_cons_some hpiece, List.any_cons, beq_eq_false_iff_ne.mpr (Ne.symm hparent)]
        rfl

theorem validateRelativePath_eq_ok {path : String} : validateRelativePath path = .ok () ↔
    path ≠ "" ∧ ¬isAbsolute path ∧ ".." ∉ split '/' path := by
  have hcomponents (habsolute : ¬isAbsolute path) : (components path).any (fun component =>
      component = .parentDir || component = .rootDir) = (split '/' path).contains ".." := by
    unfold components
    rw [if_neg habsolute, List.any_append, any_pieceComponent]
    split_ifs
    · rfl
    · rfl
  unfold validateRelativePath
  split_ifs with hcond
  · refine iff_of_false (fun h => by cases h) ?_
    rintro ⟨hempty, habsolute, hparent⟩
    rw [hcomponents habsolute, List.contains_iff_mem] at hcond
    exact hcond.elim hempty fun hcond => hcond.elim habsolute hparent
  · rw [not_or, not_or] at hcond
    obtain ⟨hempty, habsolute, hparent⟩ := hcond
    rw [hcomponents habsolute, List.contains_iff_mem] at hparent
    exact iff_of_true rfl ⟨hempty, habsolute, hparent⟩

section Destination

variable {path : String} (hvalid : validateRelativePath path = .ok ())

include hvalid

/-- The components of a valid path are the names that lead to its location. -/
theorem filterMap_pieceComponent : (split '/' path).filterMap pieceComponent =
    (relativeLocation path).reverse.map Component.normal := by
  obtain ⟨-, -, hparent⟩ := validateRelativePath_eq_ok.mp hvalid
  unfold relativeLocation
  rw [List.reverse_reverse]
  generalize split '/' path = pieces at hparent
  induction pieces with
  | nil => rfl
  | cons piece pieces ih =>
    rw [List.mem_cons, not_or] at hparent
    obtain ⟨hne, hparents⟩ := hparent
    by_cases hempty : piece = "" ∨ piece = "."
    · have hpiece : pieceComponent piece = none := if_pos hempty
      have hfilter : (piece ≠ "" && piece ≠ ".") = false := by
        simpa [or_iff_not_imp_left] using hempty
      rw [List.filterMap_cons_none hpiece, List.filter_cons, hfilter, ih hparents]
      rfl
    · have hpiece : pieceComponent piece = some (.normal piece) := by
        unfold pieceComponent
        rw [if_neg hempty, if_neg (Ne.symm hne)]
      have hfilter : (piece ≠ "" && piece ≠ ".") = true := by
        simpa [not_or] using hempty
      rw [List.filterMap_cons_some hpiece, List.filter_cons, hfilter, ih hparents]
      rfl

theorem components_destination (target : ProjectTarget) : components (join target.asStr path) =
    pathTo (relativeLocation path ++ [target.name]) := by
  obtain ⟨-, habsolute, -⟩ := validateRelativePath_eq_ok.mp hvalid
  rw [components_join target.ne_empty habsolute, components_target, filterMap_pieceComponent hvalid,
    pathTo, List.reverse_append, List.map_append]
  rfl

omit hvalid in
theorem relativeLocation_ne_nil (hfile : namesDirectory path = false) :
    relativeLocation path ≠ [] := by
  intro hnil
  have hlast := List.getLast?_eq_getLast_of_ne_nil (split_ne_nil '/' path)
  unfold namesDirectory at hfile
  rw [hlast, Option.any_some] at hfile
  have hmem : (split '/' path).getLast (split_ne_nil '/' path) ∈ relativeLocation path := by
    refine List.mem_reverse.mpr (List.mem_filter.mpr ⟨List.getLast_mem _, ?_⟩)
    simpa [not_or] using hfile
  rw [hnil] at hmem
  cases hmem

end Destination

theorem location_pathTo (names : List String) : location (pathTo names) = some names := by
  have hfrom : ∀ (names above : List String), (names.map Component.normal).foldlM
      (fun above component =>
        match component with
        | .normal name => some (name :: above)
        | .curDir => some above
        | .rootDir | .parentDir => none) above = some (names.reverse ++ above) := by
    intro names
    induction names with
    | nil => exact fun above => rfl
    | cons name names ih =>
      intro above
      rw [List.map_cons, List.foldlM_cons, Option.bind_eq_bind, Option.bind_some, ih,
        List.reverse_cons, List.append_assoc, List.singleton_append]
  unfold location pathTo
  rw [hfrom, List.reverse_reverse, List.append_nil]

theorem parent_pathTo {names : List String} (hne : names ≠ []) :
    parent (pathTo names) = some (pathTo names.tail) := by
  cases names with
  | nil => exact absurd rfl hne
  | cons name names =>
    unfold parent pathTo
    rw [List.reverse_cons, List.map_append, List.map_singleton, List.getLast?_concat,
      List.dropLast_concat, List.tail_cons]

theorem writePlan_cons (target : ProjectTarget) (file : GeneratedFile) (files : List GeneratedFile)
    (writtenFiles : List String) : writePlan target (file :: files) writtenFiles =
      match validateRelativePath file.relativePath with
      | .error error => .done (.error error)
      | .ok () =>
        match parent (components (join target.asStr file.relativePath)) with
        | none => .done (.error (.unsafePlanPath file.relativePath))
        | some parent =>
          request (.createDirAll parent) .createParent
            (request (.write (components (join target.asStr file.relativePath))
              (namesDirectory (join target.asStr file.relativePath)) (utf8 file.contents))
              .writeFile (writePlan target files (writtenFiles ++ [file.relativePath]))) :=
  -- no bare rfl, which would have the equations of the recursion proved
  Eq.refl _

theorem writePlan_cons_error {target : ProjectTarget} {file : GeneratedFile}
    {error : FsWriterError} (h : validateRelativePath file.relativePath = .error error)
    (files : List GeneratedFile) (writtenFiles : List String) :
    writePlan target (file :: files) writtenFiles = .done (.error error) := by
  rw [writePlan_cons, h]

/-- A file that is placed: its directory is created first. -/
theorem writePlan_cons_ok {file : GeneratedFile} (h : validateRelativePath file.relativePath = .ok ())
    (target : ProjectTarget) (files : List GeneratedFile) (writtenFiles : List String) :
    writePlan target (file :: files) writtenFiles =
      request (.createDirAll (pathTo (relativeLocation file.relativePath ++ [target.name]).tail))
        .createParent
        (request (.write (pathTo (relativeLocation file.relativePath ++ [target.name]))
          (namesDirectory (join target.asStr file.relativePath)) (utf8 file.contents)) .writeFile
          (writePlan target files (writtenFiles ++ [file.relativePath]))) := by
  rw [writePlan_cons, h]
  dsimp only
  rw [components_destination h, parent_pathTo (List.append_ne_nil_of_right_ne_nil _ (by simp))]

/-! ## What an operation does -/

section Exec

variable (tree : OutputTree) (faults : Faults) (names : List String)

/-- A creating command changes only what its path leads through, and no directory. -/
def Disturbed (names : List String) (tree after : OutputTree) : Prop :=
  ∀ other, after.entry other = tree.entry other ∨
    (other <:+ names ∧ tree.entry other ≠ some .directory ∧ after.entry other ≠ none)

variable {tree names} in
theorem disturbed_createDirAll {after : OutputTree} {above : List String}
    (h : tree.createDirAll above = some after) (habove : above <:+ names) :
    Disturbed names tree after := by
  obtain ⟨hbefore, hentry⟩ := FileTree.entry_createDirAll h
  intro other
  rw [hentry]
  by_cases hother : other <:+ above
  · rw [if_pos hother]
    rcases hbefore other hother with hnone | hdirectory
    · refine .inr ⟨hother.trans habove, ?_, Option.some_ne_none _⟩
      rw [hnone]
      exact (Option.some_ne_none _).symm
    · exact .inl hdirectory.symm
  · rw [if_neg hother]
    exact .inl rfl

variable {tree names} in
theorem disturbed_writeFile {after : OutputTree} {contents : List UInt8}
    (h : tree.writeFile contents names = some after) : Disturbed names tree after := by
  obtain ⟨hfree, -, -, hentry⟩ := FileTree.entry_writeFile h
  intro other
  rw [hentry]
  by_cases hother : other = names
  · subst hother
    rw [Function.update_self]
    exact .inr ⟨List.suffix_rfl, hfree, Option.some_ne_none _⟩
  · exact .inl (Function.update_of_ne hother _ _)

theorem disturbed_self : Disturbed names tree tree := fun _ => .inl rfl

theorem exec_createDir :
    (∃ error, exec tree faults (.createDir (pathTo names)) = (.error error, tree) ∧
      (faults = .none → tree.entry names.tail = some .directory → names ≠ [] →
        error = .alreadyExists ∧ tree.entry names ≠ none)) ∨
    ∃ after, exec tree faults (.createDir (pathTo names)) = (.ok (), after) ∧
      tree.entry names = none ∧
      after.entry = Function.update tree.entry names (some .directory) := by
  unfold exec
  dsimp only
  rw [location_pathTo]
  dsimp only
  by_cases hfault : faults.createDir
  · rw [if_pos hfault]
    refine .inl ⟨_, rfl, fun hnone => ?_⟩
    rw [hnone] at hfault
    exact absurd hfault Bool.false_ne_true
  · rw [if_neg hfault]
    cases hafter : tree.createDir names with
    | some after => exact .inr ⟨after, rfl, FileTree.entry_createDir hafter⟩
    | none =>
      refine .inl ⟨_, rfl, fun _ hparent hne => ?_⟩
      -- with a directory to lie in, only an entry of the name is in the way
      have hexists : tree.entry names ≠ none := by
        intro hfree
        cases names with
        | nil => exact hne rfl
        | cons name names =>
          obtain ⟨after, hcreate⟩ := FileTree.exists_createDir hparent hfree
          rw [List.tail_cons, hafter] at hcreate
          cases hcreate
      exact ⟨if_pos (Option.isSome_iff_ne_none.mpr hexists), hexists⟩

theorem exec_createDirAll : ∃ answer after,
    exec tree faults (.createDirAll (pathTo names)) = (answer, after) ∧
      Disturbed names tree after ∧ (answer = .ok () → tree.createDirAll names = some after) ∧
      (faults = .none → (tree.createDirAll names).isSome → answer = .ok ()) := by
  unfold exec
  dsimp only
  rw [location_pathTo]
  cases hfault : faults.createDirAll with
  | some depth =>
    refine ⟨_, _, rfl, ?_, by rintro ⟨⟩, fun hnone => ?_⟩
    swap
    · rw [hnone] at hfault
      cases hfault
    cases hafter : tree.createDirAll (names.drop depth) with
    | none => exact disturbed_self tree names
    | some after => exact disturbed_createDirAll hafter (List.drop_suffix _ _)
  | none =>
    dsimp only
    cases hafter : tree.createDirAll names with
    | none => exact ⟨_, _, rfl, disturbed_self tree names, by rintro ⟨⟩, fun _ h => by cases h⟩
    | some after => exact ⟨_, _, rfl, disturbed_createDirAll hafter List.suffix_rfl, fun _ => rfl,
        fun _ _ => rfl⟩

theorem exec_write (asDirectory : Bool) (contents : List UInt8) : ∃ answer after,
    exec tree faults (.write (pathTo names) asDirectory contents) = (answer, after) ∧
      Disturbed names tree after ∧ (answer = .ok () → tree.writeFile contents names = some after) ∧
      (faults = .none → asDirectory = false → (tree.writeFile contents names).isSome →
        answer = .ok ()) := by
  unfold exec
  dsimp only
  rw [location_pathTo]
  cases hfault : faults.write with
  | some left =>
    refine ⟨_, _, rfl, ?_, by rintro ⟨⟩, fun hnone => ?_⟩
    swap
    · rw [hnone] at hfault
      cases hfault
    cases hafter : left.bind fun contents =>
        if asDirectory then none else tree.writeFile contents names with
    | none => exact disturbed_self tree names
    | some after =>
      obtain ⟨contents, -, hwrite⟩ := Option.bind_eq_some_iff.mp hafter
      split_ifs at hwrite
      exact disturbed_writeFile hwrite
  | none =>
    dsimp only
    cases hafter : if asDirectory then none else tree.writeFile contents names with
    | none =>
      refine ⟨_, _, rfl, disturbed_self tree names, by rintro ⟨⟩, fun _ hname hwrite => ?_⟩
      rw [if_neg (by rw [hname]; exact Bool.false_ne_true)] at hafter
      rw [hafter] at hwrite
      cases hwrite
    | some after =>
      split_ifs at hafter
      exact ⟨_, _, rfl, disturbed_writeFile hafter, fun _ => hafter, fun _ _ _ => rfl⟩

/-- A removal reaches what is below its path only, and, unless it fails, all of it. -/
theorem exec_removeDirAll (hdirectory : tree.entry names = some .directory) (hne : names ≠ []) :
    (∀ other, ¬names <:+ other →
      (exec tree faults (.removeDirAll (pathTo names))).2.entry other = tree.entry other) ∧
    (faults.removeDirAll = none → ∀ below,
      (exec tree faults (.removeDirAll (pathTo names))).2.entry (below ++ names) = none) := by
  unfold exec
  dsimp only
  rw [location_pathTo]
  dsimp only
  rw [if_neg (not_not.mpr hdirectory)]
  cases faults.removeDirAll with
  | some gone =>
    refine ⟨fun other hother => FileTree.entry_prune_of_kept fun above habove hne => ?_, by rintro ⟨⟩⟩
    rw [Bool.and_eq_true, not_and, List.isSuffixOf_iff_suffix]
    exact fun hnames => absurd (hnames.trans habove) hother
  | none =>
    refine ⟨fun other hother => FileTree.entry_prune_of_kept fun above habove hne => ?_,
      fun _ below => FileTree.entry_prune_of_gone (decide_eq_true rfl) hne below⟩
    rw [decide_eq_true_eq]
    exact fun heq => hother (heq ▸ habove)

end Exec

/-! ## The stages of a writer -/

/-- Each of the files names a file, and none lies below another one. -/
structure Compatible (files : List GeneratedFile) : Prop where
  valid : ∀ file ∈ files, validateRelativePath file.relativePath = .ok () ∧
    namesDirectory file.relativePath = false
  apart : ∀ file ∈ files, ∀ other ∈ files,
    relativeLocation file.relativePath <:+ relativeLocation other.relativePath →
      relativeLocation file.relativePath = relativeLocation other.relativePath

/-- A call of the writer: what it is to write, and where. -/
structure Writer where
  plan : GenerationPlan
  target : ProjectTarget

/-- The last command of a writer was answered, or it has not issued one yet. -/
inductive Stage where
  | waiting
  | building (written rest : List GeneratedFile)
  | placing (written : List GeneratedFile) (file : GeneratedFile) (rest : List GeneratedFile)
  | removing (error : FsWriterError)
  | failed (error : FsWriterError)

/-- The files of a plan, each with where it leads to. -/
def planFiles (files : List GeneratedFile) : List (List String × List UInt8) :=
  files.map fun file => (relativeLocation file.relativePath, utf8 file.contents)

namespace Stage

/-- What a writer has yet to do. -/
def program (writer : Writer) : Stage → DirProgram (Except FsWriterError MaterializedProject)
  | .waiting => RootConfinedWriter.write writer.plan writer.target
  | .building written rest =>
    writePlan writer.target rest (written.map GeneratedFile.relativePath) >>= finish writer.target
  | .placing written file rest =>
    request (.write (pathTo (relativeLocation file.relativePath ++ [writer.target.name]))
      (namesDirectory (join writer.target.asStr file.relativePath)) (utf8 file.contents)) .writeFile
      (writePlan writer.target rest ((written ++ [file]).map GeneratedFile.relativePath)) >>=
        finish writer.target
  | .removing error => finish writer.target (.error error)
  | .failed error => .done (.error error)

/-- The directory of the target is the writer's. -/
def Holds : Stage → Prop
  | .building _ _ | .placing _ _ _ | .removing _ => True
  | .waiting | .failed _ => False

/-- What a stage says of the entries below the target. -/
def Fits (writer : Writer) (tree : OutputTree) : Stage → Prop
  | .building written rest => writer.plan.files = written ++ rest ∧
    tree.entry [writer.target.name] = some .directory ∧
    ∀ below, tree.entry (below ++ [writer.target.name]) = FileTree.listed (planFiles written) below
  | .placing written file rest => writer.plan.files = written ++ file :: rest ∧
    validateRelativePath file.relativePath = .ok () ∧
    tree.entry [writer.target.name] = some .directory ∧
    (∀ above, above <:+ (relativeLocation file.relativePath).tail →
      FileTree.listed (planFiles written) above = none ∨
        FileTree.listed (planFiles written) above = some .directory) ∧
    ∀ below, tree.entry (below ++ [writer.target.name]) =
      if below <:+ (relativeLocation file.relativePath).tail then some .directory
      else FileTree.listed (planFiles written) below
  | .removing _ => tree.entry [writer.target.name] = some .directory
  | .waiting | .failed _ => True

/-- Nothing has gone wrong, apart from a target that was taken. -/
def Settled (writer : Writer) (tree : OutputTree) : Stage → Prop
  | .removing _ => False
  | .failed error => error = .destinationExists writer.target.asStr ∧
    tree.entry [writer.target.name] ≠ none
  | .waiting | .building _ _ | .placing _ _ _ => True

variable {writer : Writer} {tree after : OutputTree} {stage : Stage}

theorem Fits.entry_of_holds (hfits : stage.Fits writer tree) (hholds : stage.Holds) :
    tree.entry [writer.target.name] = some .directory := by
  cases stage with
  | waiting => exact hholds.elim
  | failed error => exact hholds.elim
  | building written rest => exact hfits.2.1
  | placing written file rest => exact hfits.2.2.1
  | removing error => exact hfits

theorem fits_of_not_holds (hholds : ¬stage.Holds) : stage.Fits writer tree := by
  cases stage with
  | waiting => trivial
  | failed error => trivial
  | building written rest => exact absurd trivial hholds
  | placing written file rest => exact absurd trivial hholds
  | removing error => exact absurd trivial hholds

theorem Fits.congr (hfits : stage.Fits writer tree) (hentry : ∀ below,
    after.entry (below ++ [writer.target.name]) = tree.entry (below ++ [writer.target.name])) :
    stage.Fits writer after := by
  have hself : after.entry [writer.target.name] = tree.entry [writer.target.name] := hentry []
  cases stage with
  | waiting => trivial
  | failed error => trivial
  | building written rest =>
    exact ⟨hfits.1, hself.trans hfits.2.1, fun below => (hentry below).trans (hfits.2.2 below)⟩
  | placing written file rest =>
    obtain ⟨hfiles, hvalid, hdirectory, habove, hbelow⟩ := hfits
    exact ⟨hfiles, hvalid, hself.trans hdirectory, habove,
      fun below => (hentry below).trans (hbelow below)⟩
  | removing error => exact hself.trans hfits

/-- What the command of a writer does to the entries, and the stage the writer is in afterwards. -/
structure Step (writer : Writer) (faults : Faults) (tree : OutputTree) (stage : Stage)
    (after : OutputTree) (next : Stage) : Prop where
  fits : next.Fits writer after
  outside : ∀ location, ¬[writer.target.name] <:+ location →
    after.entry location = tree.entry location
  claims : ¬stage.Holds → next.Holds → tree.entry [writer.target.name] = none
  idle : ¬stage.Holds → ¬next.Holds → after = tree
  releases : stage.Holds → ¬next.Holds → faults.removeDirAll = none →
    ∀ below, after.entry (below ++ [writer.target.name]) = none
  settles : faults = .none → Compatible writer.plan.files → stage.Settled writer tree →
    next.Settled writer after ∧ ∀ location, tree.entry location ≠ none → after.entry location ≠ none

/-- The answer to a command leads to the next stage. -/
def Advances (writer : Writer) (faults : Faults) (tree : OutputTree) (stage : Stage)
    (command : DirCommand)
    (next : Except ErrorKind Unit → DirProgram (Except FsWriterError MaterializedProject)) : Prop :=
  ∃ following, next (exec tree faults command).1 = following.program writer ∧
    Step writer faults tree stage (exec tree faults command).2 following

theorem advances_waiting (writer : Writer) (faults : Faults) (tree : OutputTree) :
    Advances writer faults tree .waiting (.createDir (components writer.target.asStr)) fun answer =>
      match answer with
      | .error error => .done (.error (mapTargetCreationError writer.target error))
      | .ok () => writePlan writer.target writer.plan.files [] >>= finish writer.target := by
  unfold Advances
  rw [components_target]
  obtain ⟨error, hexec, herror⟩ | ⟨after, hexec, hfree, hentry⟩ :=
    exec_createDir tree faults [writer.target.name]
  · change exec tree faults (.createDir [.normal writer.target.name]) = _ at hexec
    rw [hexec]
    refine ⟨.failed (mapTargetCreationError writer.target error), rfl, trivial, fun _ _ => rfl,
      fun _ h => h.elim, fun _ _ => rfl, fun h => h.elim, fun hnone _ _ => ⟨?_, fun _ h => h⟩⟩
    obtain ⟨rfl, hexists⟩ := herror hnone tree.root (List.cons_ne_nil _ _)
    exact ⟨rfl, hexists⟩
  · change exec tree faults (.createDir [.normal writer.target.name]) = _ at hexec
    rw [hexec]
    have hbelow : ∀ below, after.entry (below ++ [writer.target.name]) =
        FileTree.listed (planFiles []) below := by
      intro below
      rw [planFiles, List.map_nil, FileTree.listed_nil, hentry]
      by_cases hnil : below = []
      · rw [if_pos hnil, hnil, List.nil_append, Function.update_self]
      · have hne : below ++ [writer.target.name] ≠ [writer.target.name] := fun h =>
          hnil (List.append_cancel_right (h.trans (List.nil_append _).symm))
        rw [if_neg hnil, Function.update_of_ne hne, FileTree.entry_append_of_none hfree]
    refine ⟨.building [] writer.plan.files, rfl,
      ⟨rfl, by rw [hentry, Function.update_self], hbelow⟩, fun location hlocation => ?_,
      fun _ _ => hfree, fun _ h => absurd trivial h, fun h => h.elim,
      fun _ _ _ => ⟨trivial, fun location hlocation => ?_⟩⟩
    swap
    · rw [hentry]
      by_cases hself : location = [writer.target.name]
      · rw [hself, Function.update_self]
        exact Option.some_ne_none _
      · rwa [Function.update_of_ne hself]
    have hne : location ≠ [writer.target.name] := fun heq => hlocation (heq ▸ List.suffix_rfl)
    rw [hentry, Function.update_of_ne hne]

theorem advances_removing {error : FsWriterError} (faults : Faults) (hholds : stage.Holds)
    (hdirectory : tree.entry [writer.target.name] = some .directory)
    (hunsettled : Compatible writer.plan.files → ¬stage.Settled writer tree) :
    Advances writer faults tree stage (.removeDirAll (components writer.target.asStr))
      fun _ => .done (.error error) := by
  obtain ⟨hothers, hgone⟩ := exec_removeDirAll tree faults [writer.target.name] hdirectory (by simp)
  unfold Advances
  rw [components_target]
  exact ⟨.failed error, rfl, trivial, hothers, fun h => absurd hholds h, fun h => absurd hholds h,
    fun _ _ hfault => hgone hfault, fun _ hplan hsettled => absurd hsettled (hunsettled hplan)⟩

theorem entry_of_disturbed {names below : List String} (hdisturbed : Disturbed names tree after)
    (hnames : names <:+ below ++ [writer.target.name]) {location : List String}
    (hlocation : ¬[writer.target.name] <:+ location) :
    after.entry location = tree.entry location := by
  rcases hdisturbed location with hsame | ⟨hsuffix, hnot, -⟩
  · exact hsame
  · -- what leads to the target without being below it is the root
    rcases List.suffix_or_suffix_of_suffix (hsuffix.trans hnames) (List.suffix_append _ _) with h | h
    · rcases List.suffix_cons_iff.mp h with rfl | h
      · exact absurd List.suffix_rfl hlocation
      · rw [List.suffix_nil.mp h] at hnot
        exact absurd tree.root hnot
    · exact absurd h hlocation

/-- A writer that creates below its target goes on holding it. -/
theorem step_disturbed {names below : List String} {faults : Faults} {next : Stage}
    (hdisturbed : Disturbed names tree after) (hnames : names <:+ below ++ [writer.target.name])
    (hholds : stage.Holds) (hnext : next.Holds) (hfits : next.Fits writer after)
    (hsettled : faults = .none → Compatible writer.plan.files → next.Settled writer after) :
    Step writer faults tree stage after next where
  fits := hfits
  outside _ hlocation := entry_of_disturbed hdisturbed hnames hlocation
  claims h := absurd hholds h
  idle h := absurd hholds h
  releases _ h := absurd hnext h
  settles hfaults hplan _ := by
    refine ⟨hsettled hfaults hplan, fun location hlocation => ?_⟩
    rcases hdisturbed location with hsame | ⟨-, -, hentry⟩
    · rwa [hsame]
    · exact hentry

theorem directory_of_disturbed {names : List String} {location : List String}
    (hdisturbed : Disturbed names tree after) (hdirectory : tree.entry location = some .directory) :
    after.entry location = some .directory := by
  rcases hdisturbed location with hsame | ⟨-, hnot, -⟩
  · exact hsame.trans hdirectory
  · exact absurd hdirectory hnot

/-- What the directories of a file are when they have been created. -/
theorem entry_placing {location : List String} {files : List (List String × List UInt8)}
    (hdirectory : tree.entry [writer.target.name] = some .directory)
    (hbelow : ∀ below, tree.entry (below ++ [writer.target.name]) = FileTree.listed files below)
    (hcreate : tree.createDirAll (location ++ [writer.target.name]).tail = some after) :
    (∀ above, above <:+ location.tail →
      FileTree.listed files above = none ∨ FileTree.listed files above = some .directory) ∧
    ∀ below, after.entry (below ++ [writer.target.name]) =
      if below <:+ location.tail then some .directory else FileTree.listed files below := by
  obtain ⟨hbefore, hentry⟩ := FileTree.entry_createDirAll hcreate
  have hroot : FileTree.listed files [] = some .directory := (hbelow []).symm.trans hdirectory
  cases location with
  | nil =>
    refine ⟨fun above habove => .inr ?_, fun below => ?_⟩
    · rw [List.suffix_nil.mp habove, hroot]
    · rw [hentry, if_neg fun h => by simpa using h.length_le, hbelow]
      by_cases hnil : below <:+ ([] : List String).tail
      · rw [if_pos hnil, List.suffix_nil.mp hnil, hroot]
      · rw [if_neg hnil]
  | cons name location =>
    rw [List.cons_append, List.tail_cons] at hbefore hentry
    rw [List.tail_cons]
    have hsuffix : ∀ below : List String,
        below ++ [writer.target.name] <:+ location ++ [writer.target.name] ↔ below <:+ location := by
      refine fun below => ⟨?_, ?_⟩
      · rintro ⟨front, h⟩
        exact ⟨front, List.append_cancel_right ((List.append_assoc _ _ _).trans h)⟩
      · rintro ⟨front, h⟩
        exact ⟨front, by rw [← h, List.append_assoc]⟩
    refine ⟨fun above habove => ?_, fun below => ?_⟩
    · rw [← hbelow]
      exact hbefore _ ((hsuffix above).mpr habove)
    · rw [hentry, if_congr (hsuffix below) rfl rfl, hbelow]

/-- Nothing is in the way of a directory that a compatible plan asks for. -/
theorem isSome_createDirAll {written rest : List GeneratedFile} {file : GeneratedFile}
    (hplan : Compatible writer.plan.files)
    (hfits : (Stage.building written (file :: rest)).Fits writer tree) :
    (tree.createDirAll (relativeLocation file.relativePath ++ [writer.target.name]).tail).isSome := by
  obtain ⟨hfiles, hdirectory, hbelow⟩ := hfits
  have hfile : file ∈ writer.plan.files := by
    rw [hfiles]
    exact List.mem_append_right _ List.mem_cons_self
  refine Option.isSome_iff_exists.mpr (FileTree.exists_createDirAll fun above habove => ?_)
  have hne := relativeLocation_ne_nil (hplan.valid file hfile).2
  cases hlocation : relativeLocation file.relativePath with
  | nil => exact absurd hlocation hne
  | cons name location =>
    rw [hlocation, List.cons_append, List.tail_cons] at habove
    rcases List.suffix_concat_iff.mp habove with rfl | ⟨between, rfl, hbetween⟩
    · exact .inr tree.root
    · rw [hbelow]
      refine FileTree.listed_of_forall_ne fun other hother heq => ?_
      obtain ⟨writtenFile, hwritten, rfl⟩ := List.mem_map.mp hother
      have hmem : writtenFile ∈ writer.plan.files := by
        rw [hfiles]
        exact List.mem_append_left _ hwritten
      change relativeLocation writtenFile.relativePath = between at heq
      -- a file that were written above this one would be this one
      have hsame := hplan.apart writtenFile hmem file hfile
        (heq ▸ hlocation ▸ hbetween.trans (List.suffix_cons _ _))
      rw [hlocation, heq] at hsame
      have hlength := hbetween.length_le
      rw [hsame, List.length_cons] at hlength
      omega

theorem isSome_writeFile {written rest : List GeneratedFile} {file : GeneratedFile}
    (hplan : Compatible writer.plan.files)
    (hfits : (Stage.placing written file rest).Fits writer tree) :
    (tree.writeFile (utf8 file.contents)
      (relativeLocation file.relativePath ++ [writer.target.name])).isSome := by
  obtain ⟨hfiles, hvalid, hdirectory, habove, hbelow⟩ := hfits
  have hfile : file ∈ writer.plan.files := by
    rw [hfiles]
    exact List.mem_append_right _ List.mem_cons_self
  have hne := relativeLocation_ne_nil (hplan.valid file hfile).2
  have hself : (tree.entry (relativeLocation file.relativePath ++ [writer.target.name])).all
      Entry.isFile := by
    rw [hbelow, if_neg]
    · refine FileTree.all_isFile_listed hne fun other hother hsuffix => ?_
      obtain ⟨writtenFile, hwritten, rfl⟩ := List.mem_map.mp hother
      refine hplan.apart file hfile writtenFile ?_ hsuffix
      rw [hfiles]
      exact List.mem_append_left _ hwritten
    · intro hsuffix
      have hlength := hsuffix.length_le
      rw [List.length_tail] at hlength
      have := List.length_pos_iff.mpr hne
      omega
  refine Option.isSome_iff_exists.mpr ?_
  cases hlocation : relativeLocation file.relativePath with
  | nil => exact absurd hlocation hne
  | cons name location =>
    rw [hlocation, List.cons_append] at hself
    have hparent : tree.entry (location ++ [writer.target.name]) = some .directory := by
      rw [hbelow, hlocation, List.tail_cons, if_pos List.suffix_rfl]
    exact FileTree.exists_writeFile _ hparent hself

theorem advances_building {written rest : List GeneratedFile} {file : GeneratedFile}
    (hvalid : validateRelativePath file.relativePath = .ok ())
    (hfits : (Stage.building written (file :: rest)).Fits writer tree) (faults : Faults) :
    ∃ command next, (Stage.building written (file :: rest)).program writer = .call command next ∧
      Advances writer faults tree (.building written (file :: rest)) command next := by
  obtain ⟨hfiles, hdirectory, hbelow⟩ := id hfits
  rw [Stage.program, writePlan_cons_ok hvalid, request, Program.call_bind]
  refine ⟨_, _, rfl, ?_⟩
  unfold Advances
  obtain ⟨answer, after, hexec, hdisturbed, hcreate, hsucceeds⟩ := exec_createDirAll tree faults
    (relativeLocation file.relativePath ++ [writer.target.name]).tail
  have hkept := directory_of_disturbed hdisturbed hdirectory
  rw [hexec]
  cases answer with
  | error error =>
    refine ⟨.removing (.createParent error), rfl, step_disturbed hdisturbed (List.tail_suffix _)
      trivial trivial hkept fun hnone hplan => ?_⟩
    cases hsucceeds hnone (isSome_createDirAll hplan hfits)
  | ok done =>
    obtain ⟨habove, hentry⟩ := entry_placing hdirectory hbelow (hcreate rfl)
    refine ⟨.placing written file rest, ?_, step_disturbed hdisturbed (List.tail_suffix _) trivial
      trivial ⟨hfiles, hvalid, hkept, habove, hentry⟩ fun _ _ => trivial⟩
    rw [Stage.program, List.map_append]
    rfl

theorem advances_placing {written rest : List GeneratedFile} {file : GeneratedFile}
    (hfits : (Stage.placing written file rest).Fits writer tree) (faults : Faults) :
    ∃ command next, (Stage.placing written file rest).program writer = .call command next ∧
      Advances writer faults tree (.placing written file rest) command next := by
  obtain ⟨hfiles, hvalid, hdirectory, habove, hbelow⟩ := id hfits
  rw [Stage.program, request, Program.call_bind]
  refine ⟨_, _, rfl, ?_⟩
  unfold Advances
  obtain ⟨answer, after, hexec, hdisturbed, hwrite, hsucceeds⟩ := exec_write tree faults
    (relativeLocation file.relativePath ++ [writer.target.name])
    (namesDirectory (join writer.target.asStr file.relativePath)) (utf8 file.contents)
  have hkept := directory_of_disturbed hdisturbed hdirectory
  rw [hexec]
  cases answer with
  | error error =>
    refine ⟨.removing (.writeFile error), rfl, step_disturbed hdisturbed List.suffix_rfl trivial
      trivial hkept fun hnone hplan => ?_⟩
    have hname := (hplan.valid file (by
      rw [hfiles]
      exact List.mem_append_right _ List.mem_cons_self)).2
    rw [← namesDirectory_join writer.target.ne_empty (validateRelativePath_eq_ok.mp hvalid).2.1]
      at hname
    cases hsucceeds hnone hname (isSome_writeFile hplan hfits)
  | ok done =>
    obtain ⟨-, -, -, hentry⟩ := FileTree.entry_writeFile (hwrite rfl)
    refine ⟨.building (written ++ [file]) rest, rfl, step_disturbed hdisturbed List.suffix_rfl trivial
      trivial ⟨?_, hkept, fun below => ?_⟩ fun _ _ => trivial⟩
    · rw [hfiles, List.append_assoc, List.singleton_append]
    · rw [planFiles, List.map_append, List.map_singleton, FileTree.listed_concat habove, hentry]
      by_cases hself : below = relativeLocation file.relativePath
      · rw [if_pos hself, hself, Function.update_self]
      · have hne : below ++ [writer.target.name] ≠
            relativeLocation file.relativePath ++ [writer.target.name] :=
          fun heq => hself (List.append_cancel_right heq)
        rw [if_neg hself, Function.update_of_ne hne, hbelow]
        rfl

/-- Every command of a writer leads from a stage to a stage. -/
theorem advances {command : DirCommand}
    {next : Except ErrorKind Unit → DirProgram (Except FsWriterError MaterializedProject)}
    (hfits : stage.Fits writer tree) (hprogram : stage.program writer = .call command next)
    (faults : Faults) : Advances writer faults tree stage command next := by
  -- the stage determines the command and what follows it
  have hsame : ∀ {command' : DirCommand}
      {next' : Except ErrorKind Unit → DirProgram (Except FsWriterError MaterializedProject)},
      stage.program writer = .call command' next' →
      Advances writer faults tree stage command' next' →
      Advances writer faults tree stage command next := by
    intro command' next' hprogram' hadvances
    rw [hprogram] at hprogram'
    cases hprogram'
    exact hadvances
  cases stage with
  | waiting => exact hsame rfl (advances_waiting writer faults tree)
  | failed error => cases hprogram
  | removing error => exact hsame rfl (advances_removing faults trivial hfits fun _ h => h)
  | placing written file rest =>
    obtain ⟨command', next', hprogram', hadvances⟩ := advances_placing hfits faults
    exact hsame hprogram' hadvances
  | building written rest =>
    cases rest with
    | nil => cases hprogram
    | cons file rest =>
      cases hvalid : validateRelativePath file.relativePath with
      | error error =>
        have hprogram' : (Stage.building written (file :: rest)).program writer =
            finish writer.target (.error error) := by
          rw [Stage.program, writePlan_cons_error hvalid]
          rfl
        refine hsame hprogram' (advances_removing faults trivial hfits.2.1 fun hplan _ => ?_)
        have hok := (hplan.valid file (by
          rw [hfits.1]
          exact List.mem_append_right _ List.mem_cons_self)).1
        rw [hvalid] at hok
        cases hok
      | ok done =>
        obtain ⟨command', next', hprogram', hadvances⟩ := advances_building hvalid hfits faults
        exact hsame hprogram' hadvances

theorem eq_building_of_ok {project : MaterializedProject} (hfits : stage.Fits writer tree)
    (h : stage.program writer = .done (.ok project)) : stage = .building writer.plan.files [] ∧
      project = ⟨writer.target, writer.plan.files.map GeneratedFile.relativePath⟩ := by
  cases stage with
  | waiting => cases h
  | removing error => cases h
  | failed error => cases h
  | placing written file rest => cases h
  | building written rest =>
    cases rest with
    | nil =>
      obtain ⟨hfiles, -⟩ := hfits
      rw [List.append_nil] at hfiles
      rw [hfiles]
      cases h
      exact ⟨rfl, rfl⟩
    | cons file rest =>
      rw [Stage.program] at h
      cases hvalid : validateRelativePath file.relativePath with
      | error error =>
        rw [writePlan_cons_error hvalid] at h
        cases h
      | ok done =>
        rw [writePlan_cons_ok hvalid] at h
        cases h

theorem eq_failed_of_error {error : FsWriterError}
    (h : stage.program writer = .done (.error error)) : stage = .failed error := by
  cases stage with
  | waiting => cases h
  | removing error => cases h
  | failed error =>
    cases h
    rfl
  | placing written file rest => cases h
  | building written rest =>
    cases rest with
    | nil => cases h
    | cons file rest =>
      rw [Stage.program] at h
      cases hvalid : validateRelativePath file.relativePath with
      | error error =>
        rw [writePlan_cons_error hvalid] at h
        cases h
      | ok done =>
        rw [writePlan_cons_ok hvalid] at h
        cases h

theorem Settled.mono (hsettled : stage.Settled writer tree)
    (hkept : ∀ location, tree.entry location ≠ none → after.entry location ≠ none) :
    stage.Settled writer after := by
  cases stage with
  | waiting => trivial
  | building written rest => trivial
  | placing written file rest => trivial
  | removing error => exact hsettled
  | failed error => exact ⟨hsettled.1, hkept _ hsettled.2⟩

end Stage

/-! ## The author's plans -/

section Author

variable {tables : UnicodeTables} {blueprint : ProjectBlueprint}

end Author

end RustFactory.Project
