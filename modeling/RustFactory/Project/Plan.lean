import RustFactory.Lib.DebugText

/-!
# Projects: the plan of a workspace

A blueprint that passes validation becomes a list of files.  Two of them are TOML manifests, but their
strings are written as Rust's debug texts.
-/

namespace RustFactory.Project

open Lib

/-- The kinds of projects. -/
inductive ProjectKind where
  | library
  | binary
  deriving DecidableEq

def ProjectKind.sourceFile : ProjectKind → String
  | .library => "src/lib.rs"
  | .binary => "src/main.rs"

/-- What a project is to be. -/
structure ProjectBlueprint where
  workspaceName : String
  packageName : String
  kind : ProjectKind
  license : String
  description : Option String

/-! ## Validation -/

/-- What a finding is about. -/
inductive ValidationCode where
  | emptyField
  | invalidName
  | emptyDescription
  deriving DecidableEq

/-- How bad a finding is. -/
inductive FindingSeverity where
  | error
  | warning
  deriving DecidableEq

/-- A fault of a blueprint. -/
structure ValidationFinding where
  code : ValidationCode
  severity : FindingSeverity
  field : String
  message : String
  deriving DecidableEq

/-- The faults of a blueprint. -/
structure ValidationReport where
  findings : List ValidationFinding
  deriving DecidableEq

def ValidationReport.isValid (report : ValidationReport) : Bool :=
  !report.findings.any fun finding => finding.severity == .error

/-- The names that cargo takes, as far as the author checks. -/
def isCargoName (value : String) : Bool :=
  match utf8 value with
  | [] => false
  | first :: rest =>
    isAsciiAlphanumeric first &&
      rest.all fun byte => isAsciiAlphanumeric byte || byte == 45 || byte == 95

/-- Nothing but white space. -/
def isBlankText (value : String) : Bool := trim value == ""

def validateName (field value : String) : List ValidationFinding :=
  if isBlankText value then [⟨.emptyField, .error, field, field ++ " must not be empty"⟩]
  else if !isCargoName value then
    [⟨.invalidName, .error, field, field ++
      " must use ASCII letters, digits, '-' or '_', and start with a letter or digit"⟩]
  else []

/-- The fault of a field that must not be blank. -/
def validateRequired (field value : String) : List ValidationFinding :=
  if isBlankText value then [⟨.emptyField, .error, field, field ++ " must not be empty"⟩]
  else []

/-- The faults of a blueprint, field by field. -/
def validate (blueprint : ProjectBlueprint) : ValidationReport where
  findings := validateName "workspace_name" blueprint.workspaceName ++
    validateName "package_name" blueprint.packageName ++
    validateRequired "license" blueprint.license ++
    if blueprint.description.any isBlankText then
      [⟨.emptyDescription, .warning, "description", "description is blank and will be omitted"⟩]
    else []

/-! ## The plan -/

/-- A file to write. -/
structure GeneratedFile where
  relativePath : String
  contents : String

/-- A command that checks the project. -/
structure QualityCommand where
  program : String
  arguments : List String

/-- What is to be written for a blueprint. -/
structure GenerationPlan where
  files : List GeneratedFile
  qualityCommands : List QualityCommand

section Plan

variable (tables : UnicodeTables) (blueprint : ProjectBlueprint)

def packagePath : String := "crates/" ++ blueprint.packageName

/-- The description, if it is not blank. -/
def writtenDescription : Option String :=
  blueprint.description.filter fun description => !isBlankText description

/-- The line of the description, if there is one. -/
def descriptionLine : String :=
  match writtenDescription blueprint with
  | some description => "description = " ++ tables.debug description ++ "\n"
  | none => ""

def rootManifest : String :=
  "[workspace]\nmembers = [\"" ++ packagePath blueprint ++
  "\"]\nresolver = \"3\"\n\n[workspace.package]\nversion = \"0.1.0\"\nedition = \"2024\"\nlicense = " ++
  tables.debug blueprint.license ++ "\nrust-version = \"1.88\"\n" ++
  descriptionLine tables blueprint ++
  "\n[workspace.lints.rust]\nunsafe_code = \"forbid\"\n" ++
  "rust_2018_idioms = \x7b level = \"deny\", priority = -1 \x7d\n\n[workspace.lints.clippy]\n" ++
  "all = \x7b level = \"warn\", priority = -1 \x7d\npedantic = \x7b level = \"warn\", priority = -1 \x7d\n"

def crateManifest : String :=
  "[package]\nname = " ++ tables.debug blueprint.packageName ++
  "\nversion.workspace = true\nedition.workspace = true\nlicense.workspace = true\n" ++
  "rust-version.workspace = true\n\n[lints]\nworkspace = true\n"

def makefile : String :=
  ".PHONY: fmt fmt-check lint test check\n\nfmt:\n\tcargo fmt --all\n\nfmt-check:\n" ++
  "\tcargo fmt --all -- --check\n\nlint:\n" ++
  "\tcargo clippy --workspace --all-targets -- -D warnings\n\ntest:\n\tcargo test --workspace\n\n" ++
  "check: fmt-check lint test\n"

def source : ProjectKind → String
  | .library => "//! Generated by Rust Factory.\n"
  | .binary => "fn main() \x7b\n    println!(\"Hello from Rust Factory.\");\n\x7d\n"

def buildPlan : GenerationPlan where
  files := [⟨".gitignore", "/target\n"⟩, ⟨"Cargo.toml", rootManifest tables blueprint⟩,
    ⟨"Makefile", makefile⟩,
    ⟨"README.md", "# " ++ blueprint.workspaceName ++ "\n\nGenerated by Rust Factory.\n"⟩,
    ⟨packagePath blueprint ++ "/Cargo.toml", crateManifest tables blueprint⟩,
    ⟨packagePath blueprint ++ "/" ++ blueprint.kind.sourceFile, source blueprint.kind⟩]
  qualityCommands := [⟨"make", ["check"]⟩]

/-- The author's `plan`: the report, if it has errors, or the files. -/
def plan : Except ValidationReport GenerationPlan :=
  if (validate blueprint).isValid then .ok (buildPlan tables blueprint)
  else .error (validate blueprint)

end Plan

/-- The contents of the file at a path. -/
def GenerationPlan.contents (plan : GenerationPlan) (path : String) : Option String :=
  (plan.files.find? fun file => file.relativePath == path).map GeneratedFile.contents

/-! ## Reading the manifests -/

/-- The root manifest as its lines: the members, the license and what is around the description. -/
def rootBefore : List Toml.Expression := [.header ["workspace"]]

/-- What the manifest says of all packages, up to the licence. -/
def rootPackage : List Toml.Expression :=
  [.pair ["resolver"] (.string "3"), .blank, .header ["workspace", "package"],
    .pair ["version"] (.string "0.1.0"), .pair ["edition"] (.string "2024")]

def lint (level : String) : Toml.Value :=
  .table [(["level"], .string level), (["priority"], .integer (-1))]

def rootLints : List Toml.Expression :=
  [.blank, .header ["workspace", "lints", "rust"], .pair ["unsafe_code"] (.string "forbid"),
    .pair ["rust_2018_idioms"] (lint "deny"), .blank, .header ["workspace", "lints", "clippy"],
    .pair ["all"] (lint "warn"), .pair ["pedantic"] (lint "warn"), .blank]

section Manifests

variable {tables : UnicodeTables} {blueprint : ProjectBlueprint}

theorem expressions_before :
    Toml.expressions "[workspace]".toList = some rootBefore :=
  Toml.expressions_literal rfl

theorem expressions_package : Toml.expressions
    "resolver = \"3\"\n\n[workspace.package]\nversion = \"0.1.0\"\nedition = \"2024\"".toList =
      some rootPackage :=
  Toml.expressions_literal rfl

theorem expressions_version : Toml.expressions "rust-version = \"1.88\"".toList =
    some [.pair ["rust-version"] (.string "1.88")] :=
  Toml.expressions_literal rfl

def lintsText : String := "\n[workspace.lints.rust]\nunsafe_code = \"forbid\"\n" ++
  "rust_2018_idioms = \x7b level = \"deny\", priority = -1 \x7d\n\n[workspace.lints.clippy]\n" ++
  "all = \x7b level = \"warn\", priority = -1 \x7d\npedantic = \x7b level = \"warn\", priority = -1 \x7d\n"

set_option maxRecDepth 2000 in
theorem expressions_lints : Toml.expressions lintsText.toList = some rootLints := by
  unfold lintsText
  simp only [String.toList_append]
  repeat rw [String.toList_ofList]
  rfl

/-! ## The root manifest -/

theorem rootManifest_eq : (rootManifest tables blueprint).toList =
    "[workspace]".toList ++ '\n' :: (Toml.line "members" ('[' :: '"' ::
      ((packagePath blueprint).toList ++ '"' :: [']'])) ++ '\n' ::
    ("resolver = \"3\"\n\n[workspace.package]\nversion = \"0.1.0\"\nedition = \"2024\"".toList ++
      '\n' :: (Toml.line "license" (tables.debug blueprint.license).toList ++
      '\n' :: ("rust-version = \"1.88\"".toList ++ '\n' ::
        ((descriptionLine tables blueprint).toList ++ lintsText.toList))))) := by
  unfold rootManifest lintsText Toml.line
  simp only [String.toList_append, List.append_assoc, List.cons_append, List.nil_append]
  repeat rw [String.toList_ofList]
  simp only [List.cons_append, List.nil_append]

/-- The line of the description as it is read. -/
def descriptionPair (blueprint : ProjectBlueprint) : List Toml.Expression :=
  (writtenDescription blueprint).toList.map fun description =>
    .pair ["description"] (.string description)

/-- The manifest of the workspace as expressions. -/
def rootExpressions (blueprint : ProjectBlueprint) : List Toml.Expression :=
  rootBefore ++ (.pair ["members"] (.array [.string (packagePath blueprint)]) :: (rootPackage ++
    .pair ["license"] (.string blueprint.license) ::
    .pair ["rust-version"] (.string "1.88") :: (descriptionPair blueprint ++ rootLints)))

theorem expressions_description : Toml.expressions
    ((descriptionLine tables blueprint).toList ++ lintsText.toList) =
      if (writtenDescription blueprint).all tables.SharedText then
        some (descriptionPair blueprint ++ rootLints)
      else none := by
  unfold descriptionLine descriptionPair
  cases writtenDescription blueprint with
  | none =>
    dsimp only
    rw [Option.all_none, if_pos rfl, String.toList_empty, List.nil_append]
    exact expressions_lints
  | some description =>
    have hline : ("description = " ++ tables.debug description ++ "\n").toList ++ lintsText.toList =
        Toml.line "description" (tables.debug description).toList ++ '\n' :: lintsText.toList := by
      unfold Toml.line lintsText
      simp only [String.toList_append, List.append_assoc]
      repeat rw [String.toList_ofList]
      simp only [List.cons_append, List.nil_append]
    dsimp only
    rw [hline, Toml.expressions_append, UnicodeTables.expressions_debug (by decide +kernel),
      expressions_lints, Option.all_some]
    by_cases hshared : tables.SharedText description
    · rw [if_pos hshared, if_pos hshared]
      rfl
    · rw [if_neg hshared, if_neg hshared]
      rfl

/-- The characters that a manifest shows as they are. -/
def IsPlain (c : Char) : Prop :=
  c.toNat < 128 ∧ 32 ≤ c.toNat ∧ c.toNat ≠ 127 ∧ c ≠ '"' ∧ c ≠ '\\'

instance (c : Char) : Decidable (IsPlain c) := inferInstanceAs (Decidable (_ ∧ _))

theorem isPlain_of_isCargoName {value : String} (h : isCargoName value) :
    ∀ c ∈ value.toList, IsPlain c := by
  have hall : ∀ n : Fin 256, (isAsciiAlphanumeric (UInt8.ofNat n) || UInt8.ofNat n == 45 ||
      UInt8.ofNat n == 95) → n.val < 128 ∧ IsPlain (Char.ofNat n) := by
    decide +kernel
  refine forall_char_of_utf8
    (q := fun b => isAsciiAlphanumeric b || b == 45 || b == 95) (fun n hn => hall ⟨n, hn⟩) fun b hb => ?_
  unfold isCargoName at h
  cases hbytes : utf8 value with
  | nil =>
    rw [hbytes] at hb
    cases hb
  | cons first rest =>
    rw [hbytes] at h hb
    rw [Bool.and_eq_true, List.all_eq_true] at h
    rcases List.mem_cons.mp hb with rfl | hb
    · rw [h.1]
      rfl
    · exact h.2 b hb

theorem IsPlain.isUnescaped {c : Char} (h : IsPlain c) : Toml.isUnescaped c := by
  unfold Toml.isUnescaped
  rw [Bool.or_eq_true, Bool.and_eq_true, decide_eq_true_eq, decide_eq_true_eq, decide_eq_true_eq]
  exact .inr ⟨h.2.1, h.2.2.1⟩

theorem IsPlain.shared {c : Char} (h : IsPlain c) : tables.Shared c := by
  refine .inr (.inr (.inr ⟨?_, ?_⟩))
  · rw [tables.isPrintable_ascii c h.1, Bool.and_eq_true, decide_eq_true_eq, decide_eq_true_eq]
    exact ⟨h.2.1, h.2.2.1⟩
  · rw [tables.notExtended_ascii c h.1]
    exact Bool.false_ne_true

theorem isPlain_packagePath (h : isCargoName blueprint.packageName) :
    ∀ c ∈ (packagePath blueprint).toList, IsPlain c := by
  unfold packagePath
  rw [String.toList_append, List.forall_mem_append]
  refine ⟨?_, isPlain_of_isCargoName h⟩
  have hall : ("crates/".toList.all fun c => IsPlain c) = true := by decide +kernel
  exact fun c hc => of_decide_eq_true (List.all_eq_true.mp hall c hc)

theorem expressions_root (h : isCargoName blueprint.packageName) :
    Toml.expressions (rootManifest tables blueprint).toList =
      if tables.SharedText blueprint.license &&
          (writtenDescription blueprint).all tables.SharedText then
        some (rootExpressions blueprint)
      else none := by
  have hpath : ∀ c ∈ (packagePath blueprint).toList,
      c ≠ '"' ∧ c ≠ '\\' ∧ Toml.isUnescaped c := by
    intro c hc
    have hplain := isPlain_packagePath h c hc
    exact ⟨hplain.2.2.2.1, hplain.2.2.2.2, hplain.isUnescaped⟩
  have hline : '\n' ∉ (packagePath blueprint).toList :=
    fun hmem => absurd (hpath _ hmem).2.2 (by decide)
  rw [rootManifest_eq, Toml.expressions_append, expressions_before, Toml.expressions_append,
    Toml.expressions_array (by decide +kernel) hpath hline, Toml.expressions_append,
    expressions_package, Toml.expressions_append,
    UnicodeTables.expressions_debug (by decide +kernel), Toml.expressions_append,
    expressions_version, expressions_description, String.ofList_toList]
  cases tables.SharedText blueprint.license with
  | false => rfl
  | true =>
    cases (writtenDescription blueprint).all tables.SharedText with
    | false => rfl
    | true => rfl

/-- What the root manifest defines before the description and after it. -/
def shapesBefore : List Toml.Shape :=
  [.header ["workspace"], .pair ["members"], .pair ["resolver"], .header ["workspace", "package"],
    .pair ["version"], .pair ["edition"], .pair ["license"], .pair ["rust-version"]]

def shapesAfter : List Toml.Shape :=
  [.header ["workspace", "lints", "rust"], .pair ["unsafe_code"], .pair ["rust_2018_idioms"],
    .header ["workspace", "lints", "clippy"], .pair ["all"], .pair ["pedantic"]]

/-- What the root manifest defines, with and without a description. -/
def rootShapes : Bool → List Toml.Shape
  | true => shapesBefore ++ .pair ["description"] :: shapesAfter
  | false => shapesBefore ++ shapesAfter

example : (rootShapes true).length = (rootShapes false).length + 1 := by decide +kernel

theorem consistent_rootShapes : ∀ described, Toml.consistent (rootShapes described) := by
  decide +kernel

theorem shapes_rootExpressions : (rootExpressions blueprint).filterMap Toml.Expression.shape =
    rootShapes (writtenDescription blueprint).isSome := by
  unfold rootExpressions descriptionPair
  cases writtenDescription blueprint with
  | none => rfl
  | some description => rfl

theorem parse_root (h : isCargoName blueprint.packageName) :
    Toml.parse (rootManifest tables blueprint) =
      if tables.SharedText blueprint.license &&
          (writtenDescription blueprint).all tables.SharedText then
        some (Toml.entries [] (rootExpressions blueprint))
      else none := by
  have hread : Toml.expressions (rootManifest tables blueprint).toList = _ := expressions_root h
  split_ifs at hread ⊢
  · refine Toml.parse_eq hread ?_
    rw [shapes_rootExpressions]
    exact consistent_rootShapes _
  · exact Toml.parse_eq_none hread

theorem lookup_license : (Toml.entries [] (rootExpressions blueprint)).lookup
    ["workspace", "package", "license"] = some (.string blueprint.license) := by
  unfold rootExpressions descriptionPair
  rfl

theorem lookup_description : (Toml.entries [] (rootExpressions blueprint)).lookup
    ["workspace", "package", "description"] =
      (writtenDescription blueprint).map Toml.Value.string := by
  unfold rootExpressions descriptionPair
  cases writtenDescription blueprint with
  | none => rfl
  | some description => rfl

/-! ## The manifest of the package -/

/-- The manifest of the package after its name. -/
def crateAfter : List Toml.Expression :=
  [.pair ["version", "workspace"] (.boolean true), .pair ["edition", "workspace"] (.boolean true),
    .pair ["license", "workspace"] (.boolean true),
    .pair ["rust-version", "workspace"] (.boolean true), .blank, .header ["lints"],
    .pair ["workspace"] (.boolean true), .blank]

def crateText : String :=
  "version.workspace = true\nedition.workspace = true\nlicense.workspace = true\n" ++
  "rust-version.workspace = true\n\n[lints]\nworkspace = true\n"

theorem expressions_package_header :
    Toml.expressions "[package]".toList = some [.header ["package"]] :=
  Toml.expressions_literal rfl

set_option maxRecDepth 2000 in
theorem expressions_crateText : Toml.expressions crateText.toList = some crateAfter := by
  unfold crateText
  rw [String.toList_append]
  repeat rw [String.toList_ofList]
  rfl

theorem crateManifest_eq : (crateManifest tables blueprint).toList = "[package]".toList ++
    '\n' :: (Toml.line "name" (tables.debug blueprint.packageName).toList ++
      '\n' :: crateText.toList) := by
  unfold crateManifest crateText Toml.line
  simp only [String.toList_append, List.append_assoc, List.cons_append]
  repeat rw [String.toList_ofList]
  simp only [List.cons_append, List.nil_append]

theorem parse_crate (h : isCargoName blueprint.packageName) : ∃ document,
    Toml.parse (crateManifest tables blueprint) = some document ∧
      document.lookup ["package", "name"] = some (.string blueprint.packageName) := by
  have hshared : tables.SharedText blueprint.packageName :=
    List.all_eq_true.mpr fun c hc => decide_eq_true (isPlain_of_isCargoName h c hc).shared
  have hconsistent : Toml.consistent (.header ["package"] :: .pair ["name"] ::
      crateAfter.filterMap Toml.Expression.shape) = true := by
    decide +kernel
  have hexpressions : Toml.expressions (crateManifest tables blueprint).toList =
      some (.header ["package"] :: .pair ["name"] (.string blueprint.packageName) :: crateAfter) := by
    rw [crateManifest_eq, Toml.expressions_append, expressions_package_header,
      Toml.expressions_append, UnicodeTables.expressions_debug (by decide +kernel), if_pos hshared,
      expressions_crateText]
    rfl
  refine ⟨Toml.entries [] (.header ["package"] ::
    .pair ["name"] (.string blueprint.packageName) :: crateAfter), ?_, rfl⟩
  exact Toml.parse_eq hexpressions hconsistent

/-! ## The manifests of a plan -/

theorem find_of_ne {name path : String} (h : name ≠ path) (contents : String)
    (files : List GeneratedFile) :
    (⟨name, contents⟩ :: files).find? (fun file => file.relativePath == path) =
      files.find? fun file => file.relativePath == path :=
  List.find?_cons_of_neg fun heq => h (beq_iff_eq.mp heq)

theorem find_self (path contents : String) (files : List GeneratedFile) :
    (⟨path, contents⟩ :: files).find? (fun file => file.relativePath == path) =
      some ⟨path, contents⟩ :=
  List.find?_cons_of_pos (beq_self_eq_true path)

theorem contents_root : (buildPlan tables blueprint).contents "Cargo.toml" =
    some (rootManifest tables blueprint) := by
  unfold GenerationPlan.contents buildPlan
  have hne : ".gitignore" ≠ "Cargo.toml" := by decide +kernel
  rw [find_of_ne hne, find_self]
  rfl

theorem contents_crate : (buildPlan tables blueprint).contents
    (packagePath blueprint ++ "/Cargo.toml") = some (crateManifest tables blueprint) := by
  have hne : ∀ path : String, path.toList.head? ≠ some 'c' →
      path ≠ packagePath blueprint ++ "/Cargo.toml" := by
    rintro _ hhead rfl
    unfold packagePath at hhead
    rw [String.toList_append, String.toList_append] at hhead
    exact hhead rfl
  unfold GenerationPlan.contents buildPlan
  rw [find_of_ne (hne ".gitignore" (by decide +kernel)),
    find_of_ne (hne "Cargo.toml" (by decide +kernel)),
    find_of_ne (hne "Makefile" (by decide +kernel)),
    find_of_ne (hne "README.md" (by decide +kernel)), find_self]
  rfl

end Manifests

/-- The manifests of a plan are TOML and say what the blueprint says. -/
def ManifestsDecode (plan : GenerationPlan) (blueprint : ProjectBlueprint) : Prop :=
  (∃ document, (plan.contents "Cargo.toml").bind Toml.parse = some document ∧
    document.lookup ["workspace", "package", "license"] = some (.string blueprint.license) ∧
    ∀ description ∈ blueprint.description, ¬isBlankText description →
      document.lookup ["workspace", "package", "description"] = some (.string description)) ∧
  ∃ document,
    (plan.contents (packagePath blueprint ++ "/Cargo.toml")).bind Toml.parse = some document ∧
    document.lookup ["package", "name"] = some (.string blueprint.packageName)

theorem isCargoName_of_isValid {blueprint : ProjectBlueprint} (h : (validate blueprint).isValid) :
    isCargoName blueprint.packageName := by
  have hnone : ∀ finding ∈ validateName "package_name" blueprint.packageName,
      finding.severity ≠ .error := by
    intro finding hfinding herror
    unfold ValidationReport.isValid at h
    rw [Bool.not_eq_true', List.any_eq_false] at h
    refine h finding ?_ (beq_iff_eq.mpr herror)
    exact List.mem_append_left _ (List.mem_append_left _ (List.mem_append_right _ hfinding))
  by_contra hname
  rw [Bool.not_eq_true] at hname
  unfold validateName at hnone
  rw [hname, Bool.not_false, if_pos rfl] at hnone
  split_ifs at hnone
  · exact hnone _ List.mem_cons_self rfl
  · exact hnone _ List.mem_cons_self rfl

theorem mem_writtenDescription {blueprint : ProjectBlueprint} {description : String} :
    description ∈ writtenDescription blueprint ↔
      description ∈ blueprint.description ∧ ¬isBlankText description := by
  unfold writtenDescription
  rw [Option.mem_filter_iff, Bool.not_eq_true', Bool.not_eq_true]

/-- **A plan's manifests say what the blueprint says exactly if Rust and TOML write it alike.**  Tabs,
line feeds, carriage returns and the characters that Rust prints as they are are read back; any other
character of the license or the description, NUL among them, makes the root manifest no TOML. -/
theorem manifestsDecode_iff (tables : UnicodeTables) (blueprint : ProjectBlueprint)
    (h : (validate blueprint).isValid) : ∃ generated, plan tables blueprint = .ok generated ∧
      (ManifestsDecode generated blueprint ↔
        (∀ c ∈ blueprint.license.toList, tables.Shared c) ∧
        ∀ description ∈ blueprint.description, ¬isBlankText description →
          ∀ c ∈ description.toList, tables.Shared c) := by
  have hname := isCargoName_of_isValid h
  have hroot := @parse_root tables blueprint hname
  obtain ⟨document, hparse, hlookup⟩ := @parse_crate tables blueprint hname
  have hshared : ∀ s, tables.SharedText s = true ↔ ∀ c ∈ s.toList, tables.Shared c := by
    intro s
    unfold UnicodeTables.SharedText
    simp only [List.all_eq_true, decide_eq_true_eq]
  refine ⟨buildPlan tables blueprint, if_pos h, ?_⟩
  unfold ManifestsDecode
  rw [contents_root, contents_crate, Option.bind_some, Option.bind_some]
  constructor
  · rintro ⟨⟨root, hread, -, -⟩, -⟩
    rw [hroot] at hread
    split_ifs at hread with hboth
    rw [Bool.and_eq_true, Option.all_eq_true] at hboth
    refine ⟨(hshared _).mp hboth.1, fun description hmem hne => (hshared _).mp (hboth.2 _ ?_)⟩
    exact mem_writtenDescription.mpr ⟨hmem, hne⟩
  · rintro ⟨hlicense, hdescription⟩
    have hboth : (tables.SharedText blueprint.license &&
        (writtenDescription blueprint).all tables.SharedText) = true := by
      rw [Bool.and_eq_true, Option.all_eq_true]
      refine ⟨(hshared _).mpr hlicense, fun description hmem => (hshared _).mpr ?_⟩
      obtain ⟨hmem, hne⟩ := mem_writtenDescription.mp hmem
      exact hdescription description hmem hne
    rw [if_pos hboth] at hroot
    refine ⟨⟨_, hroot, lookup_license, fun description hmem hne => ?_⟩, document, hparse, hlookup⟩
    rw [lookup_description, mem_writtenDescription.mpr ⟨hmem, hne⟩]
    rfl

/-- The tables as far as ASCII goes; they take every wider character for a printable one. -/
def asciiTables : UnicodeTables where
  isGraphemeExtended _ := false
  isPrintable c := 32 ≤ c.toNat && c.toNat ≠ 127
  notExtended_ascii _ _ := rfl
  isPrintable_ascii _ _ := rfl

def exampleBlueprint (description : String) : ProjectBlueprint where
  workspaceName := "example-workspace"
  packageName := "example_crate"
  kind := .library
  license := "Apache-2.0"
  description := some description

example : isCargoName "example_crate" = true ∧ isCargoName "-crate" = false := by decide +kernel

/-- A description of two lines with a quoted word comes through. -/
theorem manifestsDecode_iff_example : ∃ generated,
    plan asciiTables (exampleBlueprint "A \"quoted\" word\nand a line.") = .ok generated ∧
      ManifestsDecode generated (exampleBlueprint "A \"quoted\" word\nand a line.") := by
  obtain ⟨generated, hplan, hiff⟩ := manifestsDecode_iff asciiTables
    (exampleBlueprint "A \"quoted\" word\nand a line.") (by decide +kernel)
  refine ⟨generated, hplan, hiff.mpr ⟨?_, ?_⟩⟩
  · have hall : ("Apache-2.0".toList.all fun c => asciiTables.Shared c) = true := by
      decide +kernel
    exact fun c hc => of_decide_eq_true (List.all_eq_true.mp hall c hc)
  · have hall : ("A \"quoted\" word\nand a line.".toList.all fun c => asciiTables.Shared c) =
        true := by
      decide +kernel
    rintro _ ⟨⟩ - c hc
    exact of_decide_eq_true (List.all_eq_true.mp hall c hc)

/-- An escape character in the description is admitted and spoils the root manifest: Rust writes it
`\u{1b}`, which TOML does not read. -/
theorem not_manifestsDecode_escape :
    plan asciiTables (exampleBlueprint (String.ofList [Char.ofNat 27])) =
        .ok (buildPlan asciiTables (exampleBlueprint (String.ofList [Char.ofNat 27]))) ∧
      ¬ManifestsDecode (buildPlan asciiTables (exampleBlueprint (String.ofList [Char.ofNat 27])))
        (exampleBlueprint (String.ofList [Char.ofNat 27])) := by
  refine ⟨if_pos (by decide +kernel), ?_⟩
  rintro ⟨⟨document, hread, -, -⟩, -⟩
  rw [contents_root, Option.bind_some, parse_root (by decide +kernel),
    if_neg (by decide +kernel)] at hread
  cases hread

end RustFactory.Project
