import RustFactory.Gateway.Model
import RustFactory.Lib.BTreeMap
import RustFactory.Lib.Text

/-!
# MCP: contributions and the aggregate router

A contribution declares tools under its namespace; a tool name joins a namespace and an operation by
an underscore.  The builder checks the contributions and indexes their tools by name.  The router
looks a called name up, takes it apart again and hands the call to the contribution that owns it.
-/

namespace RustFactory.Mcp

open Lib Gateway

/-! ## Names -/

def maxSegmentBytes : ℕ := 64

def isSegmentByte (byte : UInt8) : Bool :=
  isAsciiLowercase byte || isAsciiDigit byte || byte == 95

/-- The pattern `[a-z][a-z0-9_]{0,63}`. -/
def isValidSegment (candidate : String) : Bool :=
  byteLen candidate ≤ maxSegmentBytes && match utf8 candidate with
    | [] => false
    | first :: rest => isAsciiLowercase first && rest.all isSegmentByte

/-- What is wrong with a segment. -/
inductive ContractError where
  | invalidNamespace (value : String)
  | invalidOperation (value : String)
  deriving DecidableEq

/-- The first segment of tool names. -/
structure Namespace where
  asStr : String
  valid : isValidSegment asStr
  deriving DecidableEq

def Namespace.new (candidate : String) : Except ContractError Namespace :=
  if h : isValidSegment candidate then .ok ⟨candidate, h⟩ else .error (.invalidNamespace candidate)

/-- The namespace of the project's own tools. -/
def Namespace.factoryReserved : Namespace := ⟨"factory", by decide⟩

/-- The namespace is the one of the factory itself. -/
def Namespace.isFactoryReserved (ns : Namespace) : Bool := ns.asStr == "factory"

/-- A namespace and an operation, joined. -/
def Joined (name : String) : Prop :=
  ∃ (ns : Namespace) (operation : String), isValidSegment operation ∧
    name = ns.asStr ++ "_" ++ operation

/-- A namespace and an operation with an underscore between them. -/
structure ToolName where
  asStr : String
  valid : Joined asStr

/-- The tool name of an operation in a namespace. -/
def ToolName.new (ns : Namespace) (operation : String) : Except ContractError ToolName :=
  if h : isValidSegment operation then
    if maxSegmentBytes * 2 + 1 < byteLen (ns.asStr ++ "_" ++ operation) then
      .error (.invalidOperation operation)
    else
      .ok ⟨ns.asStr ++ "_" ++ operation, ns, operation, h, rfl⟩
  else
    .error (.invalidOperation operation)

/-! ## Contributions -/

abbrev Members := List (String × Json)

/-- A tool as its contribution declares it. -/
structure ToolDescriptor where
  name : ToolName
  title : Option String
  description : String
  inputSchema : Members
  outputSchema : Option Members

/-- What a dispatched call comes to. -/
structure DispatchOutcome where
  payload : Json
  isError : Bool

/-- What a dispatch can fail with. -/
inductive DispatchError where
  | unknownTool
  | malformedArguments (message : String)
  | internal

/-- The tools of a namespace with their dispatch. -/
structure HandlerContribution where
  «namespace» : Namespace
  tools : List ToolDescriptor
  dispatch : ToolName → Json → Except DispatchError DispatchOutcome

/-! ## Registration -/

def maxContributions : ℕ := 32
def maxTools : ℕ := 256
def maxAggregateSchemaBytes : ℕ := 32 * 1024

/-- Why a router cannot be built. -/
inductive AggregateBuildError where
  | reservedNamespace (value : String)
  | nonReservedProjectMetaNamespace (value : String)
  | duplicateNamespace (value : String)
  | duplicateToolName (name : String)
  | toolNameNamespaceMismatch (tool value : String)
  | tooManyContributions (found max : ℕ)
  | tooManyTools (found max : ℕ)
  | schemaBudgetExceeded (bytes max : ℕ)
  deriving DecidableEq

/-- The tool as it is listed. -/
structure Tool where
  name : String
  title : Option String
  description : String
  inputSchema : Members
  outputSchema : Option Members

/-- The tool as the protocol lists it. -/
def ToolDescriptor.tool (descriptor : ToolDescriptor) : Tool :=
  ⟨descriptor.name.asStr, descriptor.title, descriptor.description, descriptor.inputSchema,
    descriptor.outputSchema⟩

/-- The bytes of a tool that count against the budget. -/
def ToolDescriptor.schemaBytes (serde : Serde) (descriptor : ToolDescriptor) : ℕ :=
  byteLen descriptor.name.asStr + byteLen descriptor.description +
    (descriptor.title.map byteLen).getD 0 +
    byteLen (serde.print (.object descriptor.inputSchema)) +
    (descriptor.outputSchema.map fun schema => byteLen (serde.print (.object schema))).getD 0

/-- A tool with the contribution that it comes from. -/
structure RegisteredTool where
  tool : Tool
  contributionIndex : ℕ

/-- The contribution at the index declares the tool. -/
def Declares (contributions : List HandlerContribution) (index : ℕ) (tool : Tool) : Prop :=
  ∃ contribution descriptor, contributions[index]? = some contribution ∧
    descriptor ∈ contribution.tools ∧ descriptor.tool = tool

/-- The loop over the tools of one contribution. -/
def registerTools (serde : Serde) (ns : Namespace) (index : ℕ) :
    List ToolDescriptor → BTreeMap String RegisteredTool × ℕ →
      Except AggregateBuildError (BTreeMap String RegisteredTool × ℕ)
  | [], registered => .ok registered
  | descriptor :: descriptors, (owners, schemaBytes) =>
    if !(ns.asStr ++ "_").toList.isPrefixOf descriptor.name.asStr.toList then
      .error (.toolNameNamespaceMismatch descriptor.name.asStr ns.asStr)
    else if (owners[descriptor.name.asStr]?).isSome then
      .error (.duplicateToolName descriptor.name.asStr)
    else
      registerTools serde ns index descriptors
        (owners.insert descriptor.name.asStr ⟨descriptor.tool, index⟩,
          schemaBytes + descriptor.schemaBytes serde)

theorem registerTools_owners {serde : Serde} {ns : Namespace} {index : ℕ}
    {descriptors : List ToolDescriptor} {registered result : BTreeMap String RegisteredTool × ℕ}
    (h : registerTools serde ns index descriptors registered = .ok result) (name : String)
    (entry : RegisteredTool) :
    result.1[name]? = some entry ↔ registered.1[name]? = some entry ∨
      ∃ descriptor ∈ descriptors, descriptor.name.asStr = name ∧
        entry = ⟨descriptor.tool, index⟩ := by
  induction descriptors generalizing registered with
  | nil =>
    cases h
    simp only [List.not_mem_nil, false_and, exists_false, or_false]
  | cons descriptor descriptors ih =>
    obtain ⟨owners, schemaBytes⟩ := registered
    unfold registerTools at h
    split_ifs at h with hmatch hnew
    rw [ih h, List.exists_mem_cons_iff, ← or_assoc]
    refine or_congr_left ?_
    by_cases hname : descriptor.name.asStr = name
    · subst hname
      have hnone : owners[descriptor.name.asStr]? = none := by simpa using hnew
      rw [Std.ExtTreeMap.getElem?_insert_self, hnone, Option.some.injEq]
      simp only [reduceCtorEq, false_or, true_and, eq_comm]
    · rw [BTreeMap.getElem?_insert_of_ne hname]
      simp only [hname, false_and, or_false]

theorem declares_concat {contributions : List HandlerContribution}
    {contribution : HandlerContribution} {index : ℕ} {tool : Tool} :
    Declares (contributions ++ [contribution]) index tool ↔
      Declares contributions index tool ∨
        index = contributions.length ∧ ∃ descriptor ∈ contribution.tools, descriptor.tool = tool := by
  unfold Declares
  rcases lt_trichotomy index contributions.length with hlt | rfl | hgt
  · rw [List.getElem?_append_left hlt]
    exact ⟨Or.inl, Or.rec id fun h => absurd h.1 hlt.ne⟩
  · rw [List.getElem?_concat_length, List.getElem?_eq_none le_rfl]
    simp only [Option.some.injEq, reduceCtorEq, false_and, exists_false, false_or, true_and]
    constructor
    · rintro ⟨_, descriptor, rfl, h⟩
      exact ⟨descriptor, h⟩
    · rintro ⟨descriptor, h⟩
      exact ⟨_, descriptor, rfl, h⟩
  · rw [List.getElem?_eq_none (by rw [List.length_append, List.length_singleton]; omega),
      List.getElem?_eq_none hgt.le]
    simp only [reduceCtorEq, false_and, exists_false, false_or, hgt.ne']

/-- Every registered tool stands under its name with the index of the contribution that declares it,
and every declared tool is registered. -/
def Indexed (contributions : List HandlerContribution) (owners : BTreeMap String RegisteredTool) :
    Prop :=
  ∀ (name : String) (entry : RegisteredTool), owners[name]? = some entry ↔
    entry.tool.name = name ∧ Declares contributions entry.contributionIndex entry.tool

/-- The state of the builder's loops. -/
structure Registration where
  contributions : List HandlerContribution
  seenNamespaces : List String
  owners : BTreeMap String RegisteredTool
  schemaBytes : ℕ
  indexed : Indexed contributions owners

theorem indexed_empty : Indexed [] ∅ := by
  intro name entry
  rw [Std.ExtTreeMap.getElem?_empty]
  refine ⟨nofun, ?_⟩
  rintro ⟨-, contribution, descriptor, hcontribution, -⟩
  cases hcontribution

theorem indexed_concat {serde : Serde} {ns : Namespace} {contributions : List HandlerContribution}
    {contribution : HandlerContribution} {registered result : BTreeMap String RegisteredTool × ℕ}
    (hindexed : Indexed contributions registered.1)
    (h : registerTools serde ns contributions.length contribution.tools registered = .ok result) :
    Indexed (contributions ++ [contribution]) result.1 := by
  intro name entry
  rw [registerTools_owners h, hindexed, declares_concat, and_or_left]
  refine or_congr_right ?_
  constructor
  · rintro ⟨descriptor, hmem, rfl, rfl⟩
    exact ⟨rfl, rfl, descriptor, hmem, rfl⟩
  · rintro ⟨rfl, hindex, descriptor, hmem, htool⟩
    obtain ⟨tool, index⟩ := entry
    cases hindex
    cases htool
    exact ⟨descriptor, hmem, rfl, rfl⟩

/-- Registers the tools of a contribution. -/
def registerContribution (serde : Serde) (registration : Registration)
    (contribution : HandlerContribution) : Except AggregateBuildError Registration :=
  if registration.seenNamespaces.contains contribution.namespace.asStr then
    .error (.duplicateNamespace contribution.namespace.asStr)
  else
    match h : registerTools serde contribution.namespace registration.contributions.length
      contribution.tools (registration.owners, registration.schemaBytes) with
    | .error e => .error e
    | .ok registered =>
      .ok ⟨registration.contributions ++ [contribution],
        contribution.namespace.asStr :: registration.seenNamespaces, registered.1, registered.2,
        indexed_concat registration.indexed h⟩

/-! ## The router -/

/-- The contributions of a router, those of the project itself apart. -/
structure AggregateRouterBuilder where
  bricks : List HandlerContribution
  projectMeta : List HandlerContribution

/-- A router: the tools, and to which contribution each belongs. -/
structure AggregateRouter where
  toolsCache : List Tool
  toolOwnerByName : BTreeMap String ℕ
  contributions : List HandlerContribution
  owned : ∀ (name : String) (index : ℕ), toolOwnerByName[name]? = some index →
    index < contributions.length

theorem Declares.lt_length {contributions : List HandlerContribution} {index : ℕ} {tool : Tool}
    (h : Declares contributions index tool) : index < contributions.length := by
  obtain ⟨contribution, descriptor, hget, -⟩ := h
  exact (List.getElem?_eq_some_iff.mp hget).1

/-- The index of the owner by name. -/
def ownerIndices (owners : BTreeMap String RegisteredTool) : BTreeMap String ℕ :=
  owners.map fun _ entry => entry.contributionIndex

theorem ownerIndices_lt {contributions : List HandlerContribution}
    {owners : BTreeMap String RegisteredTool} (h : Indexed contributions owners) (name : String)
    (index : ℕ) (hget : (ownerIndices owners)[name]? = some index) :
    index < contributions.length := by
  unfold ownerIndices at hget
  rw [Std.ExtTreeMap.getElem?_map] at hget
  obtain ⟨entry, hentry, rfl⟩ := Option.map_eq_some_iff.mp hget
  exact ((h name entry).mp hentry).2.lt_length

/-- The router of all contributions, the tools in the order of their names. -/
def AggregateRouterBuilder.build (serde : Serde) (builder : AggregateRouterBuilder) :
    Except AggregateBuildError AggregateRouter := do
  let totalContributions := builder.bricks.length + builder.projectMeta.length
  if maxContributions < totalContributions then
    .error (.tooManyContributions totalContributions maxContributions)
  else
    let registration ← builder.bricks.foldlM (fun registration contribution =>
      if contribution.namespace.isFactoryReserved then
        .error (.reservedNamespace contribution.namespace.asStr)
      else registerContribution serde registration contribution) ⟨[], [], ∅, 0, indexed_empty⟩
    let registration ← builder.projectMeta.foldlM (fun registration contribution =>
      if !contribution.namespace.isFactoryReserved then
        .error (.nonReservedProjectMetaNamespace contribution.namespace.asStr)
      else registerContribution serde registration contribution) registration
    if maxTools < registration.owners.size then
      .error (.tooManyTools registration.owners.size maxTools)
    else if maxAggregateSchemaBytes < registration.schemaBytes then
      .error (.schemaBudgetExceeded registration.schemaBytes maxAggregateSchemaBytes)
    else
      .ok
        { toolsCache := (registration.owners.values.map RegisteredTool.tool).mergeSort
            fun left right => decide (left.name ≤ right.name)
          toolOwnerByName := ownerIndices registration.owners
          contributions := registration.contributions
          owned := ownerIndices_lt registration.indexed }

namespace AggregateRouter

def toolNames (router : AggregateRouter) : List String := router.toolsCache.map Tool.name

/-- The tools as the protocol lists them. -/
def listTools (router : AggregateRouter) : List Tool := router.toolsCache

end AggregateRouter

/-! ## Calls -/

/-- What stands before the first underscore, as a namespace. -/
def namespaceOf (toolName : String) : Namespace :=
  match Namespace.new (splitn2 '_' toolName).1 with
  | .ok ns => ns
  | .error _ => .factoryReserved

/-- What stands after the first underscore. -/
def operationOf (toolName : String) : String := (splitn2 '_' toolName).2.getD toolName

/-- The errors of the protocol; the message of the first one quotes the name. -/
inductive ErrorData where
  | methodNotFound (name : String)
  | invalidParams (message : String)
  | internalError (message : String)
  deriving DecidableEq

/-- A call of a tool. -/
structure CallToolRequest where
  name : String
  arguments : Option Members

/-- One text block, as a result or as an error of the tool. -/
structure CallToolResult where
  content : String
  isError : Bool
  deriving DecidableEq

/-- A call of a contribution. -/
structure Dispatch where
  contributionIndex : ℕ
  tool : ToolName
  arguments : Json

/-- The answer to a call from what the contribution returned. -/
def callResult (serde : Serde) (name : String) :
    Except DispatchError DispatchOutcome → Except ErrorData CallToolResult
  | .ok outcome => .ok ⟨serde.print outcome.payload, outcome.isError⟩
  | .error .unknownTool => .error (.methodNotFound name)
  | .error (.malformedArguments message) => .error (.invalidParams message)
  | .error .internal => .error (.internalError "internal dispatch failure")

/-- `call_tool`, with the calls of contributions that it made. -/
def AggregateRouter.callTool (serde : Serde) (router : AggregateRouter) (request : CallToolRequest) :
    Except ErrorData CallToolResult × List Dispatch :=
  match h : router.toolOwnerByName[request.name]? with
  | none => (.error (.methodNotFound request.name), [])
  | some contributionIndex =>
    match ToolName.new (namespaceOf request.name) (operationOf request.name) with
    | .error _ => (.error (.internalError "malformed registered tool name"), [])
    | .ok toolName =>
      let arguments := Json.object (request.arguments.getD [])
      let contribution := router.contributions.get ⟨contributionIndex, router.owned _ _ h⟩
      (callResult serde request.name (contribution.dispatch toolName arguments),
        [⟨contributionIndex, toolName, arguments⟩])

end RustFactory.Mcp
