import RustFactory.Mcp.Router

/-!
# MCP: which listed tools can be called

The router takes a called name apart at its first underscore, but the namespace of a tool may hold
underscores itself.  What stands after the first underscore is then not the operation; if it is not
even a valid segment, the tool is listed and no call of it reaches a contribution.
-/

namespace RustFactory.Mcp

open Lib Gateway

/-! ## Segments -/

theorem isValidSegment_iff {value : String} :
    isValidSegment value ↔ byteLen value ≤ maxSegmentBytes ∧
      (∃ first ∈ (utf8 value).head?, isAsciiLowercase first) ∧
      ∀ byte ∈ utf8 value, isSegmentByte byte := by
  unfold isValidSegment
  rw [Bool.and_eq_true, decide_eq_true_eq]
  refine and_congr_right fun _ => ?_
  cases utf8 value with
  | nil => simp
  | cons first rest =>
    simp only [Bool.and_eq_true, List.all_eq_true, List.head?_cons, Option.mem_some_iff,
      exists_eq_left', List.forall_mem_cons]
    refine and_congr_right fun hfirst => ?_
    have hsegment : isSegmentByte first := by
      unfold isSegmentByte
      rw [hfirst, Bool.true_or, Bool.true_or]
    exact ⟨fun hrest => ⟨hsegment, hrest⟩, fun hall => hall.2⟩

theorem utf8_ne_nil {value : String} (h : value ≠ "") : utf8 value ≠ [] :=
  fun hnil => h (utf8_injective hnil)

theorem isValidSegment_append {a b : String} (h : isValidSegment (a ++ b)) (hne : a ≠ "") :
    isValidSegment a := by
  rw [isValidSegment_iff] at h ⊢
  obtain ⟨hlen, ⟨first, hfirst, hlower⟩, hall⟩ := h
  unfold byteLen at hlen ⊢
  rw [utf8_append] at hlen hfirst hall
  rw [List.length_append] at hlen
  refine ⟨by omega, ⟨first, ?_, hlower⟩, fun byte hbyte => hall byte (List.mem_append_left _ hbyte)⟩
  rw [← List.head?_append_of_ne_nil _ (utf8_ne_nil hne)]
  exact hfirst

/-- What a joined name consists of, taken apart at its first underscore. -/
theorem joined_split {name : String} (h : Joined name) :
    ∃ head tail : String, '_' ∉ head.toList ∧ name = head ++ "_" ++ tail ∧ isValidSegment head ∧
      ∀ byte ∈ utf8 tail, isSegmentByte byte := by
  obtain ⟨ns, operation, hoperation, rfl⟩ := h
  have hall := (isValidSegment_iff.mp hoperation).2.2
  by_cases hmem : '_' ∈ ns.asStr.toList
  · obtain ⟨a, b, hsplit, hfirst⟩ := List.eq_append_cons_of_mem hmem
    have hns : ns.asStr = String.ofList a ++ ("_" ++ String.ofList b) := by
      rw [← String.toList_inj, hsplit]
      simp
    have hvalid := ns.valid
    rw [hns] at hvalid
    obtain ⟨-, ⟨first, hstart, hlower⟩, hbytes⟩ := isValidSegment_iff.mp hvalid
    rw [utf8_append, utf8_append] at hstart hbytes
    refine ⟨String.ofList a, String.ofList b ++ "_" ++ operation, ?_, ?_, ?_, ?_⟩
    · rwa [String.toList_ofList]
    · rw [hns]
      simp only [String.append_assoc]
    · refine isValidSegment_append hvalid fun hempty => ?_
      -- a namespace does not start with an underscore
      rw [hempty] at hstart
      cases hstart
      exact absurd hlower (by decide)
    · intro byte hbyte
      rw [utf8_append, utf8_append, List.mem_append, List.mem_append] at hbyte
      rcases hbyte with (hbyte | hbyte) | hbyte
      · exact hbytes byte (List.mem_append_right _ (List.mem_append_right _ hbyte))
      · exact hbytes byte (List.mem_append_right _ (List.mem_append_left _ hbyte))
      · exact hall byte hbyte
  · exact ⟨ns.asStr, operation, hmem, rfl, ns.valid, hall⟩

/-- What stands after the first underscore of the name is at most one segment long and starts with a
lowercase letter. -/
def Recoverable (name : String) : Prop :=
  ∀ head tail : String, name = head ++ "_" ++ tail → '_' ∉ head.toList →
    byteLen tail ≤ maxSegmentBytes ∧ ∃ first ∈ (utf8 tail).head?, isAsciiLowercase first

theorem splitn2_underscore {head : String} (h : '_' ∉ head.toList) (tail : String) :
    splitn2 '_' (head ++ "_" ++ tail) = (head, some tail) := splitn2_of_mem h tail

theorem recoverable_iff {head tail : String} (h : '_' ∉ head.toList) :
    Recoverable (head ++ "_" ++ tail) ↔
      byteLen tail ≤ maxSegmentBytes ∧ ∃ first ∈ (utf8 tail).head?, isAsciiLowercase first := by
  refine ⟨fun hname => hname head tail rfl h, fun htail head' tail' heq h' => ?_⟩
  have hsplit := splitn2_underscore h' tail'
  rw [← heq, splitn2_underscore h tail] at hsplit
  cases hsplit
  exact htail

/-- Taking a name apart and joining the parts again gives the name back exactly if it is
recoverable, and fails otherwise. -/
theorem new_namespaceOf_operationOf {name : String} (h : Joined name) :
    (Recoverable name → ∃ toolName : ToolName, toolName.asStr = name ∧
      ToolName.new (namespaceOf name) (operationOf name) = .ok toolName) ∧
    (¬Recoverable name →
      ∃ e, ToolName.new (namespaceOf name) (operationOf name) = .error e) := by
  obtain ⟨head, tail, hhead, rfl, hvalid, hbytes⟩ := joined_split h
  have hns : namespaceOf (head ++ "_" ++ tail) = ⟨head, hvalid⟩ := by
    unfold namespaceOf Namespace.new
    rw [splitn2_underscore hhead]
    simp only [hvalid, dif_pos]
  have hoperation : operationOf (head ++ "_" ++ tail) = tail := by
    unfold operationOf
    rw [splitn2_underscore hhead]
    rfl
  have hsegment : isValidSegment tail ↔ Recoverable (head ++ "_" ++ tail) := by
    rw [recoverable_iff hhead, isValidSegment_iff]
    exact ⟨fun h => ⟨h.1, h.2.1⟩, fun h => ⟨h.1, h.2, hbytes⟩⟩
  rw [hns, hoperation, ← hsegment]
  unfold ToolName.new
  constructor
  · intro htail
    have hlen : ¬maxSegmentBytes * 2 + 1 < byteLen (head ++ "_" ++ tail) := by
      have hheadLen := (isValidSegment_iff.mp hvalid).1
      have htailLen := (isValidSegment_iff.mp htail).1
      have hunderscore : (utf8 "_").length = 1 := rfl
      unfold byteLen at hheadLen htailLen ⊢
      rw [utf8_append, utf8_append, List.length_append, List.length_append, hunderscore]
      omega
    rw [dif_pos htail, if_neg hlen]
    exact ⟨_, rfl, rfl⟩
  · intro htail
    rw [dif_neg htail]
    exact ⟨_, rfl⟩

/-! ## The index -/

/-- The contribution at the index declares a tool of the name. -/
def DeclaredBy (contributions : List HandlerContribution) (index : ℕ) (name : String) : Prop :=
  ∃ tool, Declares contributions index tool ∧ tool.name = name

section Index

variable {contributions : List HandlerContribution} {owners : BTreeMap String RegisteredTool}

theorem Indexed.getElem?_ownerIndices (h : Indexed contributions owners) {name : String}
    {index : ℕ} : (ownerIndices owners)[name]? = some index ↔
      DeclaredBy contributions index name := by
  unfold ownerIndices DeclaredBy
  rw [Std.ExtTreeMap.getElem?_map, Option.map_eq_some_iff]
  constructor
  · rintro ⟨entry, hentry, rfl⟩
    obtain ⟨hname, hdeclares⟩ := (h name entry).mp hentry
    exact ⟨entry.tool, hdeclares, hname⟩
  · rintro ⟨tool, hdeclares, hname⟩
    exact ⟨⟨tool, index⟩, (h name ⟨tool, index⟩).mpr ⟨hname, hdeclares⟩, rfl⟩

theorem Indexed.mem_names (h : Indexed contributions owners) {name : String} :
    name ∈ (owners.values.map RegisteredTool.tool).map Tool.name ↔
      ∃ index, DeclaredBy contributions index name := by
  rw [List.map_map, List.mem_map]
  constructor
  · rintro ⟨entry, hentry, rfl⟩
    obtain ⟨key, hkey⟩ := BTreeMap.mem_values.mp hentry
    exact ⟨entry.contributionIndex, entry.tool, ((h key entry).mp hkey).2, rfl⟩
  · rintro ⟨index, tool, hdeclares, hname⟩
    have hget := (h name ⟨tool, index⟩).mpr ⟨hname, hdeclares⟩
    exact ⟨⟨tool, index⟩, BTreeMap.mem_values.mpr ⟨name, hget⟩, hname⟩

end Index

theorem registerContribution_contributions {serde : Serde} {registration result : Registration}
    {contribution : HandlerContribution}
    (h : registerContribution serde registration contribution = .ok result) :
    result.contributions = registration.contributions ++ [contribution] := by
  unfold registerContribution at h
  split_ifs at h
  split at h
  · cases h
  · cases h
    rfl

theorem foldlM_contributions
    {register : Registration → HandlerContribution → Except AggregateBuildError Registration}
    (hregister : ∀ registration contribution result,
      register registration contribution = .ok result →
        result.contributions = registration.contributions ++ [contribution])
    {contributions : List HandlerContribution} {registration result : Registration}
    (h : contributions.foldlM register registration = .ok result) :
    result.contributions = registration.contributions ++ contributions := by
  refine foldlM_invariant (P := fun done next => next.contributions =
    registration.contributions ++ done) h (List.append_nil _).symm fun done x c d hc hd => ?_
  rw [hregister c x d hd, hc, List.append_assoc]

/-- What the router holds, and from which index it was made. -/
theorem build_eq_ok {serde : Serde} {builder : AggregateRouterBuilder} {router : AggregateRouter}
    (h : builder.build serde = .ok router) :
    router.contributions = builder.bricks ++ builder.projectMeta ∧
      ∃ owners : BTreeMap String RegisteredTool, Indexed router.contributions owners ∧
        router.toolOwnerByName = ownerIndices owners ∧
        router.toolsCache.Perm (owners.values.map RegisteredTool.tool) := by
  unfold AggregateRouterBuilder.build at h
  simp only at h
  split_ifs at h
  obtain ⟨bricks, hbricks, h⟩ := bind_eq_ok.mp h
  obtain ⟨registration, hmeta, h⟩ := bind_eq_ok.mp h
  split_ifs at h
  cases h
  have hfirst := foldlM_contributions (fun _ _ _ hresult => by
    split_ifs at hresult
    exact registerContribution_contributions hresult) hbricks
  have hsecond := foldlM_contributions (fun _ _ _ hresult => by
    split_ifs at hresult
    exact registerContribution_contributions hresult) hmeta
  have hcontributions : registration.contributions = builder.bricks ++ builder.projectMeta := by
    rw [hsecond, hfirst, List.nil_append]
  exact ⟨hcontributions, registration.owners, registration.indexed, rfl, List.mergeSort_perm _ _⟩

/-! ## Calls -/

/-- The router shows the name to its clients. -/
def AggregateRouter.Listed (router : AggregateRouter) (name : String) : Prop :=
  name ∈ router.toolNames ∨ ∃ tool ∈ router.listTools, tool.name = name

/-- Every call of a listed name is dispatched once, to the one contribution that declares it and
under that name, and a call of another name is not dispatched. -/
def Routes (serde : Serde) (contributions : List HandlerContribution) (router : AggregateRouter) :
    Prop :=
  (∀ name, router.Listed name → ∀ arguments : Option Members,
    ∃ (index : ℕ) (toolName : ToolName), DeclaredBy contributions index name ∧
      (∀ other, DeclaredBy contributions other name → other = index) ∧ toolName.asStr = name ∧
      (router.callTool serde ⟨name, arguments⟩).2 =
        [⟨index, toolName, .object (arguments.getD [])⟩]) ∧
  ∀ name, ¬router.Listed name → ∀ arguments : Option Members,
    (router.callTool serde ⟨name, arguments⟩).2 = []

theorem callTool_of_not_owned {serde : Serde} {router : AggregateRouter} {name : String}
    (h : router.toolOwnerByName[name]? = none) (arguments : Option Members) :
    (router.callTool serde ⟨name, arguments⟩).2 = [] := by
  unfold AggregateRouter.callTool
  split
  · rfl
  · next index hindex => exact absurd (h.symm.trans hindex) nofun

/-- A name with an owner reaches it if the name can be put together again, and nobody otherwise. -/
theorem callTool_of_owned {serde : Serde} {router : AggregateRouter} {name : String} {index : ℕ}
    (h : router.toolOwnerByName[name]? = some index) (arguments : Option Members) :
    (router.callTool serde ⟨name, arguments⟩).2 =
      match ToolName.new (namespaceOf name) (operationOf name) with
      | .error _ => []
      | .ok toolName => [⟨index, toolName, .object (arguments.getD [])⟩] := by
  unfold AggregateRouter.callTool
  split
  · next hnone => exact absurd (h.symm.trans hnone) nofun
  · next index' hindex =>
    cases Option.some.inj (h.symm.trans hindex)
    dsimp only
    cases ToolName.new (namespaceOf name) (operationOf name) with
    | error e => rfl
    | ok toolName => rfl

section Build

variable {serde : Serde} {builder : AggregateRouterBuilder} {router : AggregateRouter}

theorem build_listed_iff (h : builder.build serde = .ok router) {name : String} :
    router.Listed name ↔ ∃ index, DeclaredBy router.contributions index name := by
  obtain ⟨-, owners, hindexed, -, hcache⟩ := build_eq_ok h
  rw [← hindexed.mem_names, ← (hcache.map Tool.name).mem_iff]
  unfold AggregateRouter.Listed AggregateRouter.toolNames AggregateRouter.listTools
  rw [← List.mem_map, or_self]

theorem build_owner_iff (h : builder.build serde = .ok router) {name : String} {index : ℕ} :
    router.toolOwnerByName[name]? = some index ↔ DeclaredBy router.contributions index name := by
  obtain ⟨-, owners, hindexed, howner, -⟩ := build_eq_ok h
  rw [howner, hindexed.getElem?_ownerIndices]

/-- A call of a declared name that is not recoverable reaches no contribution. -/
theorem callTool_of_not_recoverable (h : builder.build serde = .ok router) {index : ℕ}
    {descriptor : ToolDescriptor}
    (hdeclares : Declares router.contributions index descriptor.tool)
    (hname : ¬Recoverable descriptor.name.asStr) (arguments : Option Members) :
    (router.callTool serde ⟨descriptor.name.asStr, arguments⟩).2 = [] := by
  obtain ⟨e, herror⟩ := (new_namespaceOf_operationOf descriptor.name.valid).2 hname
  have howner : router.toolOwnerByName[descriptor.name.asStr]? = some index :=
    (build_owner_iff h).mpr ⟨_, hdeclares, rfl⟩
  rw [callTool_of_owned howner, herror]

/-- A call of a declared name that is recoverable reaches the contribution under that name. -/
theorem callTool_of_recoverable (h : builder.build serde = .ok router) {index : ℕ}
    {descriptor : ToolDescriptor}
    (hdeclares : Declares router.contributions index descriptor.tool)
    (hname : Recoverable descriptor.name.asStr) (arguments : Option Members) :
    ∃ toolName : ToolName, toolName.asStr = descriptor.name.asStr ∧
      (router.callTool serde ⟨descriptor.name.asStr, arguments⟩).2 =
        [⟨index, toolName, .object (arguments.getD [])⟩] := by
  obtain ⟨toolName, hasStr, hnew⟩ := (new_namespaceOf_operationOf descriptor.name.valid).1 hname
  refine ⟨toolName, hasStr, ?_⟩
  have howner : router.toolOwnerByName[descriptor.name.asStr]? = some index :=
    (build_owner_iff h).mpr ⟨_, hdeclares, rfl⟩
  rw [callTool_of_owned howner, hnew]

end Build

/-- **Which routers can serve all they list.**  Every listed tool can be called, and is dispatched
once to its contribution under its name, exactly if what follows the first underscore of each
declared name is a segment. -/
theorem build_routes_iff {serde : Serde} {builder : AggregateRouterBuilder}
    {router : AggregateRouter} (h : builder.build serde = .ok router) :
    Routes serde (builder.bricks ++ builder.projectMeta) router ↔
      ∀ contribution ∈ builder.bricks ++ builder.projectMeta,
        ∀ descriptor ∈ contribution.tools, Recoverable descriptor.name.asStr := by
  rw [← (build_eq_ok h).1]
  constructor
  · intro hroutes contribution hmem descriptor hdescriptor
    by_contra hname
    obtain ⟨index, hindex⟩ := List.getElem?_of_mem hmem
    have hdeclares : Declares router.contributions index descriptor.tool :=
      ⟨contribution, descriptor, hindex, hdescriptor, rfl⟩
    have hlisted : router.Listed descriptor.name.asStr :=
      (build_listed_iff h).mpr ⟨index, _, hdeclares, rfl⟩
    obtain ⟨owner, toolName, -, -, -, hcall⟩ := hroutes.1 _ hlisted none
    rw [callTool_of_not_recoverable h hdeclares hname] at hcall
    cases hcall
  · intro hrecoverable
    refine ⟨fun name hname arguments => ?_, fun name hname arguments => ?_⟩
    · obtain ⟨index, tool, hdeclares, rfl⟩ := (build_listed_iff h).mp hname
      obtain ⟨contribution, descriptor, hindex, hdescriptor, rfl⟩ := id hdeclares
      have hmem : contribution ∈ router.contributions := List.mem_of_getElem? hindex
      obtain ⟨toolName, hasStr, hcall⟩ := callTool_of_recoverable h hdeclares
        (hrecoverable contribution hmem descriptor hdescriptor) arguments
      refine ⟨index, toolName, ⟨_, hdeclares, rfl⟩, fun other hother => ?_, hasStr, hcall⟩
      have hother' := (build_owner_iff h).mpr hother
      rw [(build_owner_iff h).mpr ⟨_, hdeclares, rfl⟩] at hother'
      exact (Option.some.inj hother').symm
    · refine callTool_of_not_owned (Option.eq_none_iff_forall_ne_some.mpr fun index hindex => ?_) _
      exact hname ((build_listed_iff h).mpr ⟨index, (build_owner_iff h).mp hindex⟩)

/-! ## Samples -/

/-- A library that prints the empty schema. -/
def sampleSerde : Serde := ⟨fun _ => none, fun _ => "\x7b\x7d"⟩

/-- The tool `list` of a namespace. -/
def listTool (ns : Namespace) : ToolName := ⟨ns.asStr ++ "_" ++ "list", ns, "list", by decide, rfl⟩

/-- One contribution with that tool. -/
def sampleBuilder (ns : Namespace) : AggregateRouterBuilder where
  bricks := [⟨ns, [⟨listTool ns, none, "Lists.", [], none⟩], fun _ _ => .ok ⟨.null, false⟩⟩]
  projectMeta := []

/-- A namespace with an underscore and a digit after it. -/
def versioned : Namespace := ⟨"v_2", by decide⟩

/-- The tool `v_2_list` is listed, and no call of it reaches the contribution. -/
theorem listed_tool_unreachable :
    ∃ router, (sampleBuilder versioned).build sampleSerde = .ok router ∧
      router.Listed "v_2_list" ∧ (router.callTool sampleSerde ⟨"v_2_list", none⟩).2 = [] := by
  have hisOk : ((sampleBuilder versioned).build sampleSerde).isOk := by decide +kernel
  obtain ⟨router, h⟩ := isOk_iff.mp hisOk
  have hdeclares : Declares router.contributions 0
      (ToolDescriptor.tool ⟨listTool versioned, none, "Lists.", [], none⟩) := by
    rw [(build_eq_ok h).1]
    exact ⟨_, _, rfl, List.mem_cons_self, rfl⟩
  have hname : ¬Recoverable (listTool versioned).asStr := by
    intro hrecoverable
    obtain ⟨-, first, hfirst, hlower⟩ := hrecoverable "v" "2_list" (by decide) (by decide)
    cases hfirst
    exact absurd hlower (by decide)
  exact ⟨router, h, (build_listed_iff h).mpr ⟨0, _, hdeclares, rfl⟩,
    callTool_of_not_recoverable h hdeclares hname none⟩

/-- The tools of the namespace `agent` can all be called. -/
theorem build_routes_iff_sample :
    ∃ router, (sampleBuilder ⟨"agent", by decide⟩).build sampleSerde = .ok router ∧
      Routes sampleSerde (sampleBuilder ⟨"agent", by decide⟩).bricks router := by
  have hisOk : ((sampleBuilder ⟨"agent", by decide⟩).build sampleSerde).isOk := by decide +kernel
  obtain ⟨router, h⟩ := isOk_iff.mp hisOk
  refine ⟨router, h, (build_routes_iff h).mpr ?_⟩
  intro contribution hcontribution descriptor hdescriptor
  obtain rfl := List.mem_singleton.mp hcontribution
  obtain rfl := List.mem_singleton.mp hdescriptor
  have hhead : '_' ∉ "agent".toList := by decide
  exact (@recoverable_iff "agent" "list" hhead).mpr ⟨by decide, 108, rfl, by decide⟩

end RustFactory.Mcp
