import RustFactory.Agent.Runtime

/-!
# Agents: what the planning pass accepts

A specification of the tool calls a model may make, in terms of the port a call is addressed to,
the permission it needs, the form of its arguments and their sizes.  `planCall_eq_ok` says that the
planning pass accepts exactly these calls.
-/

namespace RustFactory.Agent

open RustFactory.Lib RustFactory.Gateway

/-- The port and operation a call is addressed to. -/
inductive Target where
  | tool (tool : ToolDescriptor)
  | memoryRecall
  | memoryWrite
  | knowledgeSearch
  | sandboxExecute
  deriving DecidableEq

/-- The target of a call by its name: a resolved tool or a reserved capability. -/
def target (ordinary : BTreeMap String ToolDescriptor) (call : ToolCall) : Option Target :=
  match ordinary[call.name.asStr]? with
  | some tool => some (.tool tool)
  | none =>
    if call.name.asStr = memoryRecallTool then some .memoryRecall
    else if call.name.asStr = memoryWriteTool then some .memoryWrite
    else if call.name.asStr = knowledgeSearchTool then some .knowledgeSearch
    else if call.name.asStr = sandboxExecuteTool then some .sandboxExecute
    else none

/-- The scope permits the target. -/
def Target.Authorized (scope : ResolvedCapabilityScope) : Target → Prop
  | .tool descriptor => descriptor.id ∈ scope.allowedToolIds
  | .memoryRecall => scope.memory.enabled
  | .memoryWrite => scope.memory.enabled
  | .knowledgeSearch => scope.knowledge.enabled
  | .sandboxExecute => scope.sandbox.allowExecution

/-- The arguments are an object with exactly these members. -/
def HasMembers (serde : Serde) (arguments : JsonObject) (members : List (String × Json)) : Prop :=
  ∃ object, serde.fromStr arguments.canonical = some (.object object) ∧ object.Perm members

/-- Well-formed arguments for a target, with the effect they describe. -/
inductive Reads (serde : Serde) (arguments : JsonObject) : Target → PlannedEffect → Prop
  | tool {tool : ToolDescriptor} {input : String}
      (h : HasMembers serde arguments [("input", .string input)]) :
      Reads serde arguments (.tool tool) (.tool tool input)
  | memoryRecall {query : String} (h : HasMembers serde arguments [("query", .string query)]) :
      Reads serde arguments .memoryRecall (.memoryRecall query)
  | memoryWrite {value : String} (h : HasMembers serde arguments [("value", .string value)]) :
      Reads serde arguments .memoryWrite (.memoryWrite value)
  | knowledgeSearch {query : String} (h : HasMembers serde arguments [("query", .string query)]) :
      Reads serde arguments .knowledgeSearch (.knowledgeSearch query)
  | sandboxExecute {action : String} {values : List String}
      (h : HasMembers serde arguments
        [("action", .string action), ("arguments", .array (values.map .string))]) :
      Reads serde arguments .sandboxExecute (.sandboxExecute action values)

def PlannedEffect.WithinLimits : PlannedEffect → Prop
  | .tool _ input => byteLen input ≤ maxToolRequestInputBytes
  | .memoryRecall query => byteLen query ≤ maxInputBytes
  | .memoryWrite value => byteLen value ≤ maxMemoryWriteValueBytes
  | .knowledgeSearch query => byteLen query ≤ maxInputBytes
  | .sandboxExecute action arguments =>
    byteLen action ≤ maxInputBytes ∧ arguments.length ≤ maxSandboxArguments ∧
      ∀ value ∈ arguments, byteLen value ≤ maxSandboxArgumentBytes

/-! ## Arguments -/

section Arguments

variable {serde : Serde} {arguments : JsonObject}

theorem asStr_eq_some {value : Json} {text : String} :
    value.asStr = some text ↔ value = .string text := by
  cases value <;> simp [Json.asStr]

theorem asArray_eq_some {value : Json} {values : List Json} :
    value.asArray = some values ↔ value = .array values := by
  cases value <;> simp [Json.asArray]

theorem asObject_eq_some {value : Json} {members : List (String × Json)} :
    value.asObject = some members ↔ value = .object members := by
  cases value <;> simp [Json.asObject]

theorem strictObject_eq_ok {count : ℕ} {object : List (String × Json)} :
    strictObject serde arguments count = .ok object ↔
      serde.fromStr arguments.canonical = some (.object object) ∧ object.length = count := by
  unfold strictObject
  constructor
  · intro h
    obtain ⟨value, hvalue, h⟩ := bind_eq_ok.mp h
    obtain ⟨members, hmembers, h⟩ := bind_eq_ok.mp h
    rw [okOr_eq_ok] at hvalue hmembers
    split at h
    · cases h
    · rename_i hlen
      cases h
      rw [asObject_eq_some.mp hmembers] at hvalue
      exact ⟨hvalue, not_not.mp hlen⟩
  · rintro ⟨hvalue, hlen⟩
    simp [hvalue, Json.asObject, hlen]

theorem perm_singleton_iff_lookup {object : List (String × Json)} {field : String} {value : Json} :
    object.Perm [(field, value)] ↔ object.length = 1 ∧ object.lookup field = some value := by
  rw [List.perm_singleton]
  constructor
  · rintro rfl
    exact ⟨rfl, List.lookup_cons_self⟩
  · rintro ⟨hlen, hlookup⟩
    obtain ⟨⟨name, member⟩, rfl⟩ := List.length_eq_one_iff.mp hlen
    grind

theorem perm_pair_iff_lookup {object : List (String × Json)} {first second : String} {a b : Json}
    (hne : first ≠ second) :
    object.Perm [(first, a), (second, b)] ↔
      object.length = 2 ∧ object.lookup first = some a ∧ object.lookup second = some b := by
  rw [List.perm_pair]
  constructor
  · rintro (rfl | rfl)
    · grind
    · grind
  · rintro ⟨hlen, ha, hb⟩
    obtain ⟨⟨name, x⟩, ⟨name', y⟩, rfl⟩ := List.length_eq_two.mp hlen
    grind

theorem strictStringArgument_eq_ok {field text : String} :
    strictStringArgument serde arguments field = .ok text ↔
      HasMembers serde arguments [(field, .string text)] := by
  unfold strictStringArgument HasMembers
  constructor
  · intro h
    obtain ⟨object, hobject, h⟩ := bind_eq_ok.mp h
    obtain ⟨hfrom, hlen⟩ := strictObject_eq_ok.mp hobject
    obtain ⟨value, hvalue, htext⟩ := Option.bind_eq_some_iff.mp (okOr_eq_ok.mp h)
    rw [asStr_eq_some.mp htext] at hvalue
    exact ⟨object, hfrom, perm_singleton_iff_lookup.mpr ⟨hlen, hvalue⟩⟩
  · rintro ⟨object, hfrom, hperm⟩
    obtain ⟨hlen, hvalue⟩ := perm_singleton_iff_lookup.mp hperm
    refine bind_eq_ok.mpr ⟨object, strictObject_eq_ok.mpr ⟨hfrom, hlen⟩, ?_⟩
    rw [okOr_eq_ok, hvalue]
    rfl

theorem forall₂_asStr {values : List Json} {texts : List String} :
    List.Forall₂ (fun value text => okOr DefinitionError.invalidDefinition value.asStr = .ok text)
      values texts ↔ values = texts.map .string := by
  simp only [okOr_eq_ok, asStr_eq_some]
  induction texts generalizing values with
  | nil => rw [List.forall₂_nil_right_iff, List.map_nil]
  | cons text texts ih =>
    rw [List.forall₂_cons_right_iff, List.map_cons]
    constructor
    · rintro ⟨value, rest, rfl, hrest, rfl⟩
      rw [ih.mp hrest]
    · rintro rfl
      exact ⟨_, _, rfl, ih.mpr rfl, rfl⟩

theorem strictSandboxArguments_eq_ok {action : String} {values : List String} :
    strictSandboxArguments serde arguments = .ok (action, values) ↔
      HasMembers serde arguments
        [("action", .string action), ("arguments", .array (values.map .string))] := by
  have hne : "action" ≠ "arguments" := by decide
  unfold strictSandboxArguments HasMembers
  constructor
  · intro h
    obtain ⟨object, hobject, h⟩ := bind_eq_ok.mp h
    obtain ⟨action', haction, h⟩ := bind_eq_ok.mp h
    obtain ⟨list, hlist, h⟩ := bind_eq_ok.mp h
    obtain ⟨texts, htexts, h⟩ := bind_eq_ok.mp h
    cases h
    obtain ⟨hfrom, hlen⟩ := strictObject_eq_ok.mp hobject
    obtain ⟨x, hx, hxtext⟩ := Option.bind_eq_some_iff.mp (okOr_eq_ok.mp haction)
    obtain ⟨y, hy, hylist⟩ := Option.bind_eq_some_iff.mp (okOr_eq_ok.mp hlist)
    rw [asStr_eq_some.mp hxtext] at hx
    rw [asArray_eq_some.mp hylist, forall₂_asStr.mp (mapM_eq_ok.mp htexts)] at hy
    exact ⟨object, hfrom, (perm_pair_iff_lookup hne).mpr ⟨hlen, hx, hy⟩⟩
  · rintro ⟨object, hfrom, hperm⟩
    obtain ⟨hlen, hx, hy⟩ := (perm_pair_iff_lookup hne).mp hperm
    refine bind_eq_ok.mpr ⟨object, strictObject_eq_ok.mpr ⟨hfrom, hlen⟩, ?_⟩
    refine bind_eq_ok.mpr ⟨action, by rw [okOr_eq_ok, hx]; rfl, ?_⟩
    refine bind_eq_ok.mpr ⟨values.map .string, by rw [okOr_eq_ok, hy]; rfl, ?_⟩
    exact bind_eq_ok.mpr ⟨values, mapM_eq_ok.mpr (forall₂_asStr.mpr rfl), rfl⟩

end Arguments

/-! ## The planning pass -/

section Planning

variable {serde : Serde} {scope : ResolvedCapabilityScope}
  {ordinary : BTreeMap String ToolDescriptor} {arguments : JsonObject} {call : ToolCall}

theorem planText_eq_ok {allowed : Bool} {denied : DefinitionError} {field : String} {maximum : ℕ}
    {effect : String → PlannedEffect} {planned : PlannedEffect} :
    planText serde arguments allowed denied field maximum effect = .ok planned ↔
      allowed = true ∧ ∃ value, HasMembers serde arguments [(field, .string value)] ∧
        byteLen value ≤ maximum ∧ effect value = planned := by
  unfold planText
  constructor
  · intro h
    split at h
    · rename_i hallowed
      obtain ⟨value, hvalue, h⟩ := bind_eq_ok.mp h
      split at h
      · cases h
      · rename_i hlen
        exact ⟨hallowed, value, strictStringArgument_eq_ok.mp hvalue, not_lt.mp hlen,
          Except.ok.inj h⟩
    · cases h
  · rintro ⟨rfl, value, hvalue, hlen, rfl⟩
    rw [if_pos rfl, strictStringArgument_eq_ok.mpr hvalue, ok_bind, if_neg (not_lt.mpr hlen)]

theorem planSandbox_eq_ok {planned : PlannedEffect} :
    planSandbox serde arguments scope = .ok planned ↔
      scope.sandbox.allowExecution = true ∧ Reads serde arguments .sandboxExecute planned ∧
        planned.WithinLimits := by
  unfold planSandbox
  constructor
  · intro h
    split at h
    · rename_i hallowed
      obtain ⟨⟨action, values⟩, hvalues, h⟩ := bind_eq_ok.mp h
      dsimp only at h
      split at h
      · cases h
      · rename_i hlimits
        cases h
        refine ⟨hallowed, .sandboxExecute (strictSandboxArguments_eq_ok.mp hvalues), ?_⟩
        simpa [PlannedEffect.WithinLimits] using hlimits
    · cases h
  · rintro ⟨hallowed, hreads, hlimits⟩
    cases hreads with
    | sandboxExecute hmembers =>
      rw [if_pos hallowed, strictSandboxArguments_eq_ok.mpr hmembers, ok_bind]
      refine if_neg ?_
      simpa [PlannedEffect.WithinLimits] using hlimits

/-- The planning pass accepts exactly the authorized, well-formed calls within the limits. -/
theorem planCall_eq_ok {planned : PlannedEffect} :
    planCall serde scope ordinary call = .ok planned ↔
      ∃ t, target ordinary call = some t ∧ t.Authorized scope ∧
        Reads serde call.arguments t planned ∧ planned.WithinLimits := by
  unfold planCall target
  cases ordinary[call.name.asStr]? with
  | some tool =>
    simp only [planText_eq_ok, List.contains_iff_mem]
    constructor
    · rintro ⟨hallowed, value, hvalue, hlen, rfl⟩
      exact ⟨_, rfl, hallowed, .tool hvalue, hlen⟩
    · rintro ⟨_, ⟨⟩, hallowed, hreads, hlimits⟩
      cases hreads with
      | tool hvalue => exact ⟨hallowed, _, hvalue, hlimits, rfl⟩
  | none =>
    simp only
    split_ifs with hrecall hwrite hsearch hexecute
    · rw [planText_eq_ok]
      constructor
      · rintro ⟨hallowed, value, hvalue, hlen, rfl⟩
        exact ⟨_, rfl, hallowed, .memoryRecall hvalue, hlen⟩
      · rintro ⟨_, ⟨⟩, hallowed, hreads, hlimits⟩
        cases hreads with
        | memoryRecall hvalue => exact ⟨hallowed, _, hvalue, hlimits, rfl⟩
    · rw [planText_eq_ok]
      constructor
      · rintro ⟨hallowed, value, hvalue, hlen, rfl⟩
        exact ⟨_, rfl, hallowed, .memoryWrite hvalue, hlen⟩
      · rintro ⟨_, ⟨⟩, hallowed, hreads, hlimits⟩
        cases hreads with
        | memoryWrite hvalue => exact ⟨hallowed, _, hvalue, hlimits, rfl⟩
    · rw [planText_eq_ok]
      constructor
      · rintro ⟨hallowed, value, hvalue, hlen, rfl⟩
        exact ⟨_, rfl, hallowed, .knowledgeSearch hvalue, hlen⟩
      · rintro ⟨_, ⟨⟩, hallowed, hreads, hlimits⟩
        cases hreads with
        | knowledgeSearch hvalue => exact ⟨hallowed, _, hvalue, hlimits, rfl⟩
    · rw [planSandbox_eq_ok]
      constructor
      · rintro ⟨hallowed, hreads, hlimits⟩
        exact ⟨_, rfl, hallowed, hreads, hlimits⟩
      · rintro ⟨_, ⟨⟩, hallowed, hreads, hlimits⟩
        exact ⟨hallowed, hreads, hlimits⟩
    · constructor
      · intro h
        cases h
      · rintro ⟨_, ⟨⟩, -⟩

end Planning

/-- A planned invocation has resolved its scope and planned every call of the response. -/
theorem planInvocation_eq_ok {rt : Runtime} {inv : Invocation} {planned : Planned}
    (h : planInvocation rt inv = .ok planned) :
    ∃ prepared response, prepare rt inv = .ok prepared ∧
      rt.generate prepared.request = .ok response ∧
      planResponse rt inv prepared response = .ok planned := by
  unfold planInvocation at h
  obtain ⟨prepared, hprepared, h⟩ := bind_eq_ok.mp h
  obtain ⟨response, hresponse, h⟩ := bind_eq_ok.mp h
  exact ⟨prepared, response, hprepared, mapError_eq_ok.mp hresponse, h⟩

theorem planResponse_eq_ok {rt : Runtime} {inv : Invocation} {prepared : Prepared}
    {response : GenerateResponse} {planned : Planned} :
    planResponse rt inv prepared response = .ok planned ↔
      inv.control.preflight 0 = .ok () ∧
      response.toolCalls.length ≤ inv.definition.limits.maxToolCalls.toNat ∧
      response.toolCalls.length ≤ maxToolCalls.toNat ∧
      ∃ outputBytes plan,
        checkedOutputBytes response.text 0 inv.definition.limits.maxOutputBytes = .ok outputBytes ∧
        List.Forall₂ (fun call effect =>
          planCall rt.serde prepared.scope prepared.ordinaryTools call = .ok effect)
          response.toolCalls plan ∧
        planned = ⟨prepared.scope, response, outputBytes, plan⟩ := by
  unfold planResponse
  constructor
  · intro h
    obtain ⟨⟨⟩, hcheck, h⟩ := bind_eq_ok.mp h
    split at h
    · cases h
    · rename_i hcount
      obtain ⟨outputBytes, hbytes, h⟩ := bind_eq_ok.mp h
      obtain ⟨plan, hplan, h⟩ := bind_eq_ok.mp h
      cases h
      refine ⟨mapError_eq_ok.mp hcheck, ?_, ?_, outputBytes, plan, hbytes, mapM_eq_ok.mp hplan, rfl⟩
      · omega
      · omega
  · rintro ⟨hcheck, hcalls, hmax, outputBytes, plan, hbytes, hplan, rfl⟩
    rw [mapError_eq_ok.mpr hcheck, ok_bind, if_neg (by omega), hbytes, ok_bind,
      mapM_eq_ok.mpr hplan, ok_bind]

end RustFactory.Agent
