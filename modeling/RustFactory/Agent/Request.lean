import RustFactory.Agent.Ceiling
import RustFactory.Gateway.Sorting

/-!
# Agents: the request of a registered definition

What the registry admits fits the gateway in all but one respect: a definition may name as many
tools as the gateway takes, and the reserved tools of its capabilities come on top.  The request
is built exactly if all tools together stay within the gateway's limit.
-/

namespace RustFactory.Agent

open RustFactory.Lib RustFactory.Gateway

/-! ## Schemas -/

/-- The schemas of the tools with their parses. -/
def schemaTexts : List (String × Json) :=
  [(stringArgumentSchema, textSchemaJson "input"), (querySchema, textSchemaJson "query"),
    (valueSchema, textSchemaJson "value"), (sandboxSchema, sandboxSchemaJson)]

/-- The parser reads the four schemas, which are compact and sorted, and the printer writes them
back. -/
structure ReadsSchemas (serde : Serde) : Prop where
  parse : ∀ schema ∈ schemaTexts, serde.parse schema.1 = some schema.2
  print : ∀ schema ∈ schemaTexts, serde.print schema.2 = schema.1

/-- What the gateway asks of a schema. -/
structure SchemaJson (schema : String × Json) : Prop where
  sorted : schema.2.sortValue = schema.2
  duplicateFree : schema.2.duplicateFree
  object : ∃ members, schema.2 = .object members
  objectType : isObjectSchema schema.2
  length : byteLen schema.1 ≤ 256

theorem schemaJson_of_mem {schema : String × Json} (h : schema ∈ schemaTexts) :
    SchemaJson schema := by
  simp only [schemaTexts, List.mem_cons, List.not_mem_nil, or_false] at h
  rcases h with rfl | rfl | rfl | rfl
  · exact ⟨rfl, by decide +kernel, ⟨_, rfl⟩, by decide +kernel, by decide +kernel⟩
  · exact ⟨rfl, by decide +kernel, ⟨_, rfl⟩, by decide +kernel, by decide +kernel⟩
  · exact ⟨rfl, by decide +kernel, ⟨_, rfl⟩, by decide +kernel, by decide +kernel⟩
  · exact ⟨rfl, by decide +kernel, ⟨_, rfl⟩, by decide +kernel, by decide +kernel⟩

variable {serde : Serde}

theorem jsonObject_new (hserde : ReadsSchemas serde) {schema : String × Json}
    (h : schema ∈ schemaTexts) : JsonObject.new serde schema.1 = .ok ⟨schema.1⟩ := by
  obtain ⟨hsorted, hfree, ⟨members, hobject⟩, -, hlen⟩ := schemaJson_of_mem h
  have hparse := hserde.parse schema h
  have hprint := hserde.print schema h
  rw [hobject] at hsorted hfree hparse hprint
  unfold JsonObject.new
  rw [Serde.canonicalObject_of_parse hparse hfree, hsorted, hprint]
  unfold validateLen
  rw [if_neg (by unfold maxJsonObjectBytes; omega), ok_bind]
  rfl

/-- A tool with one of the schemas and a short description is always described. -/
theorem gatewayTool_eq_ok (hserde : ReadsSchemas serde) (name : ToolName) {description : String}
    (hdescription : byteLen description ≤ maxToolDescriptionBytes) {schema : String × Json}
    (h : schema ∈ schemaTexts) :
    gatewayTool serde name description schema.1 = .ok ⟨name, description, ⟨schema.1⟩⟩ := by
  obtain ⟨hsorted, -, -, htype, -⟩ := schemaJson_of_mem h
  unfold gatewayTool
  rw [jsonObject_new hserde h]
  change (ToolDefinition.new serde name description ⟨schema.1⟩).mapError mapGatewayError = _
  have hnew : ToolDefinition.new serde name description ⟨schema.1⟩ =
      .ok ⟨name, description, ⟨schema.1⟩⟩ := by
    unfold ToolDefinition.new validateLen
    rw [if_neg (Nat.not_lt.mpr hdescription), ok_bind]
    unfold validateObjectSchema Serde.fromStr
    rw [hserde.parse schema h, Option.map_some, hsorted, okOr_some, ok_bind, if_pos htype, ok_bind]
  rw [hnew]
  rfl

/-! ## Tool names -/

theorem isToolNameByte_of_isReferenceByte {b : UInt8} (h : isReferenceByte b) :
    isToolNameByte b := by
  unfold isReferenceByte at h
  unfold isToolNameByte isAsciiAlphanumeric
  simp only [Bool.or_eq_true] at h ⊢
  tauto

theorem validateToolName_of_validReference {value : String} (h : validReference value) :
    validateToolName value = .ok () := by
  unfold validReference at h
  unfold validateToolName byteLen
  cases hbytes : utf8 value with
  | nil => rw [hbytes] at h; cases h
  | cons first rest =>
    rw [hbytes] at h
    simp only [Bool.and_eq_true, decide_eq_true_eq, List.headD_cons, List.all_cons] at h
    obtain ⟨⟨⟨⟨-, hlen⟩, hfirst⟩, -⟩, -, hrest⟩ := h
    unfold validateLen
    rw [if_neg (by unfold maxToolNameBytes; omega), ok_bind]
    simp only [hfirst, Bool.true_and]
    rw [if_pos]
    refine List.all_eq_true.mpr fun b hb => isToolNameByte_of_isReferenceByte ?_
    exact List.all_eq_true.mp hrest b hb

theorem toolName_new {value : String} (h : validateToolName value = .ok ()) :
    ∃ name, ToolName.new value = .ok name ∧ name.asStr = value := by
  have hvalid : (validateToolName value).isOk := by rw [h]; rfl
  exact ⟨⟨value, hvalid⟩, ifOk_eq_ok.mpr ⟨hvalid, rfl⟩, rfl⟩

/-! ## The tools of a request -/

/-- The name and the schema of a tool. -/
def toolSpec (tool : ToolDefinition) : String × String :=
  (tool.name.asStr, tool.inputSchema.canonical)

theorem ordinaryTools_eq_ok (hserde : ReadsSchemas serde) {resolved : List ToolDescriptor}
    (ordinary : BTreeMap String ToolDescriptor)
    (hvalid : ∀ tool ∈ resolved, validReference tool.id ∧ tool.id ∉ reservedToolNames)
    (hnodup : (resolved.map ToolDescriptor.id).Nodup)
    (hfresh : ∀ tool ∈ resolved, ordinary[tool.id]? = none) :
    ∃ definitions result, ordinaryTools serde resolved ordinary = .ok (definitions, result) ∧
      definitions.map toolSpec = resolved.map fun tool => (tool.id, stringArgumentSchema) := by
  induction resolved generalizing ordinary with
  | nil => exact ⟨[], ordinary, rfl, rfl⟩
  | cons tool resolved ih =>
    obtain ⟨hreference, hreserved⟩ := hvalid tool List.mem_cons_self
    obtain ⟨name, hname, hasStr⟩ := toolName_new (validateToolName_of_validReference hreference)
    rw [List.map_cons, List.nodup_cons] at hnodup
    have hfresh' : ∀ other ∈ resolved, (ordinary.insert tool.id tool)[other.id]? = none := by
      intro other hother
      have hne : tool.id ≠ other.id := by
        intro heq
        rw [heq] at hnodup
        exact hnodup.1 (List.mem_map_of_mem hother)
      rw [Std.ExtTreeMap.getElem?_insert, if_neg (by rwa [compare_eq_iff_eq])]
      exact hfresh other (List.mem_cons_of_mem _ hother)
    obtain ⟨definitions, result, hrest, hspecs⟩ :=
      ih _ (fun other hother => hvalid other (List.mem_cons_of_mem _ hother)) hnodup.2 hfresh'
    refine ⟨⟨name, "Agent tool", ⟨stringArgumentSchema⟩⟩ :: definitions, result, ?_, ?_⟩
    · unfold ordinaryTools
      rw [if_neg (by rwa [List.contains_iff_mem]), hname]
      change (if (ordinary[name.asStr]?).isSome then _ else _) = _
      rw [hasStr, hfresh tool List.mem_cons_self, if_neg (by simp),
        gatewayTool_eq_ok hserde name (by decide) List.mem_cons_self, ok_bind, hrest, ok_bind]
    · rw [List.map_cons, List.map_cons, hspecs]
      unfold toolSpec
      rw [hasStr]

theorem reservedTools_eq_ok (hserde : ReadsSchemas serde) (enabled : Bool)
    (tools : List (String × String))
    (h : ∀ tool ∈ tools, validateToolName tool.1 = .ok () ∧ tool.2 ∈ schemaTexts.map Prod.fst) :
    ∃ definitions, reservedTools serde enabled tools = .ok definitions ∧
      definitions.map toolSpec = if enabled then tools else [] := by
  unfold reservedTools
  cases enabled with
  | false => exact ⟨[], rfl, rfl⟩
  | true =>
    simp only [if_true]
    induction tools with
    | nil => exact ⟨[], rfl, rfl⟩
    | cons tool tools ih =>
      obtain ⟨hvalid, hschema⟩ := h tool List.mem_cons_self
      obtain ⟨name, hname, hasStr⟩ := toolName_new hvalid
      obtain ⟨schema, hmem, hfst⟩ := List.mem_map.mp hschema
      obtain ⟨definitions, hrest, hspecs⟩ :=
        ih fun other hother => h other (List.mem_cons_of_mem _ hother)
      refine ⟨⟨name, "Agent reserved capability", ⟨tool.2⟩⟩ :: definitions, ?_, ?_⟩
      · have htool : gatewayToolName serde tool.1 tool.2 =
            .ok ⟨name, "Agent reserved capability", ⟨tool.2⟩⟩ := by
          unfold gatewayToolName
          rw [hname]
          change gatewayTool serde name _ _ = _
          rw [← hfst]
          exact gatewayTool_eq_ok hserde name (by decide) hmem
        rw [List.mapM_cons, htool, ok_bind, hrest, ok_bind]
        rfl
      · rw [List.map_cons, hspecs]
        unfold toolSpec
        rw [hasStr]

/-- The reserved tools of a scope. -/
def reservedSpecs (scope : ResolvedCapabilityScope) : List (String × String) :=
  (if scope.memory.enabled then
    [(memoryRecallTool, querySchema), (memoryWriteTool, valueSchema)] else []) ++
  (if scope.knowledge.enabled then [(knowledgeSearchTool, querySchema)] else []) ++
  (if scope.sandbox.allowExecution then [(sandboxExecuteTool, sandboxSchema)] else [])

theorem gatewayTools_eq_ok (hserde : ReadsSchemas serde) {resolved : List ToolDescriptor}
    (scope : ResolvedCapabilityScope)
    (hvalid : ∀ tool ∈ resolved, validReference tool.id ∧ tool.id ∉ reservedToolNames)
    (hnodup : (resolved.map ToolDescriptor.id).Nodup) :
    ∃ definitions ordinary, gatewayTools serde resolved scope = .ok (definitions, ordinary) ∧
      definitions.map toolSpec =
        (resolved.map fun tool => (tool.id, stringArgumentSchema)) ++ reservedSpecs scope := by
  obtain ⟨definitions, ordinary, hordinary, hspecs⟩ :=
    ordinaryTools_eq_ok hserde ∅ hvalid hnodup (by simp)
  obtain ⟨memory, hmemory, hmemorySpecs⟩ := reservedTools_eq_ok hserde scope.memory.enabled
    [(memoryRecallTool, querySchema), (memoryWriteTool, valueSchema)] (by decide +kernel)
  obtain ⟨knowledge, hknowledge, hknowledgeSpecs⟩ :=
    reservedTools_eq_ok hserde scope.knowledge.enabled
      [(knowledgeSearchTool, querySchema)] (by decide +kernel)
  obtain ⟨sandbox, hsandbox, hsandboxSpecs⟩ :=
    reservedTools_eq_ok hserde scope.sandbox.allowExecution
      [(sandboxExecuteTool, sandboxSchema)] (by decide +kernel)
  refine ⟨definitions ++ memory ++ knowledge ++ sandbox, ordinary, ?_, ?_⟩
  · unfold gatewayTools
    simp only [hordinary, hmemory, hknowledge, hsandbox, ok_bind]
  · simp only [List.map_append, hspecs, hmemorySpecs, hknowledgeSpecs, hsandboxSpecs,
      List.append_assoc, reservedSpecs]

/-- A request of distinct tools with short schemas is built exactly within the tool limit. -/
theorem generateRequest_isOk {providerId : ProviderId} {modelId : ModelId} {prompt : Prompt}
    {tools : List ToolDefinition} {limits : GenerationLimits}
    (hnodup : (tools.map fun tool => tool.name.asStr).Nodup)
    (hschemas : ∀ tool ∈ tools, tool.inputSchema.len ≤ 256) :
    (GenerateRequest.new providerId modelId prompt tools limits).isOk ↔ tools.length ≤ maxTools := by
  unfold GenerateRequest.new validateLen
  by_cases hlen : tools.length ≤ maxTools
  · have hsum : (tools.map fun tool => tool.inputSchema.len).sum ≤ maxToolSchemasBytes := by
      have hbound := List.sum_le_card_nsmul (tools.map fun tool => tool.inputSchema.len) 256 (by
        intro len hmem
        obtain ⟨tool, htool, rfl⟩ := List.mem_map.mp hmem
        exact hschemas tool htool)
      rw [List.length_map, smul_eq_mul] at hbound
      unfold maxTools at hlen
      unfold maxToolSchemasBytes
      omega
    rw [if_neg (Nat.not_lt.mpr hlen), ok_bind, if_pos hnodup, checkedSum_eq_ok hsum (by decide)]
    exact iff_of_true rfl hlen
  · rw [if_pos (Nat.not_le.mp hlen)]
    exact iff_of_false nofun hlen

theorem reservedSpecs_names (scope : ResolvedCapabilityScope) :
    ((reservedSpecs scope).map Prod.fst).Nodup ∧
      ∀ name ∈ (reservedSpecs scope).map Prod.fst, name ∈ reservedToolNames := by
  unfold reservedSpecs
  cases scope.memory.enabled <;> cases scope.knowledge.enabled <;>
    cases scope.sandbox.allowExecution <;> decide +kernel

theorem reservedSpecs_schemas (scope : ResolvedCapabilityScope) :
    ∀ schema ∈ (reservedSpecs scope).map Prod.snd, byteLen schema ≤ 256 := by
  unfold reservedSpecs
  cases scope.memory.enabled <;> cases scope.knowledge.enabled <;>
    cases scope.sandbox.allowExecution <;> decide +kernel

theorem length_reservedSpecs (scope : ResolvedCapabilityScope) :
    (reservedSpecs scope).length = (if scope.memory.enabled then 2 else 0) +
      (if scope.knowledge.enabled then 1 else 0) +
      (if scope.sandbox.allowExecution then 1 else 0) := by
  unfold reservedSpecs
  cases scope.memory.enabled <;> cases scope.knowledge.enabled <;>
    cases scope.sandbox.allowExecution <;> rfl

/-- The request for resolved tools is built exactly if they and the reserved tools of the scope
stay within the limit. -/
theorem request_isOk_iff (hserde : ReadsSchemas serde) {resolved : List ToolDescriptor}
    {scope : ResolvedCapabilityScope}
    (hvalid : ∀ tool ∈ resolved, validReference tool.id ∧ tool.id ∉ reservedToolNames)
    (hnodup : (resolved.map ToolDescriptor.id).Nodup) :
    ∃ definitions ordinary, gatewayTools serde resolved scope = .ok (definitions, ordinary) ∧
      ∀ (providerId : ProviderId) (modelId : ModelId) (prompt : Prompt) (limits : GenerationLimits),
        (GenerateRequest.new providerId modelId prompt definitions limits).isOk ↔
          resolved.length + (reservedSpecs scope).length ≤ maxTools := by
  obtain ⟨definitions, ordinary, htools, hspecs⟩ := gatewayTools_eq_ok hserde scope hvalid hnodup
  refine ⟨definitions, ordinary, htools, fun providerId modelId prompt limits => ?_⟩
  have hlen : definitions.length = resolved.length + (reservedSpecs scope).length := by
    have := congrArg List.length hspecs
    rwa [List.length_map, List.length_append, List.length_map] at this
  have hnames : (definitions.map fun tool => tool.name.asStr) =
      resolved.map ToolDescriptor.id ++ (reservedSpecs scope).map Prod.fst := by
    have := congrArg (List.map Prod.fst) hspecs
    rwa [List.map_map, List.map_append, List.map_map] at this
  have hschemas : (definitions.map fun tool => tool.inputSchema.canonical) =
      (resolved.map fun _ => stringArgumentSchema) ++ (reservedSpecs scope).map Prod.snd := by
    have := congrArg (List.map Prod.snd) hspecs
    rwa [List.map_map, List.map_append, List.map_map] at this
  rw [← hlen]
  refine generateRequest_isOk ?_ ?_
  · rw [hnames]
    refine List.nodup_append'.mpr ⟨hnodup, (reservedSpecs_names scope).1, ?_⟩
    intro name hordinary hreserved
    obtain ⟨tool, htool, rfl⟩ := List.mem_map.mp hordinary
    exact (hvalid tool htool).2 ((reservedSpecs_names scope).2 _ hreserved)
  · intro tool htool
    have hmem : tool.inputSchema.canonical ∈
        definitions.map fun tool => tool.inputSchema.canonical :=
      List.mem_map_of_mem (f := fun tool : ToolDefinition => tool.inputSchema.canonical) htool
    rw [hschemas, List.mem_append] at hmem
    rcases hmem with hmem | hmem
    · obtain ⟨_, -, heq⟩ := List.mem_map.mp hmem
      unfold JsonObject.len
      rw [← heq]
      decide +kernel
    · exact reservedSpecs_schemas scope _ hmem

/-! ## Registered definitions -/

/-- What registration promises the request. -/
theorem accepted_limits {catalog : ReferenceCatalog} {definition : AgentDefinition}
    (h : Accepted catalog definition) :
    byteLen definition.instructions ≤ maxInputBytes ∧
    1 ≤ definition.limits.maxOutputBytes ∧ definition.limits.maxOutputBytes ≤ maxOutputBytes ∧
    ∀ id ∈ definition.allowedToolIds, validReference id := by
  have hvalid := h.1
  unfold validateDefinition at hvalid
  split_ifs at hvalid with hlimits hreferences
  simp only [Bool.or_eq_true, decide_eq_true_eq, not_or, beq_iff_eq] at hlimits
  simp only [Bool.or_eq_true, Bool.not_eq_true', not_or, Bool.not_eq_false] at hreferences
  have hinstructions : ¬maxInputBytes < byteLen definition.instructions := by tauto
  have hzero : definition.limits.maxOutputBytes ≠ 0 := by tauto
  have hmax : ¬maxOutputBytes < definition.limits.maxOutputBytes := by tauto
  refine ⟨by omega, ?_, UInt32.not_lt.mp hmax, List.all_eq_true.mp hreferences.2⟩
  rw [UInt32.le_iff_toNat_le]
  have : definition.limits.maxOutputBytes.toNat ≠ 0 := fun h0 => hzero (UInt32.toNat_inj.mp h0)
  show 1 ≤ _
  omega

theorem prompt_new_eq_ok {instructions input : String} (hinstructions : byteLen instructions ≤
    maxInputBytes) (hinput : byteLen input ≤ maxInputBytes) :
    Prompt.new (some instructions) input = .ok ⟨some instructions, input⟩ := by
  unfold maxInputBytes at hinstructions hinput
  have hsum : [((some instructions).map byteLen).getD 0, byteLen input].sum ≤ maxPromptBytes := by
    simp only [Option.map_some, Option.getD_some, List.sum_cons, List.sum_nil]
    unfold maxPromptBytes
    omega
  unfold Prompt.new validateLen maxPromptTextBytes
  rw [if_neg (by omega), ok_bind]
  simp only [if_neg (Nat.not_lt.mpr hinstructions), ok_bind]
  rw [checkedSum_eq_ok hsum (by decide), ok_bind]

theorem generationLimits_new_eq_ok {maxTokens : UInt32} (hone : 1 ≤ maxTokens)
    (hmax : maxTokens ≤ maxOutputBytes) : GenerationLimits.new maxTokens = .ok ⟨maxTokens⟩ := by
  unfold GenerationLimits.new
  rw [if_pos ⟨hone, UInt32.le_trans hmax (by decide)⟩]

/-- The tools a request offers: those that definition and ceiling both allow, and the reserved
tools of the capabilities that both allow. -/
def toolCount (definition : AgentDefinition) (ceiling : EffectiveCapabilityCeiling) : ℕ :=
  (definition.allowedToolIds.toFinset ∩ ceiling.allowedToolIds.toFinset).card +
    ((if definition.memory.enabled && ceiling.memoryEnabled then 2 else 0) +
      (if definition.knowledge.enabled && ceiling.knowledgeEnabled then 1 else 0) +
      (if definition.sandbox.allowExecution && ceiling.sandboxExecutionAllowed then 1 else 0))

theorem toolCount_fullDefinition {definition : AgentDefinition}
    (h : definition.allowedToolIds.Nodup) :
    toolCount definition (.fullDefinition definition) = definition.allowedToolIds.length +
      ((if definition.memory.enabled then 2 else 0) +
        (if definition.knowledge.enabled then 1 else 0) +
        (if definition.sandbox.allowExecution then 1 else 0)) := by
  unfold toolCount EffectiveCapabilityCeiling.fullDefinition
  simp only [Finset.inter_self, List.toFinset_card_of_nodup h, Bool.and_self]

theorem length_narrow (ceiling : EffectiveCapabilityCeiling) (definition : AgentDefinition) :
    (narrow ceiling definition).allowedToolIds.length =
      (definition.allowedToolIds.toFinset ∩ ceiling.allowedToolIds.toFinset).card := by
  have hnodup : (narrow ceiling definition).allowedToolIds.Nodup := nodup_sortDedup _
  rw [← List.toFinset_card_of_nodup hnodup]
  congr 1
  ext id
  rw [List.mem_toFinset, mem_narrow, Finset.mem_inter, List.mem_toFinset, List.mem_toFinset]
  exact and_comm

/-- `prepare` succeeds with its last step, if the steps before do. -/
theorem prepare_isOk_of_steps {rt : Runtime} {inv : Invocation}
    {effective : EffectiveCapabilityCeiling} {resolved : List ToolDescriptor}
    {reference : ProviderId × ModelId}
    {tools : List ToolDefinition × BTreeMap String ToolDescriptor} {prompt : Prompt}
    {limits : GenerationLimits} (hinput : byteLen inv.input ≤ maxInputBytes)
    (heffective : inv.ceiling.intersect inv.definition = .ok effective)
    (hresolved : effective.allowedToolIds.mapM rt.resolve = .ok resolved)
    (hreference : parseModelReference inv.definition.model.reference = .ok reference)
    (htools : gatewayTools rt.serde resolved
      (.fromDefinition rt.sha256 inv.definition resolved effective) = .ok tools)
    (hprompt : Prompt.new (some inv.definition.instructions) inv.input = .ok prompt)
    (hlimits : GenerationLimits.new inv.definition.limits.maxOutputBytes = .ok limits) :
    (prepare rt inv).isOk =
      (GenerateRequest.new reference.1 reference.2 prompt tools.1 limits).isOk := by
  unfold prepare
  rw [if_neg (Nat.not_lt.mpr hinput)]
  simp only [heffective, hresolved, hreference, htools, hprompt, hlimits, ok_bind, Except.mapError]
  cases GenerateRequest.new reference.1 reference.2 prompt tools.1 limits with
  | error e => rfl
  | ok request => rfl

theorem length_offered (sha256 : Sha256) (definition : AgentDefinition)
    (ceiling : EffectiveCapabilityCeiling) (resolved : List ToolDescriptor) :
    (narrow ceiling definition).allowedToolIds.length +
      (reservedSpecs (.fromDefinition sha256 definition resolved
        (narrow ceiling definition))).length = toolCount definition ceiling := by
  have hflag : ∀ d c : Bool, (d && (c && d)) = (d && c) := by decide
  rw [length_narrow, length_reservedSpecs]
  unfold toolCount
  congr 1
  simp only [ResolvedCapabilityScope.fromDefinition, undigestedScope, narrow, hflag]

theorem prepare_isOk_of_accepted {catalog : ReferenceCatalog} {rt : Runtime} {inv : Invocation}
    (hserde : ReadsSchemas rt.serde) (haccepted : Accepted catalog inv.definition)
    (hmodel : (parseModelReference inv.definition.model.reference).isOk)
    (hresolve : ∀ id ∈ inv.definition.allowedToolIds,
      rt.resolve id = .ok ⟨id⟩ ∧ id ∉ reservedToolNames)
    (hinput : byteLen inv.input ≤ maxInputBytes)
    (hceiling : validateEffectiveCapabilityCeiling inv.ceiling = .ok ()) :
    (prepare rt inv).isOk ↔ toolCount inv.definition inv.ceiling ≤ maxTools := by
  obtain ⟨hinstructions, hone, hmax, hreferences⟩ := accepted_limits haccepted
  obtain ⟨reference, hreference⟩ := isOk_iff.mp hmodel
  have heffective : inv.ceiling.intersect inv.definition =
      .ok (narrow inv.ceiling inv.definition) := intersect_eq_ok_iff.mpr ⟨hceiling, rfl⟩
  have hmem : ∀ id ∈ (narrow inv.ceiling inv.definition).allowedToolIds,
      id ∈ inv.definition.allowedToolIds := fun id hid => (mem_narrow.mp hid).2
  have hresolved : (narrow inv.ceiling inv.definition).allowedToolIds.mapM rt.resolve =
      .ok ((narrow inv.ceiling inv.definition).allowedToolIds.map ToolDescriptor.mk) := by
    refine mapM_eq_ok.mpr (List.forall₂_map_right_iff.mpr (List.forall₂_same.mpr fun id hid => ?_))
    exact (hresolve id (hmem id hid)).1
  have hvalid : ∀ tool ∈ (narrow inv.ceiling inv.definition).allowedToolIds.map ToolDescriptor.mk,
      validReference tool.id ∧ tool.id ∉ reservedToolNames := by
    intro tool htool
    obtain ⟨id, hid, rfl⟩ := List.mem_map.mp htool
    exact ⟨hreferences id (hmem id hid), (hresolve id (hmem id hid)).2⟩
  have hnodup : (((narrow inv.ceiling inv.definition).allowedToolIds.map
      ToolDescriptor.mk).map ToolDescriptor.id).Nodup := by
    rw [List.map_map, show ToolDescriptor.id ∘ ToolDescriptor.mk = id from rfl, List.map_id]
    exact nodup_sortDedup _
  obtain ⟨definitions, ordinary, htools, hrequest⟩ := request_isOk_iff hserde hvalid hnodup
  rw [prepare_isOk_of_steps hinput heffective hresolved hreference htools
    (prompt_new_eq_ok hinstructions hinput) (generationLimits_new_eq_ok hone hmax), hrequest,
    List.length_map, length_offered]

/-- A registered definition whose model and tools resolve gets past the construction of its
request exactly if it offers no more tools than the gateway takes. -/
theorem prepare_isOk_iff {σ : Type} {registry : AgentRegistry σ} {state : σ} {rt : Runtime}
    {inv : Invocation} (hserde : ReadsSchemas rt.serde)
    (hregister : (registry.register state inv.definition).1 = .ok ())
    (hmodel : (parseModelReference inv.definition.model.reference).isOk)
    (hresolve : ∀ id ∈ inv.definition.allowedToolIds,
      rt.resolve id = .ok ⟨id⟩ ∧ id ∉ reservedToolNames)
    (hinput : byteLen inv.input ≤ maxInputBytes)
    (hceiling : validateEffectiveCapabilityCeiling inv.ceiling = .ok ()) :
    (prepare rt inv).isOk ↔ toolCount inv.definition inv.ceiling ≤ maxTools :=
  prepare_isOk_of_accepted hserde (AgentRegistry.register_accepted hregister) hmodel hresolve hinput
    hceiling

example : toolCount (sampleDefinition false) (.fullDefinition (sampleDefinition false)) = 2 := by
  decide +kernel

theorem sampleSerde_readsSchemas : ReadsSchemas sampleSerde where
  parse schema h := by
    simp only [schemaTexts, List.mem_cons, List.not_mem_nil, or_false] at h
    change sampleTexts.lookup schema.1 = some schema.2
    rcases h with rfl | rfl | rfl | rfl
    · exact List.lookup_eq_some_iff.mpr ⟨sampleTexts.take 0, sampleTexts.drop 1, rfl, by decide +kernel⟩
    · exact List.lookup_eq_some_iff.mpr ⟨sampleTexts.take 1, sampleTexts.drop 2, rfl, by decide +kernel⟩
    · exact List.lookup_eq_some_iff.mpr ⟨sampleTexts.take 2, sampleTexts.drop 3, rfl, by decide +kernel⟩
    · exact List.lookup_eq_some_iff.mpr ⟨sampleTexts.take 3, sampleTexts.drop 4, rfl, by decide +kernel⟩
  print schema h := by
    simp only [schemaTexts, List.mem_cons, List.not_mem_nil, or_false] at h
    rcases h with rfl | rfl | rfl | rfl <;> decide +kernel

/-- The sample agent, with one tool and knowledge, gets its request. -/
theorem prepare_isOk_sample :
    (prepare (sampleRuntime false []) (sampleInvocation false ⟨"request", by decide⟩)).isOk := by
  have hregister : (sampleRegistry.register ∅
      (sampleInvocation false ⟨"request", by decide⟩).definition).1 = .ok () := by
    decide +kernel
  refine (prepare_isOk_iff sampleSerde_readsSchemas hregister (by decide +kernel) ?_
    (by decide +kernel) (by decide +kernel)).mpr (by decide +kernel)
  intro id hid
  rw [List.mem_singleton.mp hid]
  exact ⟨rfl, by decide⟩

/-! ## A definition with all the tools it may name -/

def manyTools : List String := (List.range 64).map fun n => "tool" ++ decimal n

theorem nodup_manyTools : manyTools.Nodup := by
  refine List.Nodup.map (fun m n h => ?_) List.nodup_range
  exact decimal_injective ((String.append_right_inj "tool").mp h)

/-- 64 tools and knowledge. -/
def manyToolsDefinition : AgentDefinition :=
  { sampleDefinition false with allowedToolIds := manyTools }

/-- A registry whose catalog has every reference. -/
def manyToolsRegistry : AgentRegistry (BTreeMap AgentId AgentDefinition) where
  builtins := ∅
  store := InMemoryDefinitionStore
  catalog := ⟨fun _ => .ok true, fun _ => .ok true, fun _ => .ok true, fun _ => .ok true⟩
  valid := by simp

def manyToolsInvocation : Invocation :=
  { sampleInvocation false ⟨"request", by decide⟩ with
    definition := manyToolsDefinition
    ceiling := .fullDefinition manyToolsDefinition }

theorem toolCount_manyTools :
    toolCount manyToolsInvocation.definition manyToolsInvocation.ceiling = 65 := by
  change toolCount manyToolsInvocation.definition
    (.fullDefinition manyToolsInvocation.definition) = 65
  have hnodup : manyToolsInvocation.definition.allowedToolIds.Nodup := nodup_manyTools
  rw [toolCount_fullDefinition hnodup]
  decide +kernel

example : manyTools.length = 64 := by decide +kernel

/-- A definition with 64 tools and knowledge is registered, and its invocation under its own
ceiling does not get past the construction of the request. -/
theorem registered_over_tool_limit :
    (manyToolsRegistry.register ∅ manyToolsInvocation.definition).1 = .ok () ∧
    (parseModelReference manyToolsInvocation.definition.model.reference).isOk ∧
    (∀ id ∈ manyToolsInvocation.definition.allowedToolIds,
      (sampleRuntime false []).resolve id = .ok ⟨id⟩ ∧ id ∉ reservedToolNames) ∧
    byteLen manyToolsInvocation.input ≤ maxInputBytes ∧
    validateEffectiveCapabilityCeiling manyToolsInvocation.ceiling = .ok () ∧
    ¬(prepare (sampleRuntime false []) manyToolsInvocation).isOk := by
  have hregister : (manyToolsRegistry.register ∅ manyToolsInvocation.definition).1 = .ok () := by
    decide +kernel
  have hresolve : ∀ id ∈ manyToolsInvocation.definition.allowedToolIds,
      (sampleRuntime false []).resolve id = .ok ⟨id⟩ ∧ id ∉ reservedToolNames := by
    have hall : ∀ id ∈ manyToolsInvocation.definition.allowedToolIds, id ∉ reservedToolNames := by
      decide +kernel
    exact fun id hid => ⟨rfl, hall id hid⟩
  have hmodel : (parseModelReference manyToolsInvocation.definition.model.reference).isOk := by
    decide +kernel
  have hinput : byteLen manyToolsInvocation.input ≤ maxInputBytes := by decide +kernel
  have hceiling : validateEffectiveCapabilityCeiling manyToolsInvocation.ceiling = .ok () := by
    decide +kernel
  refine ⟨hregister, hmodel, hresolve, hinput, hceiling, fun hok => ?_⟩
  have hlimit := (prepare_isOk_of_accepted sampleSerde_readsSchemas
    (AgentRegistry.register_accepted hregister) hmodel hresolve hinput hceiling).mp hok
  rw [toolCount_manyTools] at hlimit
  exact absurd hlimit (by decide)

end RustFactory.Agent
