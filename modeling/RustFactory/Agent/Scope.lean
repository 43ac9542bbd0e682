import RustFactory.Agent.Model
import RustFactory.Lib.BTreeMap
import RustFactory.Lib.Digest

/-!
# Agents: the resolved capability scope

What an invocation may do, resolved once from the definition, the tools the registry knows and the
ceiling.  Every port request carries the scope, and its digest identifies it.
-/

namespace RustFactory.Agent

open RustFactory.Lib

/-- A tool as the registry describes it. -/
structure ToolDescriptor where
  id : String
  deriving DecidableEq

/-- What an invocation may do, with the digest of it. -/
structure ResolvedCapabilityScope where
  version : DefinitionVersion
  agentId : AgentId
  model : ModelPolicy
  instructions : String
  skills : List String
  steering : List String
  allowedToolIds : List String
  memory : MemoryPolicy
  knowledge : KnowledgePolicy
  sandbox : SandboxPolicy
  communication : CommunicationPolicy
  limits : ExecutionLimits
  digest : String
  deriving DecidableEq

/-! ## The digest -/

/-- What the hashed text begins with. -/
def capabilityScopeDigestFormat : String := "agent-core.capability-scope.sha256.v1"

def DefinitionVersion.asStr : DefinitionVersion → String
  | .v1 => "v1"

/-- A named field of the digested text: both parts with their lengths. -/
def field (name : String) (value : Bytes) : Bytes :=
  toBe 8 (byteLen name) ++ utf8 name ++ toBe 8 value.length ++ value

/-- A list as its length and its members, all under one name. -/
def fieldList (name : String) (values : List String) : Bytes :=
  field name (toBe 8 values.length) ++ values.flatMap fun value => field name (utf8 value)

def flagField (name : String) (value : Bool) : Bytes := field name [if value then 1 else 0]

def numberField (name : String) (value : UInt32) : Bytes := field name (toBe 4 value.toNat)

/-- The text that `digest_scope` hashes. -/
def scopeBytes (scope : ResolvedCapabilityScope) : Bytes :=
  field "format" (utf8 capabilityScopeDigestFormat) ++
  field "version" (utf8 scope.version.asStr) ++
  field "agent" (utf8 scope.agentId.asStr) ++
  field "model" (utf8 scope.model.reference) ++
  field "instructions" (utf8 scope.instructions) ++
  fieldList "skill" scope.skills ++
  fieldList "steering" scope.steering ++
  fieldList "tool" scope.allowedToolIds ++
  flagField "memory_enabled" scope.memory.enabled ++
  flagField "knowledge_enabled" scope.knowledge.enabled ++
  flagField "sandbox_allowed" scope.sandbox.allowExecution ++
  flagField "communication_allowed" scope.communication.allowMessages ++
  numberField "memory_max_items" scope.memory.maxItems ++
  field "knowledge_namespace" (utf8 scope.knowledge.namespace) ++
  numberField "knowledge_max_results" scope.knowledge.maxResults ++
  numberField "max_tool_calls" scope.limits.maxToolCalls ++
  numberField "max_output_bytes" scope.limits.maxOutputBytes

def digestScope (sha256 : Sha256) (scope : ResolvedCapabilityScope) : String :=
  sha256.hexDigest (scopeBytes scope)

/-! ## Resolution -/

/-- The scope before its digest is filled in. -/
def undigestedScope (definition : AgentDefinition) (tools : List ToolDescriptor)
    (ceiling : EffectiveCapabilityCeiling) : ResolvedCapabilityScope where
  version := definition.version
  agentId := definition.id
  model := definition.model
  instructions := definition.instructions
  skills := sortDedup definition.skills
  steering := sortDedup definition.steering
  allowedToolIds := sortDedup ((tools.map ToolDescriptor.id).filter fun id =>
    ceiling.allowedToolIds.contains id)
  memory := ⟨definition.memory.enabled && ceiling.memoryEnabled, definition.memory.maxItems⟩
  knowledge := ⟨definition.knowledge.enabled && ceiling.knowledgeEnabled,
    definition.knowledge.namespace, definition.knowledge.maxResults⟩
  sandbox := ⟨definition.sandbox.allowExecution && ceiling.sandboxExecutionAllowed⟩
  communication := ⟨definition.communication.allowMessages && ceiling.communicationAllowed⟩
  limits := definition.limits
  digest := ""

/-- The scope of a definition and its tools under a ceiling. -/
def ResolvedCapabilityScope.fromDefinition (sha256 : Sha256) (definition : AgentDefinition)
    (tools : List ToolDescriptor) (ceiling : EffectiveCapabilityCeiling) :
    ResolvedCapabilityScope :=
  { undigestedScope definition tools ceiling with
    digest := digestScope sha256 (undigestedScope definition tools ceiling) }

/-- The digest of the scope without a ceiling. -/
def capabilityScopeDigest (sha256 : Sha256) (definition : AgentDefinition)
    (tools : List ToolDescriptor) : String :=
  (ResolvedCapabilityScope.fromDefinition sha256 definition tools
    (.fullDefinition definition)).digest

/-- The digest of the scope under a ceiling. -/
def capabilityScopeDigestWithCeiling (sha256 : Sha256) (definition : AgentDefinition)
    (tools : List ToolDescriptor) (ceiling : EffectiveCapabilityCeiling) :
    Except DefinitionError String := do
  let effective ← ceiling.intersect definition
  .ok (ResolvedCapabilityScope.fromDefinition sha256 definition tools effective).digest

/-! ## Sorted lists without repetition -/

theorem sortDedup_eq_dedup (values : List String) :
    sortDedup values = (values.mergeSort fun a b => decide (a ≤ b)).dedup := by
  have hsorted : (values.mergeSort fun a b => decide (a ≤ b)).Pairwise (· ≤ ·) :=
    List.pairwise_mergeSort' (· ≤ ·) values
  exact hsorted.destutter_eq_dedup

@[simp] theorem mem_sortDedup {values : List String} {value : String} :
    value ∈ sortDedup values ↔ value ∈ values := by
  rw [sortDedup_eq_dedup, List.mem_dedup, List.mem_mergeSort]

theorem nodup_sortDedup (values : List String) : (sortDedup values).Nodup := by
  rw [sortDedup_eq_dedup]
  exact List.nodup_dedup _

theorem sortDedup_eq_distinct (values : List String) :
    sortDedup values = BTreeMap.distinct values := by
  have hsorted : (sortDedup values).Pairwise (· < ·) := by
    have hle : (sortDedup values).Pairwise (· ≤ ·) :=
      (List.pairwise_mergeSort' (· ≤ ·) values).sublist (List.destutter_sublist _ _)
    exact (hle.and (nodup_sortDedup values)).imp fun h => lt_of_le_of_ne h.1 h.2
  refine BTreeMap.eq_of_mem_iff (f := id) hsorted (BTreeMap.ordered_distinct values) fun value => ?_
  rw [mem_sortDedup, BTreeMap.mem_distinct]

theorem sortDedup_eq_iff {values values' : List String} :
    sortDedup values = sortDedup values' ↔ ∀ value, value ∈ values ↔ value ∈ values' := by
  rw [sortDedup_eq_distinct, sortDedup_eq_distinct, BTreeMap.distinct_eq_iff]

/-! ## What a scope allows -/

/-- An intersection keeps only what both sides allow. -/
theorem intersect_eq_ok {ceiling effective : EffectiveCapabilityCeiling}
    {definition : AgentDefinition} (h : ceiling.intersect definition = .ok effective) :
    (∀ id ∈ effective.allowedToolIds,
      id ∈ ceiling.allowedToolIds ∧ id ∈ definition.allowedToolIds) ∧
    effective.memoryEnabled = (ceiling.memoryEnabled && definition.memory.enabled) ∧
    effective.knowledgeEnabled = (ceiling.knowledgeEnabled && definition.knowledge.enabled) ∧
    effective.sandboxExecutionAllowed =
      (ceiling.sandboxExecutionAllowed && definition.sandbox.allowExecution) := by
  unfold EffectiveCapabilityCeiling.intersect at h
  obtain ⟨⟨⟩, -, h⟩ := bind_eq_ok.mp h
  cases h
  refine ⟨fun id hid => ?_, rfl, rfl, rfl⟩
  have := List.mem_filter.mp (mem_sortDedup.mp hid)
  exact ⟨this.1, List.contains_iff_mem.mp this.2⟩

/-- A scope resolved under an intersection allows only what definition and ceiling both allow,
whatever the registry describes. -/
theorem fromDefinition_allows {sha256 : Sha256} {ceiling effective : EffectiveCapabilityCeiling}
    {definition : AgentDefinition} (h : ceiling.intersect definition = .ok effective)
    (tools : List ToolDescriptor) :
    (∀ id ∈ (ResolvedCapabilityScope.fromDefinition sha256 definition tools
        effective).allowedToolIds, id ∈ definition.allowedToolIds ∧ id ∈ ceiling.allowedToolIds) ∧
    ((ResolvedCapabilityScope.fromDefinition sha256 definition tools
        effective).memory.enabled = true →
      definition.memory.enabled = true ∧ ceiling.memoryEnabled = true) ∧
    ((ResolvedCapabilityScope.fromDefinition sha256 definition tools
        effective).knowledge.enabled = true →
      definition.knowledge.enabled = true ∧ ceiling.knowledgeEnabled = true) ∧
    ((ResolvedCapabilityScope.fromDefinition sha256 definition tools
        effective).sandbox.allowExecution = true →
      definition.sandbox.allowExecution = true ∧ ceiling.sandboxExecutionAllowed = true) := by
  obtain ⟨htools, hmemory, hknowledge, hsandbox⟩ := intersect_eq_ok h
  refine ⟨fun id hid => ?_, fun henabled => ?_, fun henabled => ?_, fun henabled => ?_⟩
  · have hmem := (List.mem_filter.mp (mem_sortDedup.mp hid)).2
    exact (htools id (List.contains_iff_mem.mp hmem)).symm
  · change (definition.memory.enabled && effective.memoryEnabled) = true at henabled
    rw [hmemory, Bool.and_eq_true, Bool.and_eq_true] at henabled
    exact ⟨henabled.1, henabled.2.1⟩
  · change (definition.knowledge.enabled && effective.knowledgeEnabled) = true at henabled
    rw [hknowledge, Bool.and_eq_true, Bool.and_eq_true] at henabled
    exact ⟨henabled.1, henabled.2.1⟩
  · change (definition.sandbox.allowExecution && effective.sandboxExecutionAllowed) = true
      at henabled
    rw [hsandbox, Bool.and_eq_true, Bool.and_eq_true] at henabled
    exact ⟨henabled.1, henabled.2.1⟩

end RustFactory.Agent
