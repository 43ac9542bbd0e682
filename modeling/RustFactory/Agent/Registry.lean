import RustFactory.Agent.Runtime

/-!
# Agents: the registry

Definitions are validated when they are registered and again when they are read; built-in
definitions are validated once, when the registry is made, and shadow stored ones.  The runtime
looks a definition up here before it invokes it.
-/

namespace RustFactory.Agent

open RustFactory.Lib

instance : LinearOrder AgentId :=
  LinearOrder.lift' AgentId.asStr fun a b h => by cases a; cases b; cases h; rfl

def maxOutputBytes : UInt32 := 65536

/-! ## Validation -/

/-- A text that is empty once trimmed. -/
def trimIsEmpty (value : String) : Bool := value.toList.all isWhitespace

/-- A definition with all its texts, within the bounds. -/
def validateDefinition (definition : AgentDefinition) : Except DefinitionError Unit :=
  if trimIsEmpty definition.name || trimIsEmpty definition.description ||
      trimIsEmpty definition.instructions || maxInputBytes < byteLen definition.instructions ||
      maxCapabilityReferences < definition.skills.length ||
      maxCapabilityReferences < definition.steering.length ||
      maxCapabilityReferences < definition.allowedToolIds.length ||
      definition.limits.maxToolCalls == 0 || maxToolCalls < definition.limits.maxToolCalls ||
      definition.limits.maxOutputBytes == 0 ||
      maxOutputBytes < definition.limits.maxOutputBytes ||
      (definition.memory.enabled && definition.memory.maxItems == 0) ||
      (definition.knowledge.enabled && definition.knowledge.maxResults == 0) ||
      Knowledge.maxSearchLimit < definition.knowledge.maxResults ||
      !(Knowledge.Identifier.new definition.knowledge.namespace).isOk then
    .error .invalidDefinition
  else if !validReference definition.model.reference || !definition.skills.all validReference ||
      !definition.steering.all validReference ||
      !definition.allowedToolIds.all validReference then
    .error .invalidReference
  else
    .ok ()

/-- The port that knows which references are available. -/
structure ReferenceCatalog where
  containsModel : String → Except DefinitionError Bool
  containsSkill : String → Except DefinitionError Bool
  containsSteering : String → Except DefinitionError Bool
  containsTool : String → Except DefinitionError Bool

/-- A catalog of fixed references. -/
structure StaticReferenceCatalog where
  models : List String
  skills : List String
  steering : List String
  tools : List String

/-- The catalog as the registry asks it. -/
def StaticReferenceCatalog.catalog (static : StaticReferenceCatalog) : ReferenceCatalog where
  containsModel reference := .ok (static.models.contains reference)
  containsSkill reference := .ok (static.skills.contains reference)
  containsSteering reference := .ok (static.steering.contains reference)
  containsTool reference := .ok (static.tools.contains reference)

/-- One check of `validate_references`: a failing catalog counts as one that lacks the reference. -/
def requireReference (contains : String → Except DefinitionError Bool) (reference : String) :
    Except DefinitionError Unit :=
  match contains reference with
  | .ok true => .ok ()
  | _ => .error .referenceUnavailable

/-- All references of a definition are known. -/
def validateReferences (catalog : ReferenceCatalog) (definition : AgentDefinition) :
    Except DefinitionError Unit := do
  requireReference catalog.containsModel definition.model.reference
  definition.skills.forM (requireReference catalog.containsSkill)
  definition.steering.forM (requireReference catalog.containsSteering)
  definition.allowedToolIds.forM (requireReference catalog.containsTool)

/-! ## Stores -/

/-- The persistence port of user definitions, over a state `σ`. -/
structure DefinitionStore (σ : Type) where
  load : σ → AgentId → Except DefinitionError (Option AgentDefinition)
  list : σ → Except DefinitionError (List AgentDefinition)
  save : σ → AgentDefinition → Except DefinitionError Unit × σ
  delete : σ → AgentId → Except DefinitionError Unit × σ

/-- The store that keeps definitions in memory. -/
def InMemoryDefinitionStore : DefinitionStore (BTreeMap AgentId AgentDefinition) where
  load definitions id := .ok definitions[id]?
  list definitions := .ok definitions.values
  save definitions definition := (.ok (), definitions.insert definition.id definition)
  delete definitions id := (.ok (), definitions.erase id)

/-! ## The registry -/

/-- A definition that both checks accept. -/
def Accepted (catalog : ReferenceCatalog) (definition : AgentDefinition) : Prop :=
  validateDefinition definition = .ok () ∧ validateReferences catalog definition = .ok ()

/-- A registry of the built-in definitions and those of a store. -/
structure AgentRegistry (σ : Type) where
  builtins : BTreeMap AgentId AgentDefinition
  store : DefinitionStore σ
  catalog : ReferenceCatalog
  valid : ∀ id definition, builtins[id]? = some definition →
    definition.id = id ∧ Accepted catalog definition

/-- The loop of `AgentRegistry::new`. -/
def indexBuiltins (catalog : ReferenceCatalog) :
    List AgentDefinition → BTreeMap AgentId AgentDefinition →
      Except DefinitionError (BTreeMap AgentId AgentDefinition)
  | [], indexed => .ok indexed
  | definition :: builtins, indexed => do
    validateDefinition definition
    validateReferences catalog definition
    if (indexed[definition.id]?).isSome then .error .invalidDefinition
    else indexBuiltins catalog builtins (indexed.insert definition.id definition)

theorem indexBuiltins_valid {catalog : ReferenceCatalog} {builtins : List AgentDefinition}
    {indexed result : BTreeMap AgentId AgentDefinition}
    (hindexed : ∀ id definition, indexed[id]? = some definition →
      definition.id = id ∧ Accepted catalog definition)
    (h : indexBuiltins catalog builtins indexed = .ok result) :
    ∀ id definition, result[id]? = some definition →
      definition.id = id ∧ Accepted catalog definition := by
  induction builtins generalizing indexed with
  | nil =>
    cases h
    exact hindexed
  | cons builtin builtins ih =>
    unfold indexBuiltins at h
    obtain ⟨⟨⟩, hdefinition, h⟩ := bind_eq_ok.mp h
    obtain ⟨⟨⟩, hreferences, h⟩ := bind_eq_ok.mp h
    split_ifs at h
    refine ih ?_ h
    intro id definition hget
    by_cases hid : builtin.id = id
    · subst hid
      rw [Std.ExtTreeMap.getElem?_insert_self] at hget
      cases hget
      exact ⟨rfl, hdefinition, hreferences⟩
    · rw [Std.ExtTreeMap.getElem?_insert, if_neg (by rwa [compare_eq_iff_eq])] at hget
      exact hindexed id definition hget

/-- The loop keeps what is indexed and indexes what it is given. -/
theorem indexBuiltins_get {catalog : ReferenceCatalog} {builtins : List AgentDefinition}
    {indexed result : BTreeMap AgentId AgentDefinition}
    (h : indexBuiltins catalog builtins indexed = .ok result) :
    (∀ (id : AgentId) (definition : AgentDefinition), indexed[id]? = some definition →
        result[id]? = some definition) ∧
      ∀ definition ∈ builtins, result[definition.id]? = some definition := by
  induction builtins generalizing indexed with
  | nil =>
    cases h
    exact ⟨fun _ _ hindexed => hindexed, fun _ hmem => absurd hmem List.not_mem_nil⟩
  | cons builtin builtins ih =>
    unfold indexBuiltins at h
    obtain ⟨⟨⟩, -, h⟩ := bind_eq_ok.mp h
    obtain ⟨⟨⟩, -, h⟩ := bind_eq_ok.mp h
    split_ifs at h with hfresh
    obtain ⟨hkept, hindexes⟩ := ih h
    refine ⟨fun id definition hindexed => hkept id definition ?_, fun definition hmem => ?_⟩
    · rw [Std.ExtTreeMap.getElem?_insert, if_neg]
      · exact hindexed
      · rw [compare_eq_iff_eq]
        rintro rfl
        rw [hindexed] at hfresh
        exact hfresh rfl
    · rcases List.mem_cons.mp hmem with rfl | hmem
      · exact hkept _ _ Std.ExtTreeMap.getElem?_insert_self
      · exact hindexes definition hmem

variable {σ : Type}

/-- A registry whose built-in definitions are valid and distinct. -/
def AgentRegistry.new (builtins : List AgentDefinition) (store : DefinitionStore σ)
    (catalog : ReferenceCatalog) : Except DefinitionError (AgentRegistry σ) :=
  match h : indexBuiltins catalog builtins ∅ with
  | .error e => .error e
  | .ok indexed => .ok ⟨indexed, store, catalog, indexBuiltins_valid (by simp) h⟩

def AgentRegistry.validate (registry : AgentRegistry σ) (definition : AgentDefinition) :
    Except DefinitionError Unit := do
  validateDefinition definition
  validateReferences registry.catalog definition

/-- The definition of an agent; a built-in one comes first. -/
def AgentRegistry.get (registry : AgentRegistry σ) (state : σ) (id : AgentId) :
    Except DefinitionError AgentDefinition :=
  match registry.builtins[id]? with
  | some definition => .ok definition
  | none => do
    let loaded ← registry.store.load state id
    let definition ← okOr .notFound loaded
    registry.validate definition
    .ok definition

/-- A built-in definition is found, whatever is stored. -/
theorem AgentRegistry.get_builtin {builtins : List AgentDefinition} {store : DefinitionStore σ}
    {catalog : ReferenceCatalog} {registry : AgentRegistry σ}
    (h : AgentRegistry.new builtins store catalog = .ok registry) {definition : AgentDefinition}
    (hmem : definition ∈ builtins) (state : σ) :
    registry.get state definition.id = .ok definition := by
  unfold AgentRegistry.new at h
  split at h
  · cases h
  · rename_i indexed hindexed
    cases h
    unfold AgentRegistry.get
    simp only [(indexBuiltins_get hindexed).2 definition hmem]

/-- What a listing shows of an agent. -/
structure AgentSummary where
  id : AgentId
  name : String
  description : String
  deriving DecidableEq

/-- All agents, in the order of their identifiers. -/
def AgentRegistry.list (registry : AgentRegistry σ) (state : σ) :
    Except DefinitionError (List AgentSummary) := do
  let stored ← registry.store.list state
  stored.forM registry.validate
  let merged := stored.foldl (fun merged definition => merged.insertIfNew definition.id definition)
    registry.builtins
  .ok (merged.values.map fun definition => ⟨definition.id, definition.name, definition.description⟩)

/-- Saves a valid definition, which must not be a built-in one. -/
def AgentRegistry.register (registry : AgentRegistry σ) (state : σ) (definition : AgentDefinition) :
    Except DefinitionError Unit × σ :=
  match registry.validate definition with
  | .error e => (.error e, state)
  | .ok () =>
    if (registry.builtins[definition.id]?).isSome then (.error .builtinProtected, state)
    else registry.store.save state definition

/-- Deletes a definition, which must not be a built-in one. -/
def AgentRegistry.delete (registry : AgentRegistry σ) (state : σ) (id : AgentId) :
    Except DefinitionError Unit × σ :=
  if (registry.builtins[id]?).isSome then (.error .builtinProtected, state)
  else registry.store.delete state id

/-! ## Invocations by identifier -/

section Invoke

variable (rt : Runtime) (registry : AgentRegistry σ) (state : σ) (context : InvocationContext)
  (id : AgentId) (input : String) (control : InvocationControl)

/-- `invoke`, with the port calls it made. -/
def invoke : Except DefinitionError InvocationResult × List PortCall :=
  match registry.get state id with
  | .error e => (.error e, [])
  | .ok definition =>
    invokeDefinition rt ⟨context, id, input, definition, .fullDefinition definition, control⟩

/-- An invocation whose ceiling is checked first. -/
def invokeWithCeiling (ceiling : EffectiveCapabilityCeiling) :
    Except DefinitionError InvocationResult × List PortCall :=
  match validateEffectiveCapabilityCeiling ceiling with
  | .error e => (.error e, [])
  | .ok () =>
    match registry.get state id with
    | .error e => (.error e, [])
    | .ok definition => invokeDefinition rt ⟨context, id, input, definition, ceiling, control⟩

end Invoke

/-! ## What the registry returns is valid -/

theorem AgentRegistry.validate_eq_ok {registry : AgentRegistry σ} {definition : AgentDefinition} :
    registry.validate definition = .ok () ↔ Accepted registry.catalog definition := by
  unfold AgentRegistry.validate Accepted
  rw [bind_eq_ok]
  exact ⟨fun ⟨⟨⟩, h⟩ => h, fun h => ⟨(), h⟩⟩

theorem AgentRegistry.get_accepted {registry : AgentRegistry σ} {state : σ} {id : AgentId}
    {definition : AgentDefinition} (h : registry.get state id = .ok definition) :
    Accepted registry.catalog definition := by
  unfold AgentRegistry.get at h
  cases hbuiltin : registry.builtins[id]? with
  | some builtin =>
    simp only [hbuiltin] at h
    cases h
    exact (registry.valid id definition hbuiltin).2
  | none =>
    simp only [hbuiltin] at h
    obtain ⟨loaded, -, h⟩ := bind_eq_ok.mp h
    obtain ⟨stored, -, h⟩ := bind_eq_ok.mp h
    obtain ⟨⟨⟩, hvalid, h⟩ := bind_eq_ok.mp h
    cases h
    exact AgentRegistry.validate_eq_ok.mp hvalid

theorem AgentRegistry.register_accepted {registry : AgentRegistry σ} {state : σ}
    {definition : AgentDefinition} (h : (registry.register state definition).1 = .ok ()) :
    Accepted registry.catalog definition := by
  unfold AgentRegistry.register at h
  cases hvalid : registry.validate definition with
  | error e => simp only [hvalid] at h; cases h
  | ok _ => exact AgentRegistry.validate_eq_ok.mp hvalid

end RustFactory.Agent
