import RustFactory.Agent.Registry
import RustFactory.Lib.Machine

/-!
# Agents: the registry over a history

The registry merges built-in and stored definitions when it is read, and keeps the two apart when it
is written.  After any history of registrations and deletions every stored definition stands under
its own identifier and passes both checks, so that reading one definition and listing them all agree.
-/

namespace RustFactory.Agent

open RustFactory.Lib

/-! ## Built-in definitions -/

theorem indexBuiltins_keeps {catalog : ReferenceCatalog} {builtins : List AgentDefinition}
    {indexed result : BTreeMap AgentId AgentDefinition}
    (h : indexBuiltins catalog builtins indexed = .ok result) {id : AgentId}
    {definition : AgentDefinition} (hget : indexed[id]? = some definition) :
    result[id]? = some definition := by
  induction builtins generalizing indexed with
  | nil =>
    cases h
    exact hget
  | cons builtin builtins ih =>
    unfold indexBuiltins at h
    obtain ⟨⟨⟩, -, h⟩ := bind_eq_ok.mp h
    obtain ⟨⟨⟩, -, h⟩ := bind_eq_ok.mp h
    split_ifs at h with hnew
    refine ih h ?_
    rw [BTreeMap.getElem?_insert_of_ne, hget]
    rintro rfl
    rw [hget] at hnew
    exact hnew rfl

theorem indexBuiltins_mem {catalog : ReferenceCatalog} {builtins : List AgentDefinition}
    {indexed result : BTreeMap AgentId AgentDefinition}
    (h : indexBuiltins catalog builtins indexed = .ok result) {definition : AgentDefinition}
    (hmem : definition ∈ builtins) : result[definition.id]? = some definition := by
  induction builtins generalizing indexed with
  | nil => exact absurd hmem List.not_mem_nil
  | cons builtin builtins ih =>
    unfold indexBuiltins at h
    obtain ⟨⟨⟩, -, h⟩ := bind_eq_ok.mp h
    obtain ⟨⟨⟩, -, h⟩ := bind_eq_ok.mp h
    split_ifs at h
    rcases List.mem_cons.mp hmem with rfl | hmem
    · exact indexBuiltins_keeps h Std.ExtTreeMap.getElem?_insert_self
    · exact ih h hmem

/-- A registry that could be made holds its parts as given, the built-in definitions by
identifier. -/
theorem AgentRegistry.new_eq_ok {σ : Type} {builtins : List AgentDefinition}
    {store : DefinitionStore σ} {catalog : ReferenceCatalog} {registry : AgentRegistry σ}
    (h : AgentRegistry.new builtins store catalog = .ok registry) :
    registry.store = store ∧ registry.catalog = catalog ∧
      indexBuiltins catalog builtins ∅ = .ok registry.builtins := by
  unfold AgentRegistry.new at h
  split at h
  · cases h
  · next indexed hindexed =>
    cases h
    exact ⟨rfl, rfl, hindexed⟩

/-! ## Histories -/

/-- The calls that write. -/
inductive RegistryCall where
  | register (definition : AgentDefinition)
  | delete (id : AgentId)

/-- A registry as a machine over the state of its store. -/
def AgentRegistry.machine {σ : Type} (registry : AgentRegistry σ) :
    Machine σ RegistryCall (Except DefinitionError Unit) where
  step state call :=
    match call with
    | .register definition => registry.register state definition
    | .delete id => registry.delete state id

/-- The definition stands under its own identifier and passes both checks. -/
def Filed (catalog : ReferenceCatalog) (id : AgentId) (definition : AgentDefinition) : Prop :=
  definition.id = id ∧ Accepted catalog definition

section InMemory

variable {registry : AgentRegistry (BTreeMap AgentId AgentDefinition)}
  {state : BTreeMap AgentId AgentDefinition}

/-- A call changes the store by one insertion or one removal, away from the built-in definitions, or
it fails and changes nothing. -/
theorem AgentRegistry.step_cases (hstore : registry.store = InMemoryDefinitionStore)
    (state : BTreeMap AgentId AgentDefinition) (call : RegistryCall) :
    (∃ e, registry.machine.step state call = (.error e, state)) ∨
    (∃ definition : AgentDefinition, call = .register definition ∧
      registry.builtins[definition.id]? = none ∧ Accepted registry.catalog definition ∧
      registry.machine.step state call = (.ok (), state.insert definition.id definition)) ∨
    ∃ id : AgentId, call = .delete id ∧ registry.builtins[id]? = none ∧
      registry.machine.step state call = (.ok (), state.erase id) := by
  cases call with
  | register definition =>
    change (∃ e, registry.register state definition = (.error e, state)) ∨
      (∃ other, RegistryCall.register definition = .register other ∧ _ ∧ _ ∧
        registry.register state definition = _) ∨ _
    unfold AgentRegistry.register
    cases hvalid : registry.validate definition with
    | error e => exact Or.inl ⟨e, rfl⟩
    | ok _ =>
      cases hbuiltin : registry.builtins[definition.id]? with
      | some builtin =>
        refine Or.inl ⟨.builtinProtected, ?_⟩
        simp only [Option.isSome_some, if_true]
      | none =>
        refine Or.inr (Or.inl ⟨definition, rfl, hbuiltin,
          AgentRegistry.validate_eq_ok.mp hvalid, ?_⟩)
        simp only [Option.isSome_none, Bool.false_eq_true, if_false, hstore]
        rfl
  | delete id =>
    change (∃ e, registry.delete state id = (.error e, state)) ∨ _ ∨
      ∃ other, RegistryCall.delete id = .delete other ∧ _ ∧ registry.delete state id = _
    unfold AgentRegistry.delete
    cases hbuiltin : registry.builtins[id]? with
    | some builtin =>
      refine Or.inl ⟨.builtinProtected, ?_⟩
      simp only [Option.isSome_some, if_true]
    | none =>
      refine Or.inr (Or.inr ⟨id, rfl, hbuiltin, ?_⟩)
      simp only [Option.isSome_none, Bool.false_eq_true, if_false, hstore]
      rfl

theorem AgentRegistry.step_filed (hstore : registry.store = InMemoryDefinitionStore)
    (call : RegistryCall) (h : BTreeMap.Forall (Filed registry.catalog) state) :
    BTreeMap.Forall (Filed registry.catalog) (registry.machine.step state call).2 := by
  rcases AgentRegistry.step_cases hstore state call with
    ⟨e, heq⟩ | ⟨definition, -, -, haccepted, heq⟩ | ⟨id, -, -, heq⟩
  · rw [heq]
    exact h
  · rw [heq]
    exact h.insert ⟨rfl, haccepted⟩
  · rw [heq]
    exact h.erase id

/-- After every history the stored definitions stand under their identifiers and are valid. -/
theorem AgentRegistry.run_filed (hstore : registry.store = InMemoryDefinitionStore)
    (calls : List RegistryCall) :
    BTreeMap.Forall (Filed registry.catalog) (registry.machine.final ∅ calls) :=
  Machine.invariant_final (fun _ call h => AgentRegistry.step_filed hstore call h)
    BTreeMap.Forall.empty calls

/-! ## Reading -/

/-- What the registry knows: a built-in definition, or else a stored one. -/
def AgentRegistry.view (registry : AgentRegistry (BTreeMap AgentId AgentDefinition))
    (state : BTreeMap AgentId AgentDefinition) (id : AgentId) : Option AgentDefinition :=
  registry.builtins[id]?.or state[id]?

theorem AgentRegistry.get_eq_view (hstore : registry.store = InMemoryDefinitionStore)
    (h : BTreeMap.Forall (Filed registry.catalog) state) (id : AgentId) :
    registry.get state id = okOr .notFound (registry.view state id) := by
  unfold AgentRegistry.get AgentRegistry.view
  cases hbuiltin : registry.builtins[id]? with
  | some builtin => rfl
  | none =>
    rw [Option.none_or]
    have hload : registry.store.load state id = .ok state[id]? := by rw [hstore]; rfl
    simp only [hload, ok_bind]
    cases hstored : state[id]? with
    | none => rfl
    | some definition =>
      have hvalid := AgentRegistry.validate_eq_ok.mpr (h id definition hstored).2
      simp only [okOr_some, ok_bind, hvalid]

theorem AgentRegistry.view_filed (h : BTreeMap.Forall (Filed registry.catalog) state)
    {id : AgentId} {definition : AgentDefinition}
    (hview : registry.view state id = some definition) : Filed registry.catalog id definition := by
  unfold AgentRegistry.view at hview
  rcases Option.or_eq_some_iff.mp hview with hbuiltin | ⟨-, hstored⟩
  · exact registry.valid id definition hbuiltin
  · exact h id definition hstored

/-- Merging keeps what is there and adds the first definition of each other identifier. -/
theorem getElem?_merged (stored : List AgentDefinition) (merged : BTreeMap AgentId AgentDefinition)
    (id : AgentId) :
    (stored.foldl (fun merged definition => merged.insertIfNew definition.id definition)
      merged)[id]? = merged[id]?.or (stored.find? fun definition => definition.id = id) := by
  induction stored generalizing merged with
  | nil => rw [List.foldl_nil, List.find?_nil, Option.or_none]
  | cons definition stored ih =>
    rw [List.foldl_cons, ih, BTreeMap.getElem?_insertIfNew_eq_or, Option.or_assoc]
    by_cases hid : definition.id = id
    · rw [if_pos hid, List.find?_cons_of_pos (by exact decide_eq_true hid), Option.some_or]
    · rw [if_neg hid, List.find?_cons_of_neg (by simpa using hid), Option.none_or]

/-- Looking for an identifier among the stored definitions finds what is stored under it. -/
theorem find?_values (h : BTreeMap.Forall (Filed registry.catalog) state) (id : AgentId) :
    (state.values.find? fun definition => definition.id = id) = state[id]? := by
  cases hfind : state.values.find? fun definition => definition.id = id with
  | some definition =>
    have hid : definition.id = id := by simpa using List.find?_some hfind
    obtain ⟨key, hkey⟩ := BTreeMap.mem_values.mp (List.mem_of_find?_eq_some hfind)
    rw [← hid, (h key definition hkey).1, hkey]
  | none =>
    cases hstored : state[id]? with
    | none => rfl
    | some definition =>
      have hmem : definition ∈ state.values := BTreeMap.mem_values.mpr ⟨id, hstored⟩
      have hid := (h id definition hstored).1
      exact absurd (decide_eq_true hid) (List.find?_eq_none.mp hfind definition hmem)

def AgentSummary.of (definition : AgentDefinition) : AgentSummary :=
  ⟨definition.id, definition.name, definition.description⟩

/-- The map whose values are listed holds what can be read. -/
theorem AgentRegistry.list_eq (hstore : registry.store = InMemoryDefinitionStore)
    (h : BTreeMap.Forall (Filed registry.catalog) state) :
    ∃ merged : BTreeMap AgentId AgentDefinition,
      (∀ id : AgentId, merged[id]? = registry.view state id) ∧
        registry.list state = .ok (merged.values.map AgentSummary.of) := by
  have hlist : registry.store.list state = .ok state.values := by rw [hstore]; rfl
  have hvalid : state.values.forM registry.validate = .ok () := by
    rw [forM_eq_ok]
    intro definition hmem
    obtain ⟨key, hkey⟩ := BTreeMap.mem_values.mp hmem
    exact AgentRegistry.validate_eq_ok.mpr (h key definition hkey).2
  let merged := state.values.foldl
    (fun merged definition => merged.insertIfNew definition.id definition) registry.builtins
  refine ⟨merged, fun id => ?_, ?_⟩
  · exact (getElem?_merged _ _ id).trans (congrArg _ (find?_values h id))
  · unfold AgentRegistry.list
    rw [hlist, ok_bind, hvalid]
    rfl

theorem map_id_summaries {catalog : ReferenceCatalog} {merged : BTreeMap AgentId AgentDefinition}
    (h : BTreeMap.Forall (Filed catalog) merged) :
    (merged.values.map AgentSummary.of).map AgentSummary.id = merged.keys := by
  rw [BTreeMap.values_eq_map_toList, List.map_map, List.map_map,
    ← Std.ExtTreeMap.map_fst_toList_eq_keys]
  exact List.map_congr_left fun entry hentry =>
    (h entry.1 entry.2 (BTreeMap.mem_toList.mp hentry)).1

end InMemory

/-- **The registry over every history.**  Every built-in definition is read as it was given, a call
that fails changes nothing, and the list has, in ascending order, the summaries of the definitions
that can be read. -/
theorem AgentRegistry.run_agrees {builtins : List AgentDefinition}
    {static : StaticReferenceCatalog}
    {registry : AgentRegistry (BTreeMap AgentId AgentDefinition)}
    (hnew : AgentRegistry.new builtins InMemoryDefinitionStore static.catalog = .ok registry)
    (calls : List RegistryCall) :
    (∀ definition ∈ builtins,
      registry.get (registry.machine.final ∅ calls) definition.id = .ok definition) ∧
    (∀ call e, (registry.machine.step (registry.machine.final ∅ calls) call).1 = .error e →
      (registry.machine.step (registry.machine.final ∅ calls) call).2 =
        registry.machine.final ∅ calls) ∧
    ∃ summaries, registry.list (registry.machine.final ∅ calls) = .ok summaries ∧
      (summaries.map AgentSummary.id).Pairwise (· < ·) ∧
      (∀ id, id ∈ summaries.map AgentSummary.id ↔
        (registry.get (registry.machine.final ∅ calls) id).isOk) ∧
      ∀ summary ∈ summaries, ∃ definition,
        registry.get (registry.machine.final ∅ calls) summary.id = .ok definition ∧
          summary = AgentSummary.of definition := by
  obtain ⟨hstore, -, hindexed⟩ := AgentRegistry.new_eq_ok hnew
  have hfiled := AgentRegistry.run_filed hstore calls
  generalize registry.machine.final ∅ calls = state at hfiled
  refine ⟨fun definition hmem => ?_, fun call e herror => ?_, ?_⟩
  · rw [AgentRegistry.get_eq_view hstore hfiled]
    unfold AgentRegistry.view
    rw [indexBuiltins_mem hindexed hmem]
    rfl
  · rcases AgentRegistry.step_cases hstore state call with
      ⟨e', heq⟩ | ⟨definition, -, -, -, heq⟩ | ⟨id, -, -, heq⟩
    · rw [heq]
    · rw [heq] at herror
      cases herror
    · rw [heq] at herror
      cases herror
  · obtain ⟨merged, hview, hlist⟩ := AgentRegistry.list_eq hstore hfiled
    have hmerged : BTreeMap.Forall (Filed registry.catalog) merged := fun id definition hget =>
      AgentRegistry.view_filed hfiled (hview id ▸ hget)
    have hget : ∀ id : AgentId, registry.get state id = okOr .notFound merged[id]? := by
      intro id
      rw [hview, AgentRegistry.get_eq_view hstore hfiled]
    refine ⟨_, hlist, ?_, ?_, ?_⟩
    · rw [map_id_summaries hmerged]
      exact BTreeMap.ordered_keys merged
    · intro id
      rw [map_id_summaries hmerged, Std.ExtTreeMap.mem_keys,
        Std.ExtTreeMap.mem_iff_isSome_getElem?, hget]
      cases merged[id]? with
      | none => exact ⟨nofun, nofun⟩
      | some definition => exact ⟨fun _ => rfl, fun _ => rfl⟩
    · intro summary hsummary
      obtain ⟨definition, hmem, rfl⟩ := List.mem_map.mp hsummary
      obtain ⟨key, hkey⟩ := BTreeMap.mem_values.mp hmem
      have hid : (AgentSummary.of definition).id = key := (hmerged key definition hkey).1
      refine ⟨definition, ?_, rfl⟩
      rw [hget, hid, hkey]
      rfl

/-- A built-in definition after attempts to delete it and to replace it. -/
theorem AgentRegistry.run_agrees_sample :
    ∃ registry, AgentRegistry.new [sampleDefinition false] InMemoryDefinitionStore
        (StaticReferenceCatalog.catalog ⟨["provider.model"], [], [], ["allowed"]⟩) = .ok registry ∧
      registry.get (registry.machine.final ∅
          [.delete (sampleDefinition false).id, .register (sampleDefinition true)])
        (sampleDefinition false).id = .ok (sampleDefinition false) := by
  have hisOk : (AgentRegistry.new [sampleDefinition false] InMemoryDefinitionStore
      (StaticReferenceCatalog.catalog ⟨["provider.model"], [], [], ["allowed"]⟩)).isOk := by
    decide +kernel
  obtain ⟨registry, hnew⟩ := isOk_iff.mp hisOk
  exact ⟨registry, hnew, (AgentRegistry.run_agrees hnew _).1 _ List.mem_cons_self⟩

end RustFactory.Agent
