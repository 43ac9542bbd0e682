import RustFactory.Agent.Authority
import RustFactory.Agent.Digest
import RustFactory.Agent.Registry

/-!
# Agents: ceilings narrow

Intersecting a ceiling with a definition is a projection onto the ceilings below the definition.
An invocation depends on its ceiling through the intersection only, and the digest that it reports
is the one that can be computed beforehand for the same definition and ceiling.
-/

namespace RustFactory.Agent

open RustFactory.Lib

/-! ## The order of ceilings -/

/-- `ceiling` permits at most what `other` permits. -/
structure Narrower (ceiling other : EffectiveCapabilityCeiling) : Prop where
  tools : ∀ id ∈ ceiling.allowedToolIds, id ∈ other.allowedToolIds
  memory : ceiling.memoryEnabled → other.memoryEnabled
  knowledge : ceiling.knowledgeEnabled → other.knowledgeEnabled
  sandbox : ceiling.sandboxExecutionAllowed → other.sandboxExecutionAllowed
  communication : ceiling.communicationAllowed → other.communicationAllowed

/-- What `intersect` returns for a valid ceiling. -/
def narrow (ceiling : EffectiveCapabilityCeiling) (definition : AgentDefinition) :
    EffectiveCapabilityCeiling where
  allowedToolIds :=
    sortDedup (ceiling.allowedToolIds.filter fun id => definition.allowedToolIds.contains id)
  memoryEnabled := ceiling.memoryEnabled && definition.memory.enabled
  knowledgeEnabled := ceiling.knowledgeEnabled && definition.knowledge.enabled
  sandboxExecutionAllowed := ceiling.sandboxExecutionAllowed && definition.sandbox.allowExecution
  communicationAllowed := ceiling.communicationAllowed && definition.communication.allowMessages

section Intersect

variable {ceiling ceiling' effective effective' : EffectiveCapabilityCeiling}
  {definition : AgentDefinition}

theorem validateCeiling_eq_ok :
    validateEffectiveCapabilityCeiling ceiling = .ok () ↔
      ceiling.allowedToolIds.length ≤ maxCapabilityReferences ∧
        ∀ id ∈ ceiling.allowedToolIds, validReference id := by
  unfold validateEffectiveCapabilityCeiling
  by_cases hlen : maxCapabilityReferences < ceiling.allowedToolIds.length
  · rw [if_pos hlen]
    exact iff_of_false nofun fun h => absurd h.1 (by omega)
  · rw [if_neg hlen]
    by_cases hall : ceiling.allowedToolIds.all validReference = true
    · rw [if_pos hall]
      exact iff_of_true rfl ⟨by omega, List.all_eq_true.mp hall⟩
    · rw [if_neg hall]
      exact iff_of_false nofun fun h => hall (List.all_eq_true.mpr h.2)

theorem intersect_eq_ok_iff :
    ceiling.intersect definition = .ok effective ↔
      validateEffectiveCapabilityCeiling ceiling = .ok () ∧ effective = narrow ceiling definition := by
  unfold EffectiveCapabilityCeiling.intersect
  rw [bind_eq_ok]
  constructor
  · rintro ⟨⟨⟩, hvalid, h⟩
    cases h
    exact ⟨hvalid, rfl⟩
  · rintro ⟨hvalid, rfl⟩
    exact ⟨(), hvalid, rfl⟩

theorem mem_narrow {id : String} :
    id ∈ (narrow ceiling definition).allowedToolIds ↔
      id ∈ ceiling.allowedToolIds ∧ id ∈ definition.allowedToolIds := by
  change id ∈ sortDedup _ ↔ _
  rw [mem_sortDedup, List.mem_filter, List.contains_iff_mem]

theorem length_sortDedup_le (values : List String) : (sortDedup values).length ≤ values.length := by
  rw [sortDedup_eq_dedup]
  exact ((List.dedup_sublist _).length_le).trans (List.length_mergeSort _).le

theorem validate_narrow (h : validateEffectiveCapabilityCeiling ceiling = .ok ()) :
    validateEffectiveCapabilityCeiling (narrow ceiling definition) = .ok () := by
  rw [validateCeiling_eq_ok] at h ⊢
  refine ⟨?_, fun id hid => h.2 id (mem_narrow.mp hid).1⟩
  have hsort := length_sortDedup_le
    (ceiling.allowedToolIds.filter fun id => definition.allowedToolIds.contains id)
  have hfilter := List.length_filter_le (fun id => definition.allowedToolIds.contains id)
    ceiling.allowedToolIds
  exact hsort.trans (hfilter.trans h.1)

theorem narrow_congr (h : SameMembers ceiling'.allowedToolIds ceiling.allowedToolIds)
    (hmemory : ceiling'.memoryEnabled = ceiling.memoryEnabled)
    (hknowledge : ceiling'.knowledgeEnabled = ceiling.knowledgeEnabled)
    (hsandbox : ceiling'.sandboxExecutionAllowed = ceiling.sandboxExecutionAllowed)
    (hcommunication : ceiling'.communicationAllowed = ceiling.communicationAllowed) :
    narrow ceiling' definition = narrow ceiling definition := by
  have htools : sortDedup (ceiling'.allowedToolIds.filter fun id =>
        definition.allowedToolIds.contains id) =
      sortDedup (ceiling.allowedToolIds.filter fun id =>
        definition.allowedToolIds.contains id) := by
    refine sortDedup_eq_iff.mpr fun id => ?_
    rw [List.mem_filter, List.mem_filter, h id]
  unfold narrow
  rw [htools, hmemory, hknowledge, hsandbox, hcommunication]

theorem intersect_idempotent (h : ceiling.intersect definition = .ok effective) :
    effective.intersect definition = .ok effective := by
  obtain ⟨hvalid, rfl⟩ := intersect_eq_ok_iff.mp h
  refine intersect_eq_ok_iff.mpr ⟨validate_narrow hvalid, ?_⟩
  have htools : ∀ tools : List String,
      sortDedup ((sortDedup (tools.filter fun id => definition.allowedToolIds.contains id)).filter
        fun id => definition.allowedToolIds.contains id) =
      sortDedup (tools.filter fun id => definition.allowedToolIds.contains id) := by
    intro tools
    refine sortDedup_eq_iff.mpr fun id => ?_
    rw [List.mem_filter, mem_sortDedup, List.mem_filter, and_assoc, and_self]
  unfold narrow
  simp only [htools, Bool.and_assoc, Bool.and_self]

/-- Order never matters, and repetition only where it takes one of the lists over the limit. -/
theorem intersect_eq_iff_of_sameMembers {tools : List String}
    (h : SameMembers tools ceiling.allowedToolIds) :
    { ceiling with allowedToolIds := tools }.intersect definition = ceiling.intersect definition ↔
      (tools.length ≤ maxCapabilityReferences ↔
        ceiling.allowedToolIds.length ≤ maxCapabilityReferences) := by
  have hall : tools.all validReference = ceiling.allowedToolIds.all validReference := by
    rw [Bool.eq_iff_iff, List.all_eq_true, List.all_eq_true]
    exact forall_congr' fun id => by rw [h id]
  have hnarrow : narrow { ceiling with allowedToolIds := tools } definition =
      narrow ceiling definition := narrow_congr h rfl rfl rfl rfl
  have hintersect : ∀ c : EffectiveCapabilityCeiling, c.intersect definition =
      if maxCapabilityReferences < c.allowedToolIds.length then .error .invalidDefinition
      else if c.allowedToolIds.all validReference then .ok (narrow c definition)
      else .error .invalidReference := by
    intro c
    unfold EffectiveCapabilityCeiling.intersect validateEffectiveCapabilityCeiling
    split_ifs <;> rfl
  rw [hintersect, hintersect, hnarrow]
  simp only [hall, ← not_le]
  by_cases htools : tools.length ≤ maxCapabilityReferences
  · by_cases hceiling : ceiling.allowedToolIds.length ≤ maxCapabilityReferences
    · simp only [htools, hceiling, not_true_eq_false, if_false]
    · simp only [htools, hceiling, not_true_eq_false, not_false_eq_true, if_false, if_true]
      split_ifs <;> simp
  · by_cases hceiling : ceiling.allowedToolIds.length ≤ maxCapabilityReferences
    · simp only [htools, hceiling, not_true_eq_false, not_false_eq_true, if_false, if_true]
      split_ifs <;> simp
    · simp only [htools, hceiling, not_false_eq_true, if_true]

theorem narrow_mono (h : Narrower ceiling ceiling') :
    Narrower (narrow ceiling definition) (narrow ceiling' definition) where
  tools id hid := mem_narrow.mpr ⟨h.tools id (mem_narrow.mp hid).1, (mem_narrow.mp hid).2⟩
  memory := by
    simp only [narrow, Bool.and_eq_true]
    exact And.imp_left h.memory
  knowledge := by
    simp only [narrow, Bool.and_eq_true]
    exact And.imp_left h.knowledge
  sandbox := by
    simp only [narrow, Bool.and_eq_true]
    exact And.imp_left h.sandbox
  communication := by
    simp only [narrow, Bool.and_eq_true]
    exact And.imp_left h.communication

theorem narrow_narrower : Narrower (narrow ceiling definition) ceiling where
  tools id hid := (mem_narrow.mp hid).1
  memory := by simp only [narrow, Bool.and_eq_true]; exact And.left
  knowledge := by simp only [narrow, Bool.and_eq_true]; exact And.left
  sandbox := by simp only [narrow, Bool.and_eq_true]; exact And.left
  communication := by simp only [narrow, Bool.and_eq_true]; exact And.left

theorem narrow_narrower_definition :
    Narrower (narrow ceiling definition) (.fullDefinition definition) where
  tools id hid := (mem_narrow.mp hid).2
  memory := by simp only [narrow, Bool.and_eq_true]; exact And.right
  knowledge := by simp only [narrow, Bool.and_eq_true]; exact And.right
  sandbox := by simp only [narrow, Bool.and_eq_true]; exact And.right
  communication := by simp only [narrow, Bool.and_eq_true]; exact And.right

end Intersect

/-! ## Invocations depend on the intersection -/

section Invocations

variable {rt : Runtime} {inv : Invocation} {ceiling effective : EffectiveCapabilityCeiling}

theorem execute_withCeiling {scope : ResolvedCapabilityScope} {plan : List PlannedEffect}
    {check used : ℕ} {done : List PortCall} :
    execute rt { inv with ceiling := ceiling } scope plan check used done =
      execute rt inv scope plan check used done := by
  have hadmitted : ∀ check effect, admitEffect { inv with ceiling := ceiling } scope check effect =
      admitEffect inv scope check effect := by
    intro check effect
    unfold admitEffect
    cases effect <;> rfl
  induction plan generalizing check used done with
  | nil => rfl
  | cons effect plan ih =>
    cases h : admitEffect inv scope check effect with
    | error e => rw [execute_refused h, execute_refused ((hadmitted check effect).trans h)]
    | ok call =>
      cases ha : answer rt scope.limits.maxOutputBytes done used call with
      | error e =>
        rw [execute_failed h ha, execute_failed ((hadmitted check effect).trans h) ha]
      | ok answered =>
        rw [execute_answered h ha, execute_answered ((hadmitted check effect).trans h) ha, ih]

/-- Ceilings with one intersection give one invocation: the same result and the same calls. -/
theorem invokeDefinition_withCeiling
    (h : ceiling.intersect inv.definition = inv.ceiling.intersect inv.definition) :
    invokeDefinition rt { inv with ceiling := ceiling } = invokeDefinition rt inv := by
  have hprepare : prepare rt { inv with ceiling := ceiling } = prepare rt inv := by
    unfold prepare
    rw [h]
  have hplan : planInvocation rt { inv with ceiling := ceiling } = planInvocation rt inv := by
    unfold planInvocation
    rw [hprepare]
    rfl
  cases hplanned : planInvocation rt inv with
  | error e =>
    rw [invokeDefinition_of_refused hplanned,
      invokeDefinition_of_refused (hplan.trans hplanned)]
  | ok planned =>
    rw [invokeDefinition_of_planned hplanned,
      invokeDefinition_of_planned (hplan.trans hplanned)]
    simp only [execute_withCeiling]

/-- The digest of a result is that of the scope the invocation resolved. -/
theorem invokeDefinition_digest {result : InvocationResult}
    (h : (invokeDefinition rt inv).1 = .ok result) :
    ∃ effective resolved, inv.ceiling.intersect inv.definition = .ok effective ∧
      effective.allowedToolIds.mapM rt.resolve = .ok resolved ∧
      result.capabilityScopeDigest = (ResolvedCapabilityScope.fromDefinition rt.sha256
        inv.definition resolved effective).digest := by
  cases hplan : planInvocation rt inv with
  | error e =>
    rw [invokeDefinition_of_refused hplan] at h
    cases h
  | ok planned =>
    obtain ⟨prepared, response, hprepare, -, hresponse⟩ := planInvocation_eq_ok hplan
    obtain ⟨-, -, -, _, _, -, -, rfl⟩ := planResponse_eq_ok.mp hresponse
    have hscope := resolvedScope_of_prepare hprepare
    unfold resolvedScope at hscope
    obtain ⟨effective, heffective, hscope⟩ := bind_eq_ok.mp hscope
    obtain ⟨resolved, hresolved, hscope⟩ := bind_eq_ok.mp hscope
    refine ⟨effective, resolved, heffective, hresolved, ?_⟩
    rw [invokeDefinition_of_planned hplan] at h
    dsimp only at h
    cases hevents : (execute rt inv prepared.scope _ 1 _ []).1 with
    | error e =>
      rw [hevents] at h
      cases h
    | ok events =>
      rw [hevents] at h
      cases h
      rw [Except.ok.inj hscope]
      rfl

end Invocations

/-! ## Ceilings and invocations -/

/-- A scope depends on the described tools only as far as the ceiling allows them. -/
theorem fromDefinition_congr {sha256 : Sha256} {definition : AgentDefinition}
    {effective : EffectiveCapabilityCeiling} {tools resolved : List ToolDescriptor}
    (h : ∀ id ∈ effective.allowedToolIds,
      id ∈ tools.map ToolDescriptor.id ↔ id ∈ resolved.map ToolDescriptor.id) :
    ResolvedCapabilityScope.fromDefinition sha256 definition tools effective =
      .fromDefinition sha256 definition resolved effective := by
  have hids : sortDedup ((tools.map ToolDescriptor.id).filter fun id =>
        effective.allowedToolIds.contains id) =
      sortDedup ((resolved.map ToolDescriptor.id).filter fun id =>
        effective.allowedToolIds.contains id) := by
    refine sortDedup_eq_iff.mpr fun id => ?_
    rw [List.mem_filter, List.mem_filter, List.contains_iff_mem]
    exact and_congr_left fun hid => h id hid
  have hscope : undigestedScope definition tools effective =
      undigestedScope definition resolved effective := by
    unfold undigestedScope
    rw [hids]
  unfold ResolvedCapabilityScope.fromDefinition
  rw [hscope]

theorem validate_fullDefinition {catalog : ReferenceCatalog} {definition : AgentDefinition}
    (h : Accepted catalog definition) :
    validateEffectiveCapabilityCeiling (.fullDefinition definition) = .ok () := by
  have hvalid := h.1
  unfold validateDefinition at hvalid
  split_ifs at hvalid with hlimits hreferences
  simp only [Bool.or_eq_true, decide_eq_true_eq, not_or, Nat.not_lt] at hlimits
  simp only [Bool.or_eq_true, Bool.not_eq_true', not_or, Bool.not_eq_false] at hreferences
  have htools : definition.allowedToolIds.length ≤ maxCapabilityReferences := by tauto
  exact validateCeiling_eq_ok.mpr ⟨htools, List.all_eq_true.mp hreferences.2⟩

/-- The laws of `intersect`, and what invocations make of it: a ceiling acts through its
intersection, no ceiling acts as the full one, and the reported digest is the one computed for the
same definition, ceiling and tools. -/
theorem intersect_laws (definition : AgentDefinition) (ceiling : EffectiveCapabilityCeiling) :
    (∀ effective, ceiling.intersect definition = .ok effective →
      effective.intersect definition = .ok effective ∧
      Narrower effective ceiling ∧ Narrower effective (.fullDefinition definition)) ∧
    (∀ tools, SameMembers tools ceiling.allowedToolIds →
      ({ ceiling with allowedToolIds := tools }.intersect definition =
          ceiling.intersect definition ↔
        (tools.length ≤ maxCapabilityReferences ↔
          ceiling.allowedToolIds.length ≤ maxCapabilityReferences))) ∧
    (∀ wider effective effective', Narrower ceiling wider →
      ceiling.intersect definition = .ok effective → wider.intersect definition = .ok effective' →
      Narrower effective effective') ∧
    (∀ (rt : Runtime) (σ : Type) (registry : AgentRegistry σ) (state : σ)
      (context : InvocationContext) (id : AgentId) (input : String) (control : InvocationControl),
      registry.get state id = .ok definition →
      (∀ effective, ceiling.intersect definition = .ok effective →
        invokeWithCeiling rt registry state context id input control effective =
          invokeWithCeiling rt registry state context id input control ceiling) ∧
      (∀ e, ceiling.intersect definition = .error e →
        invokeWithCeiling rt registry state context id input control ceiling = (.error e, [])) ∧
      invoke rt registry state context id input control =
        invokeWithCeiling rt registry state context id input control
          (.fullDefinition definition) ∧
      (∀ result,
        (invokeWithCeiling rt registry state context id input control ceiling).1 = .ok result →
        ∃ effective resolved, ceiling.intersect definition = .ok effective ∧
          effective.allowedToolIds.mapM rt.resolve = .ok resolved ∧
          ∀ tools : List ToolDescriptor, (∀ id ∈ effective.allowedToolIds,
              id ∈ tools.map ToolDescriptor.id ↔ id ∈ resolved.map ToolDescriptor.id) →
            capabilityScopeDigestWithCeiling rt.sha256 definition tools ceiling =
              .ok result.capabilityScopeDigest)) := by
  refine ⟨fun effective h => ?_, fun tools h => intersect_eq_iff_of_sameMembers h,
    fun wider effective effective' hwider h h' => ?_, ?_⟩
  · obtain ⟨-, rfl⟩ := intersect_eq_ok_iff.mp h
    exact ⟨intersect_idempotent h, narrow_narrower, narrow_narrower_definition⟩
  · obtain ⟨-, rfl⟩ := intersect_eq_ok_iff.mp h
    obtain ⟨-, rfl⟩ := intersect_eq_ok_iff.mp h'
    exact narrow_mono hwider
  · intro rt σ registry state context id input control hget
    have hvalid : ∀ c, validateEffectiveCapabilityCeiling c = .ok () →
        invokeWithCeiling rt registry state context id input control c =
          invokeDefinition rt ⟨context, id, input, definition, c, control⟩ := by
      intro c hc
      simp only [invokeWithCeiling, hc, hget]
    refine ⟨fun effective h => ?_, fun e h => ?_, ?_, fun result h => ?_⟩
    · obtain ⟨hceiling, heffective⟩ := intersect_eq_ok_iff.mp h
      rw [hvalid ceiling hceiling, hvalid effective (heffective ▸ validate_narrow hceiling)]
      let inv : Invocation := ⟨context, id, input, definition, ceiling, control⟩
      have hsame : effective.intersect inv.definition = inv.ceiling.intersect inv.definition :=
        (intersect_idempotent h).trans h.symm
      exact invokeDefinition_withCeiling hsame
    · unfold EffectiveCapabilityCeiling.intersect at h
      rcases bind_eq_error.mp h with h | ⟨⟨⟩, -, h⟩
      · simp only [invokeWithCeiling, h]
      · cases h
    · rw [hvalid _ (validate_fullDefinition (AgentRegistry.get_accepted hget))]
      simp only [invoke, hget]
    · cases hceiling : validateEffectiveCapabilityCeiling ceiling with
      | error e => simp only [invokeWithCeiling, hceiling] at h; cases h
      | ok _ =>
        rw [hvalid ceiling hceiling] at h
        obtain ⟨effective, resolved, heffective, hresolved, hdigest⟩ := invokeDefinition_digest h
        refine ⟨effective, resolved, heffective, hresolved, fun tools htools => ?_⟩
        unfold capabilityScopeDigestWithCeiling
        rw [heffective, ok_bind, fromDefinition_congr htools, hdigest]

/-! ## Sample registry -/

/-- A registry that holds `sampleDefinition` without memory and no built-in definition. -/
def sampleRegistry : AgentRegistry (BTreeMap AgentId AgentDefinition) where
  builtins := ∅
  store := InMemoryDefinitionStore
  catalog := StaticReferenceCatalog.catalog ⟨["provider.model"], [], [], ["allowed"]⟩
  valid := by simp

def sampleState : BTreeMap AgentId AgentDefinition :=
  (sampleRegistry.register ∅ (sampleDefinition false)).2

/-- The sample agent answers without a ceiling as under its full one, and its digest is the one of
its definition. -/
theorem intersect_laws_sample :
    (invoke (sampleRuntime false []) sampleRegistry sampleState
      (sampleInvocation false ⟨"request", by decide⟩).context ⟨"agent", by decide⟩ "question"
      ⟨fun _ => false, fun _ => false⟩).1.isOk ∧
    invoke (sampleRuntime false []) sampleRegistry sampleState
      (sampleInvocation false ⟨"request", by decide⟩).context ⟨"agent", by decide⟩ "question"
      ⟨fun _ => false, fun _ => false⟩ =
    invokeWithCeiling (sampleRuntime false []) sampleRegistry sampleState
      (sampleInvocation false ⟨"request", by decide⟩).context ⟨"agent", by decide⟩ "question"
      ⟨fun _ => false, fun _ => false⟩ (.fullDefinition (sampleDefinition false)) := by
  refine ⟨by decide +kernel, ?_⟩
  obtain ⟨-, -, -, hinvoke⟩ :=
    intersect_laws (sampleDefinition false) (.fullDefinition (sampleDefinition false))
  exact (hinvoke (sampleRuntime false []) _ sampleRegistry sampleState _ ⟨"agent", by decide⟩ _ _
    (by decide +kernel)).2.2.1

/-- A ceiling that names one tool 65 times is refused, where one that names it once is not. -/
theorem repeated_tool_over_limit :
    SameMembers (List.replicate 65 "allowed")
      (EffectiveCapabilityCeiling.fullDefinition (sampleDefinition false)).allowedToolIds ∧
    ({ EffectiveCapabilityCeiling.fullDefinition (sampleDefinition false) with
        allowedToolIds := List.replicate 65 "allowed" }).intersect (sampleDefinition false) =
      .error .invalidDefinition ∧
    ((EffectiveCapabilityCeiling.fullDefinition (sampleDefinition false)).intersect
      (sampleDefinition false)).isOk := by
  refine ⟨fun id => ?_, by decide +kernel, by decide +kernel⟩
  show id ∈ List.replicate 65 "allowed" ↔ id ∈ ["allowed"]
  rw [List.mem_replicate, List.mem_singleton]
  exact and_iff_right (by decide)

end RustFactory.Agent
