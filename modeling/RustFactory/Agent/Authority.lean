import RustFactory.Agent.Planning

/-!
# Agents: authority

Every port call of an invocation is permitted by the definition and by the ceiling, whatever the
tool registry resolves and whatever the model answers, and what a port is told about identity,
scope and limits comes from the caller and the definition alone.
-/

namespace RustFactory.Agent

open RustFactory.Lib RustFactory.Gateway

/-! ## The scope of an invocation -/

/-- The scope that the ceiling, the definition and the registry resolve to. -/
def resolvedScope (rt : Runtime) (inv : Invocation) :
    Except DefinitionError ResolvedCapabilityScope := do
  let effective ← inv.ceiling.intersect inv.definition
  let resolved ← effective.allowedToolIds.mapM rt.resolve
  .ok (ResolvedCapabilityScope.fromDefinition rt.sha256 inv.definition resolved effective)

theorem resolvedScope_of_prepare {rt : Runtime} {inv : Invocation} {prepared : Prepared}
    (h : prepare rt inv = .ok prepared) : resolvedScope rt inv = .ok prepared.scope := by
  unfold prepare at h
  split at h
  · cases h
  · obtain ⟨effective, heffective, h⟩ := bind_eq_ok.mp h
    obtain ⟨resolved, hresolved, h⟩ := bind_eq_ok.mp h
    obtain ⟨reference, -, h⟩ := bind_eq_ok.mp h
    obtain ⟨tools, -, h⟩ := bind_eq_ok.mp h
    obtain ⟨prompt, -, h⟩ := bind_eq_ok.mp h
    obtain ⟨limits, -, h⟩ := bind_eq_ok.mp h
    obtain ⟨request, -, h⟩ := bind_eq_ok.mp h
    cases h
    unfold resolvedScope
    rw [heffective, ok_bind, hresolved, ok_bind]

/-! ## Permission -/

/-- A port call that definition and ceiling both permit, with the caller's identity, the resolved
scope and the definition's limits. -/
inductive PortCall.Authorized (inv : Invocation) (scope : ResolvedCapabilityScope) :
    PortCall → Prop
  | tool {descriptor : ToolDescriptor} {input : String}
      (definition : descriptor.id ∈ inv.definition.allowedToolIds)
      (ceiling : descriptor.id ∈ inv.ceiling.allowedToolIds) :
      Authorized inv scope (.tool descriptor ⟨inv.context, inv.id, scope, input⟩)
  | memoryRecall {query : String}
      (definition : inv.definition.memory.enabled) (ceiling : inv.ceiling.memoryEnabled) :
      Authorized inv scope
        (.memoryRecall ⟨inv.context, inv.id, scope, query, inv.definition.memory.maxItems⟩)
  | memoryWrite {value : String}
      (definition : inv.definition.memory.enabled) (ceiling : inv.ceiling.memoryEnabled) :
      Authorized inv scope
        (.memoryWrite ⟨inv.context, inv.id, scope, "", inv.definition.memory.maxItems⟩ value)
  | knowledgeSearch {request : Knowledge.SearchRequest}
      (definition : inv.definition.knowledge.enabled) (ceiling : inv.ceiling.knowledgeEnabled)
      (tenantId : request.context.tenantId.asStr = inv.context.tenantId.asStr)
      (principalId : request.context.principalId.asStr = inv.context.principalId.asStr)
      (searched : request.namespace.asStr = inv.definition.knowledge.namespace)
      (limit : request.limit.get = inv.definition.knowledge.maxResults) :
      Authorized inv scope (.knowledgeSearch request)
  | sandboxExecute {action : String} {arguments : List String}
      (definition : inv.definition.sandbox.allowExecution)
      (ceiling : inv.ceiling.sandboxExecutionAllowed) :
      Authorized inv scope (.sandboxExecute ⟨inv.context, inv.id, scope, action, arguments⟩)

/-- What the scope of an invocation carries over from definition and ceiling. -/
structure ScopeOf (inv : Invocation) (scope : ResolvedCapabilityScope) : Prop where
  tools : ∀ id ∈ scope.allowedToolIds,
    id ∈ inv.definition.allowedToolIds ∧ id ∈ inv.ceiling.allowedToolIds
  memory : scope.memory.enabled → inv.definition.memory.enabled ∧ inv.ceiling.memoryEnabled
  knowledge : scope.knowledge.enabled →
    inv.definition.knowledge.enabled ∧ inv.ceiling.knowledgeEnabled
  sandbox : scope.sandbox.allowExecution →
    inv.definition.sandbox.allowExecution ∧ inv.ceiling.sandboxExecutionAllowed
  maxItems : scope.memory.maxItems = inv.definition.memory.maxItems
  searched : scope.knowledge.namespace = inv.definition.knowledge.namespace
  maxResults : scope.knowledge.maxResults = inv.definition.knowledge.maxResults

theorem scopeOf_resolvedScope {rt : Runtime} {inv : Invocation} {scope : ResolvedCapabilityScope}
    (h : resolvedScope rt inv = .ok scope) : ScopeOf inv scope := by
  unfold resolvedScope at h
  obtain ⟨effective, heffective, h⟩ := bind_eq_ok.mp h
  obtain ⟨resolved, -, h⟩ := bind_eq_ok.mp h
  cases h
  obtain ⟨htools, hmemory, hknowledge, hsandbox⟩ :=
    @fromDefinition_allows rt.sha256 _ _ _ heffective resolved
  exact ⟨htools, hmemory, hknowledge, hsandbox, rfl, rfl, rfl⟩

theorem searchRequest_eq_ok {context : InvocationContext} {scope : ResolvedCapabilityScope}
    {query : String} {request : Knowledge.SearchRequest}
    (h : searchRequest context scope query = .ok request) :
    request.context.tenantId.asStr = context.tenantId.asStr ∧
    request.context.principalId.asStr = context.principalId.asStr ∧
    request.namespace.asStr = scope.knowledge.namespace ∧
    request.limit.get = scope.knowledge.maxResults := by
  unfold searchRequest at h
  obtain ⟨tenantId, htenant, h⟩ := bind_eq_ok.mp h
  obtain ⟨principalId, hprincipal, h⟩ := bind_eq_ok.mp h
  obtain ⟨searched, hsearched, h⟩ := bind_eq_ok.mp h
  obtain ⟨words, -, h⟩ := bind_eq_ok.mp h
  obtain ⟨limit, hlimit, h⟩ := bind_eq_ok.mp h
  cases h
  obtain ⟨-, rfl⟩ := ifOk_eq_ok.mp (mapError_eq_ok.mp htenant)
  obtain ⟨-, rfl⟩ := ifOk_eq_ok.mp (mapError_eq_ok.mp hprincipal)
  obtain ⟨-, rfl⟩ := ifOk_eq_ok.mp (mapError_eq_ok.mp hsearched)
  have hlimit := mapError_eq_ok.mp hlimit
  unfold Knowledge.SearchLimit.new at hlimit
  split at hlimit
  · cases hlimit
    exact ⟨rfl, rfl, rfl, rfl⟩
  · cases hlimit

/-- The port call of an effect the scope permits is authorized: one case for each port. -/
theorem authorized_portCall {inv : Invocation} {scope : ResolvedCapabilityScope} {serde : Serde}
    {arguments : JsonObject} {t : Target} {effect : PlannedEffect} {call : PortCall}
    (hscope : ScopeOf inv scope) (ht : t.Authorized scope) (hreads : Reads serde arguments t effect)
    (hcall : portCall inv scope effect = .ok call) : call.Authorized inv scope := by
  cases hreads with
  | tool =>
    cases hcall
    obtain ⟨hdefinition, hceiling⟩ := hscope.tools _ ht
    exact .tool hdefinition hceiling
  | memoryRecall =>
    cases hcall
    obtain ⟨hdefinition, hceiling⟩ := hscope.memory ht
    rw [hscope.maxItems]
    exact .memoryRecall hdefinition hceiling
  | memoryWrite =>
    cases hcall
    obtain ⟨hdefinition, hceiling⟩ := hscope.memory ht
    rw [hscope.maxItems]
    exact .memoryWrite hdefinition hceiling
  | @knowledgeSearch query =>
    obtain ⟨hdefinition, hceiling⟩ := hscope.knowledge ht
    simp only [portCall] at hcall
    cases hrequest : searchRequest inv.context scope query with
    | error e => rw [hrequest] at hcall; cases hcall
    | ok request =>
      rw [hrequest] at hcall
      cases hcall
      obtain ⟨htenant, hprincipal, hsearched, hlimit⟩ := searchRequest_eq_ok hrequest
      exact .knowledgeSearch hdefinition hceiling htenant hprincipal
        (hsearched.trans hscope.searched) (hlimit.trans hscope.maxResults)
  | sandboxExecute =>
    cases hcall
    obtain ⟨hdefinition, hceiling⟩ := hscope.sandbox ht
    exact .sandboxExecute hdefinition hceiling

/-- Every port call of an invocation is permitted by definition and ceiling and carries the
caller's identity and the resolved scope, whatever registry, model and ports answer. -/
theorem portCalls_authorized (rt : Runtime) (inv : Invocation) :
    ∀ call ∈ (invokeDefinition rt inv).2, ∃ scope, resolvedScope rt inv = .ok scope ∧
      call.Authorized inv scope := by
  intro call hmem
  cases hplanned : planInvocation rt inv with
  | error e =>
    rw [invokeDefinition_of_refused hplanned] at hmem
    exact absurd hmem List.not_mem_nil
  | ok planned =>
    rw [invokeDefinition_of_planned hplanned] at hmem
    obtain ⟨prepared, response, hprepare, -, hresponse⟩ := planInvocation_eq_ok hplanned
    obtain ⟨-, -, -, outputBytes, plan, -, hplan, rfl⟩ := planResponse_eq_ok.mp hresponse
    have hscope := resolvedScope_of_prepare hprepare
    refine ⟨prepared.scope, hscope, ?_⟩
    obtain ⟨performed, rest, calls, hperformed, hcalls, hall⟩ :=
      @execute_calls rt inv prepared.scope plan 1 outputBytes []
    dsimp only at hmem
    rw [hcalls, List.nil_append] at hmem
    obtain ⟨effect, heffect, hcall⟩ := exists_left_of_forall₂ hall hmem
    have heffect : effect ∈ plan := hperformed ▸ List.mem_append_left rest heffect
    obtain ⟨returned, -, hreturned⟩ := exists_left_of_forall₂ hplan heffect
    obtain ⟨t, -, ht, hreads, -⟩ := planCall_eq_ok.mp hreturned
    exact authorized_portCall (scopeOf_resolvedScope hscope) ht hreads hcall

/-- A search call of the sample model. -/
def sampleSearch : ToolCall where
  name := ⟨knowledgeSearchTool, .refl true⟩
  arguments := ⟨"\x7b\"query\":\"rust\"\x7d"⟩

/-- The search of the sample model reaches its port. -/
theorem portCalls_authorized_sample :
    ∃ call ∈ (invokeDefinition (sampleRuntime false [sampleSearch])
        (sampleInvocation false ⟨"first", by decide⟩)).2,
      ∃ scope, resolvedScope (sampleRuntime false [sampleSearch])
          (sampleInvocation false ⟨"first", by decide⟩) = .ok scope ∧
        call.Authorized (sampleInvocation false ⟨"first", by decide⟩) scope := by
  have hcalls : (invokeDefinition (sampleRuntime false [sampleSearch])
      (sampleInvocation false ⟨"first", by decide⟩)).2 ≠ [] := by
    decide +kernel
  obtain ⟨call, hcall⟩ := List.exists_mem_of_ne_nil _ hcalls
  exact ⟨call, hcall, portCalls_authorized _ _ call hcall⟩

/-- The knowledge port is told neither the whole context nor the scope: nothing that is read off
its request gives them in every invocation. -/
theorem knowledge_port_not_told :
    (¬∃ reading : PortCall → InvocationContext, ∀ rt inv, ∀ call ∈ (invokeDefinition rt inv).2,
      reading call = inv.context) ∧
    ¬∃ reading : PortCall → ResolvedCapabilityScope, ∀ rt inv scope,
      resolvedScope rt inv = .ok scope → ∀ call ∈ (invokeDefinition rt inv).2,
        reading call = scope := by
  constructor
  · rintro ⟨reading, hreading⟩
    obtain ⟨call, hfirst, hsecond⟩ : ∃ call ∈ (invokeDefinition (sampleRuntime false [sampleSearch])
        (sampleInvocation false ⟨"first", by decide⟩)).2,
        call ∈ (invokeDefinition (sampleRuntime false [sampleSearch])
          (sampleInvocation false ⟨"second", by decide⟩)).2 := by decide +kernel
    have hcontext := (hreading _ _ call hfirst).symm.trans (hreading _ _ call hsecond)
    exact absurd hcontext (by decide)
  · rintro ⟨reading, hreading⟩
    obtain ⟨call, hfirst, hsecond⟩ : ∃ call ∈ (invokeDefinition (sampleRuntime false [sampleSearch])
        (sampleInvocation false ⟨"request", by decide⟩)).2,
        call ∈ (invokeDefinition (sampleRuntime true [sampleSearch])
          (sampleInvocation true ⟨"request", by decide⟩)).2 := by decide +kernel
    have hok : (resolvedScope (sampleRuntime false [sampleSearch])
        (sampleInvocation false ⟨"request", by decide⟩)).isOk := by decide +kernel
    have hok' : (resolvedScope (sampleRuntime true [sampleSearch])
        (sampleInvocation true ⟨"request", by decide⟩)).isOk := by decide +kernel
    have hne : resolvedScope (sampleRuntime false [sampleSearch])
        (sampleInvocation false ⟨"request", by decide⟩) ≠
        resolvedScope (sampleRuntime true [sampleSearch])
          (sampleInvocation true ⟨"request", by decide⟩) := by decide +kernel
    obtain ⟨scope, hscope⟩ := isOk_iff.mp hok
    obtain ⟨scope', hscope'⟩ := isOk_iff.mp hok'
    rw [hscope, hscope'] at hne
    exact hne (congrArg Except.ok ((hreading _ _ _ hscope call hfirst).symm.trans
      (hreading _ _ _ hscope' call hsecond)))

end RustFactory.Agent
