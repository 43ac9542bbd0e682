import RustFactory.Agent.Authority

/-!
# Agents: validation before effects

The planning pass is there so that a response with a call that cannot be served has no effect at
all.  It does not build the requests of the knowledge port, though: a search with a blank query
passes planning and is refused in the execution pass, after the effects planned before it.
`validatedBeforeEffects_iff` says exactly for which invocations this matters.
-/

namespace RustFactory.Agent

open RustFactory.Lib RustFactory.Gateway

/-! ## Faults -/

/-- A call that must not be served. -/
inductive Faulty (rt : Runtime) (inv : Invocation) (prepared : Prepared) (call : ToolCall) : Prop
  | unauthorized
      (h : ∀ t, target prepared.ordinaryTools call = some t → ¬t.Authorized prepared.scope)
  | malformed {t : Target} (ht : target prepared.ordinaryTools call = some t)
      (h : ∀ effect, ¬Reads rt.serde call.arguments t effect)
  | overLimit {t : Target} {effect : PlannedEffect}
      (ht : target prepared.ordinaryTools call = some t)
      (hreads : Reads rt.serde call.arguments t effect) (h : ¬effect.WithinLimits)
  | rejected {t : Target} {effect : PlannedEffect}
      (ht : target prepared.ordinaryTools call = some t)
      (hreads : Reads rt.serde call.arguments t effect)
      (h : ¬(portCall inv prepared.scope effect).isOk)

/-- A response with a faulty call ends the invocation with an error before any port is called. -/
def ValidatedBeforeEffects (rt : Runtime) (inv : Invocation) : Prop :=
  ∀ prepared response, prepare rt inv = .ok prepared →
    rt.generate prepared.request = .ok response →
    (∃ call ∈ response.toolCalls, Faulty rt inv prepared call) →
    (∃ e, (invokeDefinition rt inv).1 = .error e) ∧ (invokeDefinition rt inv).2 = []

/-- A well-formed search that makes no request to the knowledge port: its query is blank, or the
definition's namespace or result limit is out of bounds. -/
def RefusedSearch (rt : Runtime) (inv : Invocation) (prepared : Prepared) (call : ToolCall) :
    Prop :=
  target prepared.ordinaryTools call = some .knowledgeSearch ∧
  ∃ query, HasMembers rt.serde call.arguments [("query", .string query)] ∧
    ((query.toList.all isWhitespace) ∨
      ¬(Knowledge.validateIdentifier inv.definition.knowledge.namespace).isOk ∨
      inv.definition.knowledge.maxResults = 0 ∨
      Knowledge.maxSearchLimit < inv.definition.knowledge.maxResults)

/-- The response passes the planning pass and starts its effects, and a search other than the
first call is refused. -/
structure LateRefusal (rt : Runtime) (inv : Invocation) (prepared : Prepared)
    (response : GenerateResponse) : Prop where
  uninterrupted : inv.control.preflight 0 = .ok () ∧ inv.control.preflight 1 = .ok ()
  fewCalls : response.toolCalls.length ≤ inv.definition.limits.maxToolCalls.toNat ∧
    response.toolCalls.length ≤ maxToolCalls.toNat
  shortText : byteLen response.text ≤ inv.definition.limits.maxOutputBytes.toNat
  sound : ∀ call ∈ response.toolCalls, ∃ t effect,
    target prepared.ordinaryTools call = some t ∧ t.Authorized prepared.scope ∧
      Reads rt.serde call.arguments t effect ∧ effect.WithinLimits
  first : ∀ call ∈ response.toolCalls.head?, ¬RefusedSearch rt inv prepared call
  later : ∃ call ∈ response.toolCalls, RefusedSearch rt inv prepared call

/-! ## Requests to the knowledge port -/

/-- The identifiers of an invocation are identifiers of the knowledge crate. -/
theorem isOk_validateIdentifier_of_isId {value : String} (h : isId value) :
    (Knowledge.validateIdentifier value).isOk := by
  unfold isId at h
  unfold Knowledge.validateIdentifier
  cases hvalue : utf8 value with
  | nil => simp [hvalue] at h
  | cons first rest =>
    simp only [hvalue, List.length_cons, Bool.and_eq_true, decide_eq_true_eq] at h
    obtain ⟨hlen, hstart, hrest⟩ := h
    have hstart' : Knowledge.isIdentifierStart first = true := hstart
    have hrest' : rest.all Knowledge.isIdentifierContinue = true := hrest
    have hlen' : ¬Knowledge.maxIdentifierBytes < rest.length + 1 := not_lt.mpr hlen
    simp only [hstart', hrest', hlen', Bool.not_true, Bool.false_eq_true, or_self, if_false]
    rfl

/-- A request is built from every query that is not blank, if the definition's namespace and result
limit are in bounds. -/
theorem isOk_searchRequest {context : InvocationContext} {scope : ResolvedCapabilityScope}
    {query : String} (hlen : byteLen query ≤ maxInputBytes) :
    (searchRequest context scope query).isOk ↔
      ¬query.toList.all isWhitespace ∧
      (Knowledge.validateIdentifier scope.knowledge.namespace).isOk ∧
      scope.knowledge.maxResults ≠ 0 ∧ scope.knowledge.maxResults ≤ Knowledge.maxSearchLimit := by
  have hquery : Knowledge.isQuery query ↔ ¬query.toList.all isWhitespace := by
    unfold Knowledge.isQuery
    rw [show decide (byteLen query ≤ Knowledge.maxQueryBytes) = true from decide_eq_true hlen]
    simp
  unfold searchRequest
  rw [isOk_bind fun _ => isOk_bind fun _ => isOk_bind fun _ => isOk_bind fun _ =>
    isOk_bind fun _ => iff_of_true rfl trivial]
  simp only [isOk_mapError, Knowledge.isOk_identifier_new, Knowledge.isOk_query_new,
    Knowledge.isOk_searchLimit_new, hquery,
    isOk_validateIdentifier_of_isId context.tenantId.valid,
    isOk_validateIdentifier_of_isId context.principalId.valid]
  tauto

section Calls

variable {rt : Runtime} {inv : Invocation} {prepared : Prepared} {call : ToolCall} {t : Target}
  {effect effect' : PlannedEffect}

theorem HasMembers.unique {serde : Serde} {arguments : JsonObject} {field value value' : String}
    (h : HasMembers serde arguments [(field, .string value)])
    (h' : HasMembers serde arguments [(field, .string value')]) : value = value' :=
  Except.ok.inj ((strictStringArgument_eq_ok.mpr h).symm.trans (strictStringArgument_eq_ok.mpr h'))

/-- The arguments of a call describe one effect. -/
theorem Reads.unique {serde : Serde} {arguments : JsonObject} (h : Reads serde arguments t effect)
    (h' : Reads serde arguments t effect') : effect = effect' := by
  cases h with
  | tool hvalue => cases h' with | tool hvalue' => rw [hvalue.unique hvalue']
  | memoryRecall hvalue => cases h' with | memoryRecall hvalue' => rw [hvalue.unique hvalue']
  | memoryWrite hvalue => cases h' with | memoryWrite hvalue' => rw [hvalue.unique hvalue']
  | knowledgeSearch hvalue => cases h' with | knowledgeSearch hvalue' => rw [hvalue.unique hvalue']
  | sandboxExecute hvalue =>
    cases h' with
    | sandboxExecute hvalue' =>
      cases (strictSandboxArguments_eq_ok.mpr hvalue).symm.trans
        (strictSandboxArguments_eq_ok.mpr hvalue')
      rfl

/-- Planned effects are refused by no port but the knowledge port. -/
theorem isOk_portCall (hscope : ScopeOf inv prepared.scope)
    (ht : target prepared.ordinaryTools call = some t)
    (hreads : Reads rt.serde call.arguments t effect) (hlimits : effect.WithinLimits) :
    (portCall inv prepared.scope effect).isOk ↔ ¬RefusedSearch rt inv prepared call := by
  unfold RefusedSearch
  rw [ht]
  cases hreads with
  | tool => exact iff_of_true rfl fun h => nomatch h.1
  | memoryRecall => exact iff_of_true rfl fun h => nomatch h.1
  | memoryWrite => exact iff_of_true rfl fun h => nomatch h.1
  | sandboxExecute => exact iff_of_true rfl fun h => nomatch h.1
  | @knowledgeSearch query hquery =>
    have hmap : (portCall inv prepared.scope (.knowledgeSearch query)).isOk =
        (searchRequest inv.context prepared.scope query).isOk := by
      simp only [portCall]
      cases searchRequest inv.context prepared.scope query with
      | ok request => rfl
      | error e => rfl
    rw [hmap, isOk_searchRequest hlimits, hscope.searched, hscope.maxResults]
    constructor
    · rintro ⟨hblank, hnamespace, hzero, hmax⟩ ⟨-, query', hquery', hrefused⟩
      rw [← hquery.unique hquery'] at hrefused
      rcases hrefused with h | h | h | h
      · exact hblank h
      · exact h hnamespace
      · exact hzero h
      · exact absurd hmax (UInt32.not_le.mpr h)
    · intro hnot
      refine ⟨fun h => ?_, ?_, fun h => ?_, ?_⟩
      · exact hnot ⟨rfl, query, hquery, .inl h⟩
      · by_contra h
        exact hnot ⟨rfl, query, hquery, .inr (.inl h)⟩
      · exact hnot ⟨rfl, query, hquery, .inr (.inr (.inl h))⟩
      · by_contra h
        exact hnot ⟨rfl, query, hquery, .inr (.inr (.inr (UInt32.not_le.mp h)))⟩

/-- A planned call is faulty exactly where it is a search that makes no request. -/
theorem faulty_iff_refusedSearch (hscope : ScopeOf inv prepared.scope)
    (ht : target prepared.ordinaryTools call = some t) (hauthorized : t.Authorized prepared.scope)
    (hreads : Reads rt.serde call.arguments t effect) (hlimits : effect.WithinLimits) :
    Faulty rt inv prepared call ↔ RefusedSearch rt inv prepared call := by
  constructor
  · intro h
    cases h with
    | unauthorized h => exact absurd hauthorized (h t ht)
    | malformed ht' h =>
      cases ht.symm.trans ht'
      exact absurd hreads (h effect)
    | overLimit ht' hreads' h =>
      cases ht.symm.trans ht'
      cases hreads.unique hreads'
      exact absurd hlimits h
    | rejected ht' hreads' h =>
      cases ht.symm.trans ht'
      cases hreads.unique hreads'
      exact not_not.mp fun hnot => h ((isOk_portCall hscope ht hreads hlimits).mpr hnot)
  · intro h
    exact .rejected ht hreads fun hok => (isOk_portCall hscope ht hreads hlimits).mp hok h

end Calls

/-! ## Invocations -/

section Invocations

variable {rt : Runtime} {inv : Invocation} {prepared : Prepared} {response : GenerateResponse}

theorem checkedOutputBytes_zero {text : String} {max : UInt32} :
    (∃ used, checkedOutputBytes text 0 max = .ok used) ↔ byteLen text ≤ max.toNat := by
  have hmax := max.toNat_lt
  unfold checkedOutputBytes
  constructor
  · rintro ⟨used, h⟩
    split at h
    · omega
    · cases h
  · intro h
    exact ⟨0 + byteLen text, if_pos (by omega)⟩

/-- An invocation whose model answers is its planning pass and then its execution pass. -/
theorem invokeDefinition_eq (hprepare : prepare rt inv = .ok prepared)
    (hgenerate : rt.generate prepared.request = .ok response) :
    invokeDefinition rt inv = match planResponse rt inv prepared response with
      | .error e => (.error e, [])
      | .ok planned =>
        ((execute rt inv planned.scope planned.plan 1 planned.outputBytes []).1.map
          (finish planned),
          (execute rt inv planned.scope planned.plan 1 planned.outputBytes []).2) := by
  have hplan : planInvocation rt inv = planResponse rt inv prepared response := by
    unfold planInvocation
    rw [hprepare, ok_bind, mapError_eq_ok.mpr hgenerate, ok_bind]
  cases hresponse : planResponse rt inv prepared response with
  | error e => exact invokeDefinition_of_refused (hplan.trans hresponse)
  | ok planned => exact invokeDefinition_of_planned (hplan.trans hresponse)

/-- The planning pass accepts the responses within the limits whose calls are all sound. -/
theorem exists_planResponse_iff :
    (∃ planned, planResponse rt inv prepared response = .ok planned) ↔
      inv.control.preflight 0 = .ok () ∧
      (response.toolCalls.length ≤ inv.definition.limits.maxToolCalls.toNat ∧
        response.toolCalls.length ≤ maxToolCalls.toNat) ∧
      byteLen response.text ≤ inv.definition.limits.maxOutputBytes.toNat ∧
      ∀ call ∈ response.toolCalls, ∃ t effect,
        target prepared.ordinaryTools call = some t ∧ t.Authorized prepared.scope ∧
          Reads rt.serde call.arguments t effect ∧ effect.WithinLimits := by
  constructor
  · rintro ⟨planned, h⟩
    obtain ⟨hcheck, hcalls, hmax, used, plan, hused, hplan, -⟩ := planResponse_eq_ok.mp h
    refine ⟨hcheck, ⟨hcalls, hmax⟩, checkedOutputBytes_zero.mp ⟨used, hused⟩, fun call hmem => ?_⟩
    obtain ⟨effect, -, heffect⟩ := exists_right_of_forall₂ hplan hmem
    obtain ⟨t, h⟩ := planCall_eq_ok.mp heffect
    exact ⟨t, effect, h⟩
  · rintro ⟨hcheck, ⟨hcalls, hmax⟩, htext, hsound⟩
    obtain ⟨used, hused⟩ := checkedOutputBytes_zero.mpr htext
    obtain ⟨plan, hplan⟩ : ∃ plan, List.Forall₂ (fun call effect =>
        planCall rt.serde prepared.scope prepared.ordinaryTools call = .ok effect)
        response.toolCalls plan := by
      refine exists_forall₂ fun call hmem => ?_
      obtain ⟨t, effect, h⟩ := hsound call hmem
      exact ⟨effect, planCall_eq_ok.mpr ⟨t, h⟩⟩
    exact ⟨_, planResponse_eq_ok.mpr ⟨hcheck, hcalls, hmax, used, plan, hused, hplan, rfl⟩⟩

/-- A response that passes planning has no effect before a refused search exactly where the first
effect is not reached or is refused itself. -/
theorem validated_iff_not_lateRefusal (hscope : ScopeOf inv prepared.scope)
    (hprepare : prepare rt inv = .ok prepared)
    (hgenerate : rt.generate prepared.request = .ok response) :
    ((∃ call ∈ response.toolCalls, Faulty rt inv prepared call) →
      (∃ e, (invokeDefinition rt inv).1 = .error e) ∧ (invokeDefinition rt inv).2 = []) ↔
      ¬LateRefusal rt inv prepared response := by
  rw [invokeDefinition_eq hprepare hgenerate]
  cases hplanned : planResponse rt inv prepared response with
  | error e =>
    -- Planning fails: the property holds, and a late refusal would need planning to succeed.
    refine iff_of_true (fun _ => ⟨⟨e, rfl⟩, rfl⟩) fun h => ?_
    obtain ⟨planned, hok⟩ := exists_planResponse_iff.mpr
      ⟨h.uninterrupted.1, h.fewCalls, h.shortText, h.sound⟩
    rw [hplanned] at hok
    cases hok
  | ok planned =>
    obtain ⟨hcheck, hcalls, htext, hsound⟩ := exists_planResponse_iff.mp ⟨planned, hplanned⟩
    obtain ⟨-, -, -, used, plan, -, hplan, rfl⟩ := planResponse_eq_ok.mp hplanned
    have hfaulty : ∀ call ∈ response.toolCalls,
        (Faulty rt inv prepared call ↔ RefusedSearch rt inv prepared call) := by
      intro call hmem
      obtain ⟨t, effect, ht, hauthorized, hreads, hlimits⟩ := hsound call hmem
      exact faulty_iff_refusedSearch hscope ht hauthorized hreads hlimits
    have hport : ∀ call effect,
        planCall rt.serde prepared.scope prepared.ordinaryTools call = .ok effect →
        ((portCall inv prepared.scope effect).isOk ↔ ¬RefusedSearch rt inv prepared call) := by
      intro call effect heffect
      obtain ⟨t, ht, -, hreads, hlimits⟩ := planCall_eq_ok.mp heffect
      exact isOk_portCall hscope ht hreads hlimits
    constructor
    · intro h hlate
      obtain ⟨call, hmem, hrefused⟩ := hlate.later
      have hnil := execute_calls_eq_nil.mp (h ⟨call, hmem, (hfaulty call hmem).mpr hrefused⟩).2
      -- The first effect is admitted: nothing interrupts it and its call is not refused.
      have hfirst := List.head?_eq_some_head (List.ne_nil_of_mem hmem)
      obtain ⟨effect, heffect, hplanCall⟩ := head?_of_forall₂ hplan hfirst
      obtain ⟨made, hmade⟩ := isOk_iff.mp ((hport _ effect hplanCall).mpr (hlate.first _ hfirst))
      exact hnil effect heffect
        (isOk_iff.mpr ⟨made, admitEffect_eq_ok.mpr ⟨hlate.uninterrupted.2, hmade⟩⟩)
    · rintro hnot ⟨call, hmem, hcall⟩
      have hrefused := (hfaulty call hmem).mp hcall
      obtain ⟨effect, heffect, hplanCall⟩ := exists_right_of_forall₂ hplan hmem
      constructor
      · cases hresult : (execute rt inv prepared.scope plan 1 used []).1 with
        | ok events =>
          have hok := portCall_of_execute_ok hresult effect heffect
          exact absurd hrefused ((hport call effect hplanCall).mp hok)
        | error e => exact ⟨e, by simp only [hresult]; rfl⟩
      · refine execute_calls_eq_nil.mpr fun first hfirst hok => hnot ?_
        obtain ⟨made, hmade⟩ := isOk_iff.mp hok
        obtain ⟨hcheck', hmade⟩ := admitEffect_eq_ok.mp hmade
        refine ⟨⟨hcheck, hcheck'⟩, hcalls, htext, hsound, fun head hhead => ?_, call, hmem, hrefused⟩
        obtain ⟨effect', heffect', hplanned'⟩ := head?_of_forall₂ hplan hhead
        cases heffect'.symm.trans hfirst
        exact (hport _ _ hplanned').mp (isOk_iff.mpr ⟨made, hmade⟩)

end Invocations

/-- An invocation validates every call before its first effect unless a response that passes
planning, and is not interrupted before its first effect, has a search that is refused in a place
other than the first. -/
theorem validatedBeforeEffects_iff (rt : Runtime) (inv : Invocation) :
    ValidatedBeforeEffects rt inv ↔
      ∀ prepared response, prepare rt inv = .ok prepared →
        rt.generate prepared.request = .ok response → ¬LateRefusal rt inv prepared response := by
  unfold ValidatedBeforeEffects
  constructor
  · intro h prepared response hprepare hgenerate
    have hscope := scopeOf_resolvedScope (resolvedScope_of_prepare hprepare)
    exact (validated_iff_not_lateRefusal hscope hprepare hgenerate).mp
      (h prepared response hprepare hgenerate)
  · intro h prepared response hprepare hgenerate
    have hscope := scopeOf_resolvedScope (resolvedScope_of_prepare hprepare)
    exact (validated_iff_not_lateRefusal hscope hprepare hgenerate).mpr
      (h prepared response hprepare hgenerate)

/-- A search for a blank text. -/
def sampleBlankSearch : ToolCall :=
  ⟨⟨knowledgeSearchTool, .refl true⟩, ⟨"\x7b\"query\":\" \"\x7d"⟩⟩

/-- A tool call with the search behind it. -/
def sampleCalls : List ToolCall :=
  [⟨⟨"allowed", .refl true⟩, ⟨"\x7b\"input\":\"first\"\x7d"⟩⟩, sampleBlankSearch]

/-- The tool runs although the search behind it is rejected. -/
theorem tool_runs_before_blank_search :
    ((invokeDefinition (sampleRuntime false sampleCalls)
        (sampleInvocation false ⟨"request", by decide⟩)).1 = .error .invalidDefinition ∧
      (invokeDefinition (sampleRuntime false sampleCalls)
        (sampleInvocation false ⟨"request", by decide⟩)).2.length = 1) ∧
    ¬ValidatedBeforeEffects (sampleRuntime false sampleCalls)
      (sampleInvocation false ⟨"request", by decide⟩) := by
  refine ⟨⟨by decide +kernel, by decide +kernel⟩, fun h => ?_⟩
  have hsome : (prepare (sampleRuntime false sampleCalls)
      (sampleInvocation false ⟨"request", by decide⟩)).toOption.any (fun prepared =>
        target prepared.ordinaryTools sampleBlankSearch = some .knowledgeSearch ∧
          ¬(portCall (sampleInvocation false ⟨"request", by decide⟩) prepared.scope
            (.knowledgeSearch " ")).isOk) = true := by decide +kernel
  cases hprepare : prepare (sampleRuntime false sampleCalls)
      (sampleInvocation false ⟨"request", by decide⟩) with
  | error e => rw [hprepare] at hsome; cases hsome
  | ok prepared =>
    rw [hprepare] at hsome
    obtain ⟨htarget, hrejected⟩ := of_decide_eq_true hsome
    have hreads : Reads sampleSerde sampleBlankSearch.arguments .knowledgeSearch
        (.knowledgeSearch " ") :=
      .knowledgeSearch ⟨_, rfl, .refl _⟩
    have hnil := (h prepared _ hprepare rfl ⟨sampleBlankSearch,
      List.mem_cons_of_mem _ List.mem_cons_self, .rejected htarget hreads hrejected⟩).2
    revert hnil
    decide +kernel

end RustFactory.Agent
