import RustFactory.Agent.Authority

/-!
# Agents: what an invocation spends

The execution pass counts the bytes of the model's text and of every answer of a port against the
definition's output limit, and checks both signals before every effect.  `Answers` and
`InvocationEvent.Completes` say what the events of an invocation report; the account and the
interruption are proved for every plan, every port and every course of the two signals.
-/

namespace RustFactory.Agent

open RustFactory.Lib RustFactory.Gateway

/-! ## Events -/

/-- The bytes an event adds to the output of its invocation. -/
def InvocationEvent.outputBytes : InvocationEvent → ℕ
  | .modelInvoked => 0
  | .memoryRecalled values => (values.map byteLen).sum
  | .memoryWritten => 0
  | .knowledgeSearched results => (results.map fun result => byteLen result.text).sum
  | .sandboxCompleted output => byteLen output
  | .toolCompleted _ output => byteLen output

/-- The event is the report on a tool call of the model. -/
inductive InvocationEvent.Completes (call : ToolCall) : InvocationEvent → Prop
  | tool {output : String} : Completes call (.toolCompleted call.name.asStr output)
  | memoryRecall {values : List String} (h : call.name.asStr = memoryRecallTool) :
      Completes call (.memoryRecalled values)
  | memoryWrite (h : call.name.asStr = memoryWriteTool) : Completes call .memoryWritten
  | knowledgeSearch {results : List KnowledgeResult} (h : call.name.asStr = knowledgeSearchTool) :
      Completes call (.knowledgeSearched results)
  | sandboxExecute {output : String} (h : call.name.asStr = sandboxExecuteTool) :
      Completes call (.sandboxCompleted output)

/-- The event carries what the port answers to the call after the calls `done`. -/
inductive Answered (rt : Runtime) (done : List PortCall) : PortCall → InvocationEvent → Prop
  | tool {tool : ToolDescriptor} {request : ToolRequest} {output : String}
      (h : rt.invokeTool done tool request = .ok output) :
      Answered rt done (.tool tool request) (.toolCompleted tool.id output)
  | memoryRecall {request : MemoryRequest} {values : List String}
      (h : rt.recallMemory done request = .ok values) :
      Answered rt done (.memoryRecall request) (.memoryRecalled values)
  | memoryWrite {request : MemoryRequest} {value : String}
      (h : rt.writeMemory done request value = .ok ()) :
      Answered rt done (.memoryWrite request value) .memoryWritten
  | knowledgeSearch {request : Knowledge.SearchRequest} {result : Knowledge.SearchResult}
      (h : Knowledge.search request (rt.searchIndex done request) = .ok result) :
      Answered rt done (.knowledgeSearch request)
        (.knowledgeSearched (result.hits.map fun hit => ⟨hit.documentId.asStr, hit.text⟩))
  | sandboxExecute {request : SandboxRequest} {output : String}
      (h : rt.executeSandbox done request = .ok output) :
      Answered rt done (.sandboxExecute request) (.sandboxCompleted output)

/-- The events carry the answers to the calls, one after the other. -/
inductive Answers (rt : Runtime) :
    (done calls : List PortCall) → List InvocationEvent → Prop
  | nil {done : List PortCall} : Answers rt done [] []
  | cons {done calls : List PortCall} {call : PortCall} {event : InvocationEvent}
      {events : List InvocationEvent} (first : Answered rt done call event)
      (rest : Answers rt (done ++ [call]) calls events) :
      Answers rt done (call :: calls) (event :: events)

/-! ## The account of output bytes -/

theorem checkedOutputBytes_eq_ok {value : String} {used total : ℕ} {max : UInt32}
    (h : checkedOutputBytes value used max = .ok total) :
    total = used + byteLen value ∧ total ≤ max.toNat := by
  unfold checkedOutputBytes at h
  split at h
  · rename_i hfits
    cases h
    exact ⟨rfl, hfits.2⟩
  · cases h

theorem foldlM_checkedOutputBytes {α : Type} {text : α → String} {values : List α}
    {used total : ℕ} {max : UInt32} (hused : used ≤ max.toNat)
    (h : values.foldlM (fun total value => checkedOutputBytes (text value) total max) used =
      .ok total) :
    total = used + (values.map fun value => byteLen (text value)).sum ∧ total ≤ max.toNat := by
  refine foldlM_invariant (P := fun done total => total =
    used + (done.map fun value => byteLen (text value)).sum ∧ total ≤ max.toNat) h ⟨rfl, hused⟩ ?_
  rintro done value c d ⟨hsum, -⟩ hd
  obtain ⟨hnext, hmax⟩ := checkedOutputBytes_eq_ok hd
  refine ⟨?_, hmax⟩
  rw [List.map_append, List.sum_append, List.map_singleton, List.sum_singleton]
  omega

/-- An answer that is accepted is reported in full and fits the limit. -/
theorem answer_eq_ok {rt : Runtime} {max : UInt32} {done : List PortCall} {used : ℕ}
    {call : PortCall} {answered : ℕ × InvocationEvent} (hused : used ≤ max.toNat)
    (h : answer rt max done used call = .ok answered) :
    Answered rt done call answered.2 ∧ answered.1 = used + answered.2.outputBytes ∧
      answered.1 ≤ max.toNat := by
  cases call with
  | tool tool request =>
    obtain ⟨output, houtput, h⟩ := bind_eq_ok.mp h
    obtain ⟨total, htotal, h⟩ := bind_eq_ok.mp h
    cases h
    exact ⟨.tool houtput, checkedOutputBytes_eq_ok htotal⟩
  | memoryRecall request =>
    obtain ⟨values, hvalues, h⟩ := bind_eq_ok.mp h
    obtain ⟨total, htotal, h⟩ := bind_eq_ok.mp h
    cases h
    exact ⟨.memoryRecall hvalues, foldlM_checkedOutputBytes hused htotal⟩
  | memoryWrite request value =>
    obtain ⟨⟨⟩, hwritten, h⟩ := bind_eq_ok.mp h
    cases h
    exact ⟨.memoryWrite hwritten, rfl, hused⟩
  | knowledgeSearch request =>
    obtain ⟨result, hresult, h⟩ := bind_eq_ok.mp h
    obtain ⟨total, htotal, h⟩ := bind_eq_ok.mp h
    cases h
    exact ⟨.knowledgeSearch (mapError_eq_ok.mp hresult),
      foldlM_checkedOutputBytes hused htotal⟩
  | sandboxExecute request =>
    obtain ⟨output, houtput, h⟩ := bind_eq_ok.mp h
    obtain ⟨total, htotal, h⟩ := bind_eq_ok.mp h
    cases h
    exact ⟨.sandboxExecute houtput, checkedOutputBytes_eq_ok htotal⟩

/-! ## The execution pass -/

section Execution

variable {rt : Runtime} {inv : Invocation} {scope : ResolvedCapabilityScope}

/-- An execution that succeeds has found no signal, has made the call of every effect and reports
every answer within the limit. -/
theorem execute_eq_ok {plan : List PlannedEffect} {check used : ℕ} {done : List PortCall}
    {events : List InvocationEvent} (hused : used ≤ scope.limits.maxOutputBytes.toNat)
    (h : (execute rt inv scope plan check used done).1 = .ok events) :
    ∃ calls, (execute rt inv scope plan check used done).2 = done ++ calls ∧
      List.Forall₂ (fun effect call => portCall inv scope effect = .ok call) plan calls ∧
      Answers rt done calls events ∧
      used + (events.map InvocationEvent.outputBytes).sum ≤ scope.limits.maxOutputBytes.toNat ∧
      ∀ n, check ≤ n → n < check + plan.length → inv.control.preflight n = .ok () := by
  induction plan generalizing check used done events with
  | nil =>
    cases h
    exact ⟨[], (List.append_nil done).symm, .nil, .nil, hused, fun n hlow hhigh => by
      rw [List.length_nil] at hhigh
      omega⟩
  | cons effect plan ih =>
    cases hadmitted : admitEffect inv scope check effect with
    | error e =>
      rw [execute_refused hadmitted] at h
      cases h
    | ok call =>
      obtain ⟨hcheck, hcall⟩ := admitEffect_eq_ok.mp hadmitted
      cases hanswer : answer rt scope.limits.maxOutputBytes done used call with
      | error e =>
        rw [execute_failed hadmitted hanswer] at h
        cases h
      | ok answered =>
        obtain ⟨hanswered, hsum, hfits⟩ := answer_eq_ok hused hanswer
        rw [execute_answered hadmitted hanswer] at h ⊢
        cases hrest : (execute rt inv scope plan (check + 1) answered.1 (done ++ [call])).1 with
        | error e =>
          simp only [hrest] at h
          cases h
        | ok rest =>
          simp only [hrest] at h
          cases h
          obtain ⟨calls, hcalls, hplan, hanswers, htotal, hclear⟩ := ih hfits hrest
          refine ⟨call :: calls, ?_, .cons hcall hplan, .cons hanswered hanswers, ?_, ?_⟩
          · show (execute rt inv scope plan (check + 1) answered.1 (done ++ [call])).2 = _
            rw [hcalls, List.append_assoc, List.singleton_append]
          · rw [List.map_cons, List.sum_cons]
            omega
          · intro n hlow hhigh
            rw [List.length_cons] at hhigh
            rcases Nat.eq_or_lt_of_le hlow with rfl | hlater
            · exact hcheck
            · exact hclear n (by omega) (by omega)

/-- A signal at a check stops the execution before the effect behind the check. -/
theorem length_calls_le_of_signal {plan : List PlannedEffect} {check used n : ℕ}
    {done : List PortCall} (hlow : check ≤ n) (hsignal : inv.control.preflight n ≠ .ok ()) :
    (execute rt inv scope plan check used done).2.length ≤ done.length + (n - check) := by
  induction plan generalizing check used done with
  | nil => exact Nat.le_add_right _ _
  | cons effect plan ih =>
    cases hadmitted : admitEffect inv scope check effect with
    | error e =>
      rw [execute_refused hadmitted]
      exact Nat.le_add_right _ _
    | ok call =>
      have hlater : check < n := by
        refine Nat.lt_of_le_of_ne hlow fun heq => hsignal ?_
        rw [← heq]
        exact (admitEffect_eq_ok.mp hadmitted).1
      cases hanswer : answer rt scope.limits.maxOutputBytes done used call with
      | error e =>
        rw [execute_failed hadmitted hanswer, List.length_append, List.length_singleton]
        omega
      | ok answered =>
        have hrest := @ih (check + 1) answered.1 (done ++ [call]) hlater
        rw [execute_answered hadmitted hanswer]
        rw [List.length_append, List.length_singleton] at hrest
        show (execute rt inv scope plan (check + 1) answered.1 (done ++ [call])).2.length ≤ _
        omega

end Execution

/-! ## The report on a call -/

/-- The tools are found under their own ids. -/
def FoundById (ordinary : BTreeMap String ToolDescriptor) : Prop :=
  ∀ (name : String) (tool : ToolDescriptor), ordinary[name]? = some tool → tool.id = name

theorem foundById_ordinaryTools {serde : Serde} {resolved : List ToolDescriptor}
    {ordinary : BTreeMap String ToolDescriptor}
    {offered : List ToolDefinition × BTreeMap String ToolDescriptor}
    (hids : FoundById ordinary) (h : ordinaryTools serde resolved ordinary = .ok offered) :
    FoundById offered.2 := by
  induction resolved generalizing ordinary offered with
  | nil =>
    cases h
    exact hids
  | cons first resolved ih =>
    unfold ordinaryTools at h
    split_ifs at h with hreserved
    obtain ⟨name, hname, h⟩ := bind_eq_ok.mp h
    split_ifs at h with hpresent
    obtain ⟨definition, -, h⟩ := bind_eq_ok.mp h
    obtain ⟨⟨definitions, tools⟩, hrest, h⟩ := bind_eq_ok.mp h
    cases h
    obtain ⟨hvalid, rfl⟩ := ifOk_eq_ok.mp (mapError_eq_ok.mp hname)
    show FoundById (definitions, tools).2
    refine ih (fun key tool hget => ?_) hrest
    rw [Std.ExtTreeMap.getElem?_insert] at hget
    split_ifs at hget with hkey
    · cases hget
      exact Std.LawfulEqCmp.eq_of_compare hkey
    · exact hids key tool hget

theorem foundById_prepare {rt : Runtime} {inv : Invocation} {prepared : Prepared}
    (h : prepare rt inv = .ok prepared) : FoundById prepared.ordinaryTools := by
  unfold prepare at h
  split at h
  · cases h
  · obtain ⟨effective, -, h⟩ := bind_eq_ok.mp h
    obtain ⟨resolved, -, h⟩ := bind_eq_ok.mp h
    obtain ⟨reference, -, h⟩ := bind_eq_ok.mp h
    obtain ⟨tools, htools, h⟩ := bind_eq_ok.mp h
    obtain ⟨prompt, -, h⟩ := bind_eq_ok.mp h
    obtain ⟨limits, -, h⟩ := bind_eq_ok.mp h
    obtain ⟨request, -, h⟩ := bind_eq_ok.mp h
    cases h
    unfold gatewayTools at htools
    obtain ⟨offered, hoffered, htools⟩ := bind_eq_ok.mp htools
    obtain ⟨memory, -, htools⟩ := bind_eq_ok.mp htools
    obtain ⟨knowledge, -, htools⟩ := bind_eq_ok.mp htools
    obtain ⟨sandbox, -, htools⟩ := bind_eq_ok.mp htools
    cases htools
    refine foundById_ordinaryTools (fun name tool hget => ?_) hoffered
    rw [Std.ExtTreeMap.getElem?_empty] at hget
    cases hget

theorem limits_of_resolvedScope {rt : Runtime} {inv : Invocation}
    {scope : ResolvedCapabilityScope} (h : resolvedScope rt inv = .ok scope) :
    scope.limits = inv.definition.limits := by
  unfold resolvedScope at h
  obtain ⟨effective, -, h⟩ := bind_eq_ok.mp h
  obtain ⟨resolved, -, h⟩ := bind_eq_ok.mp h
  cases h
  rfl

/-- The name a target is called by. -/
def Target.name : Target → String
  | .tool descriptor => descriptor.id
  | .memoryRecall => memoryRecallTool
  | .memoryWrite => memoryWriteTool
  | .knowledgeSearch => knowledgeSearchTool
  | .sandboxExecute => sandboxExecuteTool

theorem name_of_target {ordinary : BTreeMap String ToolDescriptor} {call : ToolCall} {t : Target}
    (hids : FoundById ordinary) (h : target ordinary call = some t) :
    call.name.asStr = t.name := by
  unfold target at h
  cases hfound : ordinary[call.name.asStr]? with
  | some tool =>
    rw [hfound] at h
    cases h
    exact (hids _ _ hfound).symm
  | none =>
    simp only [hfound] at h
    split_ifs at h with hrecall hwrite hsearch hsandbox
    · cases h
      exact hrecall
    · cases h
      exact hwrite
    · cases h
      exact hsearch
    · cases h
      exact hsandbox

/-- The event of a planned call reports on it. -/
theorem completes_of_answered {rt : Runtime} {inv : Invocation} {scope : ResolvedCapabilityScope}
    {ordinary : BTreeMap String ToolDescriptor} {call : ToolCall} {effect : PlannedEffect}
    {portcall : PortCall} {done : List PortCall} {event : InvocationEvent}
    (hids : FoundById ordinary) (hplan : planCall rt.serde scope ordinary call = .ok effect)
    (hcall : portCall inv scope effect = .ok portcall)
    (hanswered : Answered rt done portcall event) : event.Completes call := by
  obtain ⟨t, htarget, -, hreads, -⟩ := planCall_eq_ok.mp hplan
  have hname := name_of_target hids htarget
  cases hreads with
  | tool =>
    cases hcall
    cases hanswered
    show InvocationEvent.Completes call (.toolCompleted (Target.tool _).name _)
    rw [← hname]
    exact .tool
  | memoryRecall =>
    cases hcall
    cases hanswered
    exact .memoryRecall hname
  | memoryWrite =>
    cases hcall
    cases hanswered
    exact .memoryWrite hname
  | @knowledgeSearch query =>
    simp only [portCall] at hcall
    cases hrequest : searchRequest inv.context scope query with
    | error e =>
      rw [hrequest] at hcall
      cases hcall
    | ok request =>
      rw [hrequest] at hcall
      cases hcall
      cases hanswered
      exact .knowledgeSearch hname
  | sandboxExecute =>
    cases hcall
    cases hanswered
    exact .sandboxExecute hname

/-- The events of an execution report on the planned calls in order. -/
theorem completes_of_answers {rt : Runtime} {inv : Invocation} {scope : ResolvedCapabilityScope}
    {ordinary : BTreeMap String ToolDescriptor} {toolCalls : List ToolCall}
    {plan : List PlannedEffect} {done calls : List PortCall} {events : List InvocationEvent}
    (hids : FoundById ordinary)
    (hplan : List.Forall₂ (fun call effect => planCall rt.serde scope ordinary call = .ok effect)
      toolCalls plan)
    (hcalls : List.Forall₂ (fun effect call => portCall inv scope effect = .ok call) plan calls)
    (hanswers : Answers rt done calls events) :
    List.Forall₂ (fun call event => InvocationEvent.Completes call event) toolCalls events := by
  induction hanswers generalizing toolCalls plan with
  | nil =>
    cases hcalls
    cases hplan
    exact .nil
  | cons first rest ih =>
    cases hcalls with
    | cons hcall hcalls =>
      cases hplan with
      | cons heffect hplan =>
        exact .cons (completes_of_answered hids heffect hcall first) (ih hplan hcalls)

/-! ## Invocations -/

/-- What holds of the result of an invocation. -/
structure Accounted (rt : Runtime) (inv : Invocation) (result : InvocationResult) : Prop where
  /-- The model's text and the answers of all ports fit the definition's limit. -/
  output : byteLen result.output + (result.events.map InvocationEvent.outputBytes).sum ≤
    inv.definition.limits.maxOutputBytes.toNat
  calls : (invokeDefinition rt inv).2.length ≤ inv.definition.limits.maxToolCalls.toNat
  /-- One event for the model and then one for each of its tool calls, with the port's answer. -/
  events : ∃ prepared response events, prepare rt inv = .ok prepared ∧
    rt.generate prepared.request = .ok response ∧ result.output = response.text ∧
    result.events = .modelInvoked :: events ∧
    List.Forall₂ (fun call event => InvocationEvent.Completes call event) response.toolCalls
      events ∧
    Answers rt [] (invokeDefinition rt inv).2 events
  /-- No check has found a signal. -/
  clear : ∀ check ≤ (invokeDefinition rt inv).2.length, inv.control.preflight check = .ok ()

/-- What holds of the calls of every invocation.  Check 0 follows the model's answer, and check
`n + 1` comes right before effect `n` of the plan. -/
structure Interruptible (rt : Runtime) (inv : Invocation) : Prop where
  stopped : ∀ check, inv.control.preflight check ≠ .ok () →
    (invokeDefinition rt inv).2.length ≤ check - 1
  planned : (invokeDefinition rt inv).2 ≠ [] → ∃ planned performed,
    planInvocation rt inv = .ok planned ∧ performed <+: planned.plan ∧
      List.Forall₂ (fun effect call => portCall inv planned.scope effect = .ok call) performed
        (invokeDefinition rt inv).2

section Invocations

variable {rt : Runtime} {inv : Invocation}

theorem accounted_of_ok {result : InvocationResult}
    (h : (invokeDefinition rt inv).1 = .ok result) : Accounted rt inv result := by
  cases hplanned : planInvocation rt inv with
  | error e =>
    rw [invokeDefinition_of_refused hplanned] at h
    cases h
  | ok planned =>
    have hinvoke := invokeDefinition_of_planned hplanned
    obtain ⟨prepared, response, hprepare, hgenerate, hresponse⟩ := planInvocation_eq_ok hplanned
    obtain ⟨hfirst, hcount, -, outputBytes, plan, hbytes, hplan, rfl⟩ :=
      planResponse_eq_ok.mp hresponse
    have hlimits := limits_of_resolvedScope (resolvedScope_of_prepare hprepare)
    obtain ⟨htext, hfits⟩ := checkedOutputBytes_eq_ok hbytes
    rw [← hlimits] at hfits
    rw [hinvoke] at h
    cases hevents : (execute rt inv prepared.scope plan 1 outputBytes []).1 with
    | error e =>
      simp only [hevents] at h
      cases h
    | ok events =>
      simp only [hevents] at h
      cases h
      obtain ⟨calls, hcalls, hmade, hanswers, htotal, hclear⟩ := execute_eq_ok hfits hevents
      have hcalls : (invokeDefinition rt inv).2 = calls := by
        rw [hinvoke]
        exact hcalls
      have hlength : calls.length = response.toolCalls.length := by
        rw [← hmade.length_eq, ← hplan.length_eq]
      constructor
      · rw [← hlimits]
        show byteLen response.text + (0 + (events.map InvocationEvent.outputBytes).sum) ≤ _
        omega
      · rw [hcalls, hlength]
        exact hcount
      · refine ⟨prepared, response, events, hprepare, hgenerate, rfl, rfl, ?_, hcalls ▸ hanswers⟩
        exact completes_of_answers (foundById_prepare hprepare) hplan hmade hanswers
      · intro check hcheck
        rw [hcalls, ← hmade.length_eq] at hcheck
        rcases Nat.eq_zero_or_pos check with rfl | hpos
        · exact hfirst
        · exact hclear check hpos (by omega)

theorem interruptible (rt : Runtime) (inv : Invocation) : Interruptible rt inv := by
  cases hplanned : planInvocation rt inv with
  | error e =>
    have hinvoke := invokeDefinition_of_refused hplanned
    constructor
    · intro check _
      rw [hinvoke]
      exact Nat.zero_le _
    · intro hne
      rw [hinvoke] at hne
      exact absurd rfl hne
  | ok planned =>
    have hinvoke := invokeDefinition_of_planned hplanned
    obtain ⟨prepared, response, -, -, hresponse⟩ := planInvocation_eq_ok hplanned
    have hfirst := (planResponse_eq_ok.mp hresponse).1
    constructor
    · intro check hsignal
      rw [hinvoke]
      have hpos : 1 ≤ check := by
        refine Nat.pos_of_ne_zero ?_
        rintro rfl
        exact hsignal hfirst
      have hstopped := @length_calls_le_of_signal rt inv planned.scope planned.plan 1
        planned.outputBytes check [] hpos hsignal
      rw [List.length_nil, Nat.zero_add] at hstopped
      exact hstopped
    · intro _
      obtain ⟨performed, rest, calls, hperformed, hcalls, hall⟩ :=
        @execute_calls rt inv planned.scope planned.plan 1 planned.outputBytes []
      refine ⟨planned, performed, hplanned, ⟨rest, hperformed.symm⟩, ?_⟩
      rw [hinvoke]
      show List.Forall₂ _ performed (execute rt inv planned.scope planned.plan 1 _ []).2
      rw [hcalls]
      exact hall

end Invocations

/-- An invocation that returns has kept the limits of its definition and reports on every tool call
of the model in order.  In every invocation the effects performed are the first of the plan, and
none is performed after a check that finds a signal. -/
theorem invokeDefinition_accounted (rt : Runtime) (inv : Invocation) :
    (∀ result, (invokeDefinition rt inv).1 = .ok result → Accounted rt inv result) ∧
      Interruptible rt inv :=
  ⟨fun _ h => accounted_of_ok h, interruptible rt inv⟩

/-- A tool call and a search. -/
def sampleToolAndSearch : List ToolCall :=
  [⟨⟨"allowed", .refl true⟩, ⟨"\x7b\"input\":\"first\"\x7d"⟩⟩, sampleSearch]

theorem invokeDefinition_accounted_sample :
    ∃ result, (invokeDefinition (sampleRuntime false sampleToolAndSearch)
        (sampleInvocation false ⟨"request", by decide⟩)).1 = .ok result ∧
      result.events = [.modelInvoked, .toolCompleted "allowed" "output", .knowledgeSearched []] ∧
      Accounted (sampleRuntime false sampleToolAndSearch)
        (sampleInvocation false ⟨"request", by decide⟩) result := by
  have hevents : (invokeDefinition (sampleRuntime false sampleToolAndSearch)
      (sampleInvocation false ⟨"request", by decide⟩)).1.map InvocationResult.events =
        .ok [.modelInvoked, .toolCompleted "allowed" "output", .knowledgeSearched []] := by
    decide +kernel
  cases hinvoke : (invokeDefinition (sampleRuntime false sampleToolAndSearch)
      (sampleInvocation false ⟨"request", by decide⟩)).1 with
  | error e =>
    rw [hinvoke] at hevents
    cases hevents
  | ok result =>
    rw [hinvoke] at hevents
    exact ⟨result, rfl, Except.ok.inj hevents,
      (invokeDefinition_accounted _ _).1 result hinvoke⟩

end RustFactory.Agent
