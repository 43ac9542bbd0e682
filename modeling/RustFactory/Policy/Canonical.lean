import RustFactory.Policy.Model

/-!
# Policy: what the canonical bytes bind

The canonical bytes of a grant or a decision are a sequence of framed texts.  Two documents have
the same bytes exactly if they say the same: the same kind, the same request, the same set of tools
and the same permissions.
-/

namespace RustFactory.Policy

open RustFactory.Lib

/-! ## What a document says -/

/-- The tools of a grant as a set, and its permissions. -/
structure GrantContent where
  toolIds : Finset String
  memoryEnabled : Bool
  knowledgeEnabled : Bool
  sandboxExecutionAllowed : Bool
  communicationAllowed : Bool
  deriving DecidableEq

def GrantV1.content (grant : GrantV1) : GrantContent where
  toolIds := grant.allowedToolIds.toFinset
  memoryEnabled := grant.memoryEnabled
  knowledgeEnabled := grant.knowledgeEnabled
  sandboxExecutionAllowed := grant.sandboxExecutionAllowed
  communicationAllowed := grant.communicationAllowed

/-- The inputs of the two encoders. -/
inductive Document where
  | grant (grant : GrantV1)
  | decision (request : AuthorizationRequestV1) (decision : AuthorizationDecisionV1)

/-- What a document says. -/
inductive Content where
  | grant (grant : GrantContent)
  | allow (request : AuthorizationRequestV1) (grant : GrantContent)
  | deny (request : AuthorizationRequestV1) (safeReason : SafeDenyReasonV1)
  deriving DecidableEq

/-- A decision is identified without the digest that is computed from it. -/
def Document.content : Document → Content
  | .grant value => .grant value.content
  | .decision request (.allow effectiveGrant _) => .allow request effectiveGrant.content
  | .decision request (.deny safeReason) => .deny request safeReason

/-- The canonical text of a document. -/
def Document.canonicalBytes : Document → Except PolicyError Bytes
  | .grant value => grantCanonicalBytes value
  | .decision request value => decisionCanonicalBytes request value

/-! ## The texts of a document -/

def grantTexts (grant : GrantV1) : List String :=
  decimal (BTreeMap.distinct grant.allowedToolIds).length ::
    (BTreeMap.distinct grant.allowedToolIds ++
      [boolean grant.memoryEnabled, boolean grant.knowledgeEnabled,
        boolean grant.sandboxExecutionAllowed, boolean grant.communicationAllowed])

def Document.texts : Document → List String
  | .grant value => "policy-grant-v1" :: grantTexts value
  | .decision request (.allow effectiveGrant _) =>
    requestFields request ++ "allow" :: "grant-present" :: grantTexts effectiveGrant
  | .decision request (.deny safeReason) =>
    requestFields request ++ ["deny", safeReason.asStr, "grant-absent"]

theorem canonicalGrant_eq_ok {grant canonical : GrantV1} (h : canonicalGrant grant = .ok canonical) :
    canonical = { grant with allowedToolIds := BTreeMap.distinct grant.allowedToolIds } := by
  unfold canonicalGrant GrantV1.new at h
  obtain ⟨tools, htools, h⟩ := bind_eq_ok.mp h
  obtain ⟨⟨⟩, -, h⟩ := bind_eq_ok.mp h
  cases h
  unfold canonicalTools at htools
  split_ifs at htools
  cases htools
  rfl

theorem grantBytes_canonical {grant canonical : GrantV1} (h : canonicalGrant grant = .ok canonical) :
    grantBytes canonical = fields (grantTexts grant) := by
  rw [canonicalGrant_eq_ok h]
  unfold grantBytes grantTexts
  rw [flatMap_fields, List.flatMap_singleton', ← fields_append, ← fields_append]
  rfl

theorem canonicalBytes_eq_ok {document : Document} {bytes : Bytes}
    (h : document.canonicalBytes = .ok bytes) : bytes = fields document.texts := by
  rcases document with grant | ⟨request, ⟨grant, _⟩ | reason⟩
  · unfold Document.canonicalBytes grantCanonicalBytes at h
    obtain ⟨canonical, hcanonical, h⟩ := bind_eq_ok.mp h
    cases h
    rw [grantBytes_canonical hcanonical, ← fields_append]
    rfl
  · unfold Document.canonicalBytes decisionCanonicalBytes at h
    obtain ⟨canonical, hcanonical, h⟩ := bind_eq_ok.mp h
    cases h
    rw [grantBytes_canonical hcanonical, ← fields_append, ← fields_append]
    unfold Document.texts
    rw [List.append_assoc]
    rfl
  · cases h
    rw [← fields_append]
    rfl

/-! ## The texts determine the content -/

def CapabilityV1.all : List CapabilityV1 :=
  [.agentDefinitionValidate, .agentDefinitionGet, .agentDefinitionList, .agentDefinitionRegister,
    .agentInvoke, .workflowValidate, .workflowStart, .workflowGet, .workflowList, .workflowCancel,
    .evaluationValidate, .evaluationEvaluate, .evaluationGet, .observabilityTelemetryQuery,
    .observabilityTelemetryStatus, .memoryRemember, .memoryRecall, .memorySearch, .memoryForget,
    .memoryStatus, .sandboxStart, .sandboxExecute, .sandboxStatus, .sandboxStop]

theorem CapabilityV1.mem_all (capability : CapabilityV1) : capability ∈ CapabilityV1.all := by
  cases capability <;> decide

theorem CapabilityV1.asStr_injective : Function.Injective CapabilityV1.asStr := by
  have hnodup : (CapabilityV1.all.map CapabilityV1.asStr).Nodup := by decide +kernel
  intro a b h
  exact List.inj_on_of_nodup_map hnodup a.mem_all b.mem_all h

theorem boolean_injective : Function.Injective boolean := by decide

theorem LogicalId.asStr_injective : Function.Injective LogicalId.asStr := by
  rintro ⟨a, ha⟩ ⟨b, hb⟩ h
  cases h
  rfl

theorem requestFields_injective : Function.Injective requestFields := by
  rintro ⟨⟨t, p, r, c⟩, capability⟩ ⟨⟨t', p', r', c'⟩, capability'⟩ h
  simp only [requestFields, List.cons.injEq, true_and, and_true, LogicalId.asStr_injective.eq_iff,
    CapabilityV1.asStr_injective.eq_iff] at h
  obtain ⟨rfl, rfl, rfl, rfl, rfl⟩ := h
  rfl

theorem grantTexts_eq_iff {grant grant' : GrantV1} :
    grantTexts grant = grantTexts grant' ↔ grant.content = grant'.content := by
  have hlen : ∀ a b : GrantV1, [boolean a.memoryEnabled, boolean a.knowledgeEnabled,
      boolean a.sandboxExecutionAllowed, boolean a.communicationAllowed].length =
      [boolean b.memoryEnabled, boolean b.knowledgeEnabled, boolean b.sandboxExecutionAllowed,
        boolean b.communicationAllowed].length := fun _ _ => rfl
  unfold grantTexts GrantV1.content
  rw [List.cons.injEq, GrantContent.mk.injEq]
  constructor
  · rintro ⟨-, h⟩
    obtain ⟨htools, hflags⟩ := List.append_inj' h (hlen _ _)
    simp only [List.cons.injEq, boolean_injective.eq_iff, and_true] at hflags
    refine ⟨?_, hflags⟩
    ext id
    rw [List.mem_toFinset, List.mem_toFinset]
    exact BTreeMap.distinct_eq_iff.mp htools id
  · rintro ⟨htools, hmemory, hknowledge, hsandbox, hcommunication⟩
    have hdistinct : BTreeMap.distinct grant.allowedToolIds =
        BTreeMap.distinct grant'.allowedToolIds := by
      refine BTreeMap.distinct_eq_iff.mpr fun id => ?_
      rw [← List.mem_toFinset, htools, List.mem_toFinset]
    rw [hdistinct, hmemory, hknowledge, hsandbox, hcommunication]
    exact ⟨rfl, rfl⟩

/-- The texts of a decision: those of the request, then those of the outcome. -/
theorem request_append_inj {request request' : AuthorizationRequestV1} {rest rest' : List String} :
    requestFields request ++ rest = requestFields request' ++ rest' ↔
      request = request' ∧ rest = rest' := by
  constructor
  · intro h
    obtain ⟨hrequest, hrest⟩ := List.append_inj h rfl
    exact ⟨requestFields_injective hrequest, hrest⟩
  · rintro ⟨rfl, rfl⟩
    rfl

/-- The first text tells a grant from a decision. -/
theorem grant_ne_request {grant : GrantV1} {request : AuthorizationRequestV1}
    {rest : List String} : "policy-grant-v1" :: grantTexts grant ≠ requestFields request ++ rest := by
  intro h
  have := List.head_eq_of_cons_eq h
  exact absurd this (by decide)

theorem texts_eq_iff {x y : Document} : x.texts = y.texts ↔ x.content = y.content := by
  rcases x with g | ⟨r, ⟨g, d⟩ | reason⟩
  · rcases y with g' | ⟨r', ⟨g', d'⟩ | reason'⟩
    · simp only [Document.texts, Document.content, List.cons.injEq, true_and, grantTexts_eq_iff,
        Content.grant.injEq]
    · exact iff_of_false grant_ne_request nofun
    · exact iff_of_false grant_ne_request nofun
  · rcases y with g' | ⟨r', ⟨g', d'⟩ | reason'⟩
    · exact iff_of_false grant_ne_request.symm nofun
    · simp only [Document.texts, Document.content, request_append_inj, List.cons.injEq, true_and,
        grantTexts_eq_iff, Content.allow.injEq]
    · refine iff_of_false (fun h => ?_) nofun
      exact absurd (List.head_eq_of_cons_eq (request_append_inj.mp h).2) (by decide)
  · rcases y with g' | ⟨r', ⟨g', d'⟩ | reason'⟩
    · exact iff_of_false grant_ne_request.symm nofun
    · refine iff_of_false (fun h => ?_) nofun
      exact absurd (List.head_eq_of_cons_eq (request_append_inj.mp h).2) (by decide)
    · cases reason
      cases reason'
      simp only [Document.texts, Document.content, request_append_inj, and_true, Content.deny.injEq]

/-- Two documents have the same canonical bytes exactly if they say the same. -/
theorem canonicalBytes_bind_content {x y : Document} {bytes bytes' : Bytes}
    (hx : x.canonicalBytes = .ok bytes) (hy : y.canonicalBytes = .ok bytes') :
    bytes = bytes' ↔ x.content = y.content := by
  rw [canonicalBytes_eq_ok hx, canonicalBytes_eq_ok hy, fields_injective.eq_iff, texts_eq_iff]

/-! ## A request and its documents -/

def sampleRequest : AuthorizationRequestV1 where
  context := ⟨⟨"tenant", by decide⟩, ⟨"principal", by decide⟩, ⟨"request", by decide⟩,
    ⟨"correlation", by decide⟩⟩
  capability := .agentInvoke

def sampleGrant (toolIds : List String) : GrantV1 := ⟨toolIds, true, false, true, false⟩

def sampleGrantText : String :=
  "15:policy-grant-v1\n1:2\n6:tool-a\n6:tool-b\n4:true\n5:false\n4:true\n5:false\n"

def sampleAllowText : String :=
  "18:policy-decision-v1\n6:tenant\n9:principal\n7:request\n11:correlation\n12:agent_invoke\n" ++
    "5:allow\n13:grant-present\n1:2\n6:tool-a\n6:tool-b\n4:true\n5:false\n4:true\n5:false\n"

/-- On the repository's golden vectors: order and repetition of the tools are lost, and an allowing
decision differs from its grant. -/
theorem canonicalBytes_golden :
    (Document.grant (sampleGrant ["tool-b", "tool-a"])).canonicalBytes =
      .ok (utf8 sampleGrantText) ∧
    (Document.decision sampleRequest
      (.allow (sampleGrant ["tool-a", "tool-b", "tool-a"]) "")).canonicalBytes =
      .ok (utf8 sampleAllowText) ∧
    utf8 sampleGrantText ≠ utf8 sampleAllowText := by
  have hgrant : (Document.grant (sampleGrant ["tool-b", "tool-a"])).canonicalBytes =
      .ok (utf8 sampleGrantText) := by
    decide +kernel
  have hallow : (Document.decision sampleRequest
      (.allow (sampleGrant ["tool-a", "tool-b", "tool-a"]) "")).canonicalBytes =
      .ok (utf8 sampleAllowText) := by
    decide +kernel
  refine ⟨hgrant, hallow, fun h => ?_⟩
  cases (canonicalBytes_bind_content hgrant hallow).mp h

end RustFactory.Policy
