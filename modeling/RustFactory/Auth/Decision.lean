import RustFactory.Auth.Model

/-!
# Auth: what a verified decision says

An allowing decision verifies for a request exactly when it is one that `allowDecision` issues for
that request.  Its digest covers the capability and its context repeats the identifiers of the
request, so it verifies for no other request as long as the digest function does not collide on the
two.
-/

namespace RustFactory.Auth

open Lib

/-! ## Canonical grants -/

theorem canonicalTools_eq_ok {tools canonical : List String} :
    canonicalTools tools = .ok canonical ↔ canonical = BTreeMap.distinct tools ∧
      canonical.length ≤ maxToolIds ∧ ∀ id ∈ canonical, isToolId id := by
  unfold canonicalTools
  by_cases hlen : maxToolIds < (BTreeMap.distinct tools).length
  · rw [if_pos hlen]
    refine iff_of_false nofun ?_
    rintro ⟨rfl, hle, -⟩
    omega
  · rw [if_neg hlen]
    by_cases hany : (BTreeMap.distinct tools).any fun id => !isToolId id
    · rw [if_pos hany]
      refine iff_of_false nofun ?_
      rintro ⟨rfl, -, hall⟩
      obtain ⟨id, hid, hinvalid⟩ := List.any_eq_true.mp hany
      rw [hall id hid] at hinvalid
      cases hinvalid
    · rw [if_neg hany]
      constructor
      · intro h
        cases h
        refine ⟨rfl, Nat.not_lt.mp hlen, fun id hid => ?_⟩
        by_contra hinvalid
        refine hany (List.any_eq_true.mpr ⟨id, hid, ?_⟩)
        rw [Bool.eq_false_iff.mpr hinvalid]
        rfl
      · rintro ⟨rfl, -, -⟩
        rfl

theorem validateGrant_eq_ok {grant : GrantV1} (hlen : grant.allowedToolIds.length ≤ maxToolIds)
    (hids : ∀ id ∈ grant.allowedToolIds, isToolId id) : validateGrant grant = .ok () := by
  unfold validateGrant
  rw [if_neg (Nat.not_lt.mpr hlen), if_neg]
  intro hany
  obtain ⟨id, hid, hinvalid⟩ := List.any_eq_true.mp hany
  rw [hids id hid] at hinvalid
  cases hinvalid

theorem canonicalGrant_eq_ok {grant canonical : GrantV1} :
    canonicalGrant grant = .ok canonical ↔
      canonical = { grant with allowedToolIds := BTreeMap.distinct grant.allowedToolIds } ∧
      canonical.allowedToolIds.length ≤ maxToolIds ∧ ∀ id ∈ canonical.allowedToolIds, isToolId id := by
  unfold canonicalGrant GrantV1.new
  rw [bind_eq_ok]
  constructor
  · rintro ⟨tools, htools, h⟩
    obtain ⟨⟨⟩, -, h⟩ := bind_eq_ok.mp h
    cases h
    obtain ⟨rfl, hlen, hids⟩ := canonicalTools_eq_ok.mp htools
    exact ⟨rfl, hlen, hids⟩
  · rintro ⟨rfl, hlen, hids⟩
    exact ⟨_, canonicalTools_eq_ok.mpr ⟨rfl, hlen, hids⟩,
      bind_eq_ok.mpr ⟨(), validateGrant_eq_ok hlen hids, rfl⟩⟩

theorem canonicalGrant_idempotent {grant canonical : GrantV1}
    (h : canonicalGrant grant = .ok canonical) : canonicalGrant canonical = .ok canonical := by
  obtain ⟨rfl, hlen, hids⟩ := canonicalGrant_eq_ok.mp h
  refine canonicalGrant_eq_ok.mpr ⟨?_, hlen, hids⟩
  have hsame : BTreeMap.distinct (BTreeMap.distinct grant.allowedToolIds) =
      BTreeMap.distinct grant.allowedToolIds :=
    BTreeMap.distinct_eq_iff.mpr fun id => BTreeMap.mem_distinct
  rw [hsame]

/-! ## Digests -/

theorem isLowercaseSha256_hexDigest (sha256 : Sha256) (bytes : Bytes) :
    isLowercaseSha256 (sha256.hexDigest bytes) := by
  unfold isLowercaseSha256
  rw [Bool.and_eq_true, beq_iff_eq, List.all_eq_true]
  exact ⟨byteLen_hexDigest sha256 bytes, fun b hb => lowercaseHex_of_mem_hexDigest hb⟩

theorem validateRequestScope_eq_ok {request : AuthorizationRequestV1} {context : AuthContextV1} :
    validateRequestScope request context = .ok () ↔
      context.requestId = request.requestId ∧ context.correlationId = request.correlationId := by
  unfold validateRequestScope
  by_cases h : context.requestId = request.requestId ∧ context.correlationId = request.correlationId
  · rw [if_neg (by rw [h.1, h.2]; simp)]
    exact iff_of_true rfl h
  · rw [if_pos (by rwa [not_and_or] at h)]
    exact iff_of_false nofun h

/-- What is issued: the digest is taken over the canonical grant. -/
theorem allowDecision_eq_ok {sha256 : Sha256} {request : AuthorizationRequestV1}
    {context context' : AuthContextV1} {grant grant' : GrantV1} {digest : String} :
    allowDecision sha256 request context' grant' = .ok (.allow context grant digest) ↔
      context' = context ∧ validateRequestScope request context = .ok () ∧
      canonicalGrant grant' = .ok grant ∧
      decisionDigest sha256 request (.allow context grant "") = .ok digest := by
  unfold allowDecision
  rw [bind_eq_ok]
  constructor
  · rintro ⟨⟨⟩, hscope, h⟩
    obtain ⟨canonical, hcanonical, h⟩ := bind_eq_ok.mp h
    obtain ⟨expected, hdigest, h⟩ := bind_eq_ok.mp h
    cases h
    exact ⟨rfl, hscope, hcanonical, hdigest⟩
  · rintro ⟨rfl, hscope, hcanonical, hdigest⟩
    exact ⟨(), hscope, bind_eq_ok.mpr ⟨grant, hcanonical, bind_eq_ok.mpr ⟨digest, hdigest, rfl⟩⟩⟩

theorem verifyDecision_eq_true {sha256 : Sha256} {request : AuthorizationRequestV1}
    {context : AuthContextV1} {grant : GrantV1} {digest : String} :
    verifyDecision sha256 request (.allow context grant digest) ↔
      validateRequestScope request context = .ok () ∧ isLowercaseSha256 digest ∧
      canonicalGrant grant = .ok grant ∧
      decisionDigest sha256 request (.allow context grant "") = .ok digest := by
  simp only [verifyDecision]
  cases hscope : validateRequestScope request context with
  | error e => exact iff_of_false Bool.false_ne_true fun h => nomatch h.1
  | ok _ =>
    by_cases hlower : isLowercaseSha256 digest
    · rw [if_neg (by rw [hlower]; exact Bool.false_ne_true)]
      cases hcanonical : canonicalGrant grant with
      | error e => exact iff_of_false Bool.false_ne_true fun h => nomatch h.2.2.1
      | ok canonical =>
        by_cases hsame : canonical = grant
        · subst hsame
          simp only [ne_eq, not_true_eq_false, if_false]
          cases hdigest : decisionDigest sha256 request (.allow context canonical "") with
          | error e => exact iff_of_false Bool.false_ne_true fun h => nomatch h.2.2.2
          | ok expected =>
            simp only [beq_iff_eq]
            constructor
            · rintro rfl
              exact ⟨trivial, hlower, trivial, rfl⟩
            · intro h
              exact (Except.ok.inj h.2.2.2).symm
        · simp only [ne_eq, hsame, not_false_eq_true, if_true]
          exact iff_of_false Bool.false_ne_true fun h => hsame (Except.ok.inj h.2.2.1)
    · rw [if_pos (by rw [Bool.eq_false_iff.mpr hlower, Bool.not_false, Bool.or_true])]
      exact iff_of_false Bool.false_ne_true fun h => hlower h.2.1

/-- A decision verifies for a request exactly when it is issued for it. -/
theorem verifyDecision_iff_issued {sha256 : Sha256} {request : AuthorizationRequestV1}
    {context : AuthContextV1} {grant : GrantV1} {digest : String} :
    verifyDecision sha256 request (.allow context grant digest) ↔
      ∃ context' grant', allowDecision sha256 request context' grant' =
        .ok (.allow context grant digest) := by
  rw [verifyDecision_eq_true]
  constructor
  · rintro ⟨hscope, -, hcanonical, hdigest⟩
    exact ⟨context, grant, allowDecision_eq_ok.mpr ⟨rfl, hscope, hcanonical, hdigest⟩⟩
  · rintro ⟨context', grant', h⟩
    obtain ⟨rfl, hscope, hcanonical, hdigest⟩ := allowDecision_eq_ok.mp h
    refine ⟨hscope, ?_, canonicalGrant_idempotent hcanonical, hdigest⟩
    unfold decisionDigest at hdigest
    obtain ⟨bytes, -, hdigest⟩ := bind_eq_ok.mp hdigest
    cases hdigest
    exact isLowercaseSha256_hexDigest sha256 bytes

/-! ## What the digest binds -/

def CapabilityV1.all : List CapabilityV1 :=
  [.agentDefinitionValidate, .agentDefinitionGet, .agentDefinitionList, .agentDefinitionRegister,
    .agentInvoke, .workflowValidate, .workflowStart, .workflowGet, .workflowList, .workflowCancel,
    .evaluationValidate, .evaluationEvaluate, .evaluationGet, .observabilityTelemetryQuery,
    .observabilityTelemetryStatus, .memoryRemember, .memoryRecall, .memorySearch, .memoryForget,
    .memoryStatus]

theorem CapabilityV1.mem_all (capability : CapabilityV1) : capability ∈ CapabilityV1.all := by
  cases capability <;> decide

theorem CapabilityV1.asStr_injective : Function.Injective CapabilityV1.asStr := by
  have hnodup : (CapabilityV1.all.map CapabilityV1.asStr).Nodup := by decide +kernel
  intro a b h
  exact List.inj_on_of_nodup_map hnodup a.mem_all b.mem_all h

/-- The bytes of two requests in one context differ in the capability alone. -/
theorem capability_eq_of_canonicalBytes {r₁ r₂ : AuthorizationRequestV1} {context : AuthContextV1}
    {grant : GrantV1} {digest : String} {bytes : Bytes}
    (h₁ : decisionCanonicalBytes r₁ (.allow context grant digest) = .ok bytes)
    (h₂ : decisionCanonicalBytes r₂ (.allow context grant digest) = .ok bytes) :
    r₁.capability = r₂.capability := by
  unfold decisionCanonicalBytes at h₁ h₂
  obtain ⟨⟨⟩, -, h₁⟩ := bind_eq_ok.mp h₁
  obtain ⟨⟨⟩, -, h₂⟩ := bind_eq_ok.mp h₂
  obtain ⟨canonical, hcanonical, h₁⟩ := bind_eq_ok.mp h₁
  obtain ⟨canonical', hcanonical', h₂⟩ := bind_eq_ok.mp h₂
  rw [hcanonical] at hcanonical'
  cases hcanonical'
  rw [← h₂] at h₁
  have hfields := fields_injective (List.append_cancel_right (Except.ok.inj h₁))
  simp only [List.cons.injEq, true_and, and_true] at hfields
  exact CapabilityV1.asStr_injective hfields.2.2

/-- A decision verifies exactly for the requests it is issued for, and for no two of them unless
the digest collides. -/
theorem verifyDecision_sound (sha256 : Sha256) (context : AuthContextV1) (grant : GrantV1)
    (digest : String) :
    (∀ request, verifyDecision sha256 request (.allow context grant digest) ↔
      ∃ context' grant', allowDecision sha256 request context' grant' =
        .ok (.allow context grant digest)) ∧
    ∀ r₁ r₂, (∀ x y, decisionCanonicalBytes r₁ (.allow context grant digest) = .ok x →
        decisionCanonicalBytes r₂ (.allow context grant digest) = .ok y →
        sha256.digest x = sha256.digest y → x = y) →
      verifyDecision sha256 r₁ (.allow context grant digest) →
      verifyDecision sha256 r₂ (.allow context grant digest) → r₁ = r₂ := by
  refine ⟨fun request => verifyDecision_iff_issued, fun r₁ r₂ hcollision h₁ h₂ => ?_⟩
  obtain ⟨hscope₁, -, -, hdigest₁⟩ := verifyDecision_eq_true.mp h₁
  obtain ⟨hscope₂, -, -, hdigest₂⟩ := verifyDecision_eq_true.mp h₂
  unfold decisionDigest at hdigest₁ hdigest₂
  obtain ⟨x, hx, hdigest₁⟩ := bind_eq_ok.mp hdigest₁
  obtain ⟨y, hy, hdigest₂⟩ := bind_eq_ok.mp hdigest₂
  have hsame := Sha256.hexDigest_eq_iff.mp (Except.ok.inj (hdigest₁.trans hdigest₂.symm))
  cases hcollision x y hx hy hsame
  have hcapability := capability_eq_of_canonicalBytes hx hy
  -- The other two fields are compared with the context, which is the same one.
  obtain ⟨hrequest₁, hcorrelation₁⟩ := validateRequestScope_eq_ok.mp hscope₁
  obtain ⟨hrequest₂, hcorrelation₂⟩ := validateRequestScope_eq_ok.mp hscope₂
  obtain ⟨request₁, correlation₁, capability₁⟩ := r₁
  obtain ⟨request₂, correlation₂, capability₂⟩ := r₂
  cases hrequest₁
  cases hrequest₂
  cases hcorrelation₁
  cases hcorrelation₂
  cases hcapability
  rfl

/-! ## A decision of the contract tests -/

def goldenRequest : AuthorizationRequestV1 where
  requestId := ⟨"request-1", by decide +kernel⟩
  correlationId := ⟨"correlation", by decide +kernel⟩
  capability := .agentInvoke

def goldenContext : AuthContextV1 where
  tenantId := ⟨"tenant-a", by decide +kernel⟩
  principalId := ⟨"principal-a", by decide +kernel⟩
  requestId := goldenRequest.requestId
  correlationId := goldenRequest.correlationId

def goldenGrant : GrantV1 := ⟨["tool-a", "tool-b"], true, false, true, false⟩

def goldenBytes : Bytes :=
  utf8 ("16:auth-decision-v1\n8:tenant-a\n11:principal-a\n9:request-1\n11:correlation\n" ++
    "12:agent_invoke\n5:allow\n13:grant-present\n1:2\n6:tool-a\n6:tool-b\n" ++
    "4:true\n5:false\n4:true\n5:false\n")

/-- The digest of the contract tests at its own bytes. -/
def goldenSha256 : Sha256 := .ofTable [(goldenBytes,
  [0x87, 0x93, 0xf0, 0x7c, 0x25, 0x07, 0x47, 0x5c, 0x01, 0x80, 0x1c, 0x51, 0xd1, 0x79, 0x54, 0xb7,
    0xe6, 0x12, 0xdb, 0xb7, 0x58, 0x29, 0x1a, 0x63, 0xd7, 0x12, 0xba, 0x05, 0xcd, 0xcc, 0x5d, 0x09])]
  (by decide)

def goldenDigest : String := "8793f07c2507475c01801c51d17954b7e612dbb758291a63d712ba05cdcc5d09"

theorem verifyDecision_sound_golden :
    verifyDecision goldenSha256 goldenRequest (.allow goldenContext goldenGrant goldenDigest) ∧
    (∃ context' grant', allowDecision goldenSha256 goldenRequest context' grant' =
      .ok (.allow goldenContext goldenGrant goldenDigest)) ∧
    ¬verifyDecision goldenSha256 { goldenRequest with capability := .workflowStart }
      (.allow goldenContext goldenGrant goldenDigest) := by
  have hverified : verifyDecision goldenSha256 goldenRequest
      (.allow goldenContext goldenGrant goldenDigest) := by decide +kernel
  have hsound := verifyDecision_sound goldenSha256 goldenContext goldenGrant goldenDigest
  refine ⟨hverified, (hsound.1 goldenRequest).mp hverified, fun hother => ?_⟩
  have hcollision : ∀ x y, decisionCanonicalBytes goldenRequest
      (.allow goldenContext goldenGrant goldenDigest) = .ok x →
      decisionCanonicalBytes { goldenRequest with capability := .workflowStart }
        (.allow goldenContext goldenGrant goldenDigest) = .ok y →
      goldenSha256.digest x = goldenSha256.digest y → x = y := by
    intro x y hx hy hxy
    have hx' : x = goldenBytes := Except.ok.inj (hx.symm.trans (by decide +kernel))
    have hdiffer : goldenSha256.digest y = List.replicate 32 0 := by
      have hmap : (decisionCanonicalBytes { goldenRequest with capability := .workflowStart }
          (.allow goldenContext goldenGrant goldenDigest)).map goldenSha256.digest =
            .ok (List.replicate 32 0) := by decide +kernel
      rw [hy] at hmap
      exact Except.ok.inj hmap
    rw [hx', hdiffer] at hxy
    exact absurd hxy (by decide +kernel)
  cases hsound.2 _ _ hcollision hverified hother

end RustFactory.Auth
