import RustFactory.Policy.Canonical

/-!
# Policy: verifying a decision

The MCP adapters do not trust the decision that a resolver returns: they compute its digest again, for
the context and the capability at hand and for the canonical form of the grant.  `Verifies` says which
decisions pass, and `verifies_inj` what this binds.
-/

namespace RustFactory.Policy

open RustFactory.Lib

/-! ## Valid grants -/

/-- The tools are identifiers, and there are not too many different ones. -/
structure GrantV1.Valid (grant : GrantV1) : Prop where
  limit : (BTreeMap.distinct grant.allowedToolIds).length ≤ maxToolIds
  tools : ∀ id ∈ grant.allowedToolIds, isToolId id

/-- The grant with its tools in order and without repetition. -/
def GrantV1.canonical (grant : GrantV1) : GrantV1 :=
  { grant with allowedToolIds := BTreeMap.distinct grant.allowedToolIds }

theorem GrantV1.content_canonical (grant : GrantV1) : grant.canonical.content = grant.content := by
  unfold GrantV1.content GrantV1.canonical
  rw [GrantContent.mk.injEq]
  refine ⟨?_, rfl, rfl, rfl, rfl⟩
  ext id
  rw [List.mem_toFinset, List.mem_toFinset, BTreeMap.mem_distinct]

theorem any_not_isToolId {tools : List String} :
    (tools.any fun id => !isToolId id) ↔ ¬∀ id ∈ tools, isToolId id := by
  rw [List.any_eq_true]
  push Not
  simp only [Bool.not_eq_true', ne_eq, Bool.not_eq_true]

theorem canonicalGrant_iff {grant canonical : GrantV1} :
    canonicalGrant grant = .ok canonical ↔ grant.Valid ∧ canonical = grant.canonical := by
  have hany : ((BTreeMap.distinct grant.allowedToolIds).any fun id => !isToolId id) ↔
      ¬∀ id ∈ grant.allowedToolIds, isToolId id := by
    rw [any_not_isToolId]
    simp only [BTreeMap.mem_distinct]
  constructor
  · intro h
    refine ⟨?_, canonicalGrant_eq_ok h⟩
    unfold canonicalGrant GrantV1.new at h
    obtain ⟨tools, htools, -⟩ := bind_eq_ok.mp h
    unfold canonicalTools at htools
    split_ifs at htools with hlimit htool
    exact ⟨Nat.not_lt.mp hlimit, not_not.mp (hany.not.mp htool)⟩
  · rintro ⟨⟨hlimit, htools⟩, rfl⟩
    have htool : ¬(BTreeMap.distinct grant.allowedToolIds).any fun id => !isToolId id :=
      hany.not.mpr (not_not.mpr htools)
    unfold canonicalGrant GrantV1.new canonicalTools validateGrant
    rw [if_neg (Nat.not_lt.mpr hlimit), if_neg htool, ok_bind]
    dsimp only
    rw [if_neg (Nat.not_lt.mpr hlimit), if_neg htool]
    rfl

theorem GrantV1.canonical_canonical (grant : GrantV1) : grant.canonical.canonical = grant.canonical := by
  unfold GrantV1.canonical
  rw [BTreeMap.distinct_eq_iff.mpr fun id => BTreeMap.mem_distinct]

theorem GrantV1.Valid.canonical {grant : GrantV1} (h : grant.Valid) : grant.canonical.Valid := by
  have hmem : ∀ id, id ∈ grant.canonical.allowedToolIds ↔ id ∈ grant.allowedToolIds :=
    fun id => BTreeMap.mem_distinct
  refine ⟨?_, fun id hid => h.tools id ((hmem id).mp hid)⟩
  rw [BTreeMap.distinct_eq_iff.mpr hmem]
  exact h.limit

/-! ## Verification -/

/-- The check that the adapters share.  Each of them has its own errors: `refused` where the policy
denies, `failed` where the decision does not verify. -/
def checkDecision {ε : Type} (failed refused : ε) (sha256 : Sha256)
    (request : AuthorizationRequestV1) : AuthorizationDecisionV1 → Except ε (GrantV1 × String)
  | .deny _ => .error refused
  | .allow effectiveGrant supplied => do
    let grant ← (canonicalGrant effectiveGrant).mapError fun _ => failed
    let expected ← (decisionDigest sha256 request (.allow grant "")).mapError fun _ => failed
    if supplied ≠ expected then .error failed else .ok (grant, supplied)

/-- An allowing decision whose grant is valid and whose digest is that of exactly the request and the
canonical form of the grant. -/
def Verifies (sha256 : Sha256) (request : AuthorizationRequestV1)
    (decision : AuthorizationDecisionV1) : Prop :=
  ∃ effectiveGrant digest, decision = .allow effectiveGrant digest ∧ effectiveGrant.Valid ∧
    decisionDigest sha256 request (.allow effectiveGrant.canonical "") = .ok digest

theorem checkDecision_eq_ok {ε : Type} {failed refused : ε} {sha256 : Sha256}
    {request : AuthorizationRequestV1} {decision : AuthorizationDecisionV1} {grant : GrantV1}
    {digest : String} :
    checkDecision failed refused sha256 request decision = .ok (grant, digest) ↔
      ∃ effectiveGrant, decision = .allow effectiveGrant digest ∧ effectiveGrant.Valid ∧
        grant = effectiveGrant.canonical ∧
        decisionDigest sha256 request (.allow effectiveGrant.canonical "") = .ok digest := by
  cases decision with
  | deny reason => exact iff_of_false nofun fun ⟨_, h, _⟩ => nomatch h
  | allow effectiveGrant supplied =>
    unfold checkDecision
    simp only [bind_eq_ok, mapError_eq_ok, canonicalGrant_iff]
    constructor
    · rintro ⟨canonical, ⟨hvalid, rfl⟩, expected, hexpected, h⟩
      split_ifs at h with hdigest
      cases h
      rw [not_not] at hdigest
      exact ⟨effectiveGrant, rfl, hvalid, rfl, hdigest ▸ hexpected⟩
    · rintro ⟨effectiveGrant', heq, hvalid, rfl, hexpected⟩
      cases heq
      refine ⟨_, ⟨hvalid, rfl⟩, digest, hexpected, ?_⟩
      rw [if_neg (not_not.mpr rfl)]

/-- The decisions that the policy issues verify. -/
theorem verifies_of_allowDecision {sha256 : Sha256} {request : AuthorizationRequestV1}
    {effectiveGrant : GrantV1} {decision : AuthorizationDecisionV1}
    (h : allowDecision sha256 request effectiveGrant = .ok decision) :
    Verifies sha256 request decision := by
  unfold allowDecision at h
  obtain ⟨canonical, hcanonical, h⟩ := bind_eq_ok.mp h
  obtain ⟨digest, hdigest, h⟩ := bind_eq_ok.mp h
  cases h
  obtain ⟨hvalid, rfl⟩ := canonicalGrant_iff.mp hcanonical
  refine ⟨_, digest, rfl, hvalid.canonical, ?_⟩
  rw [GrantV1.canonical_canonical]
  exact hdigest

theorem not_verifies_of_error {ε : Type} {failed refused e : ε} {sha256 : Sha256}
    {request : AuthorizationRequestV1} {decision : AuthorizationDecisionV1}
    (h : checkDecision failed refused sha256 request decision = .error e) :
    ¬Verifies sha256 request decision := by
  rintro ⟨effectiveGrant, digest, rfl, hvalid, hdigest⟩
  rw [checkDecision_eq_ok.mpr ⟨effectiveGrant, rfl, hvalid, rfl, hdigest⟩] at h
  cases h

/-- A gate with one error for everything tells nothing more. -/
theorem eq_of_checkDecision_error {ε : Type} {e e' : ε} {sha256 : Sha256}
    {request : AuthorizationRequestV1} {decision : AuthorizationDecisionV1}
    (h : checkDecision e e sha256 request decision = .error e') : e' = e := by
  cases decision with
  | deny reason =>
    cases h
    rfl
  | allow effectiveGrant supplied =>
    rcases bind_eq_error.mp h with h | ⟨grant, -, h⟩
    · exact eq_of_mapError_const h
    rcases bind_eq_error.mp h with h | ⟨expected, -, h⟩
    · exact eq_of_mapError_const h
    split_ifs at h
    cases h
    rfl

theorem verifies_of_ok {ε : Type} {failed refused : ε} {sha256 : Sha256}
    {request : AuthorizationRequestV1} {decision : AuthorizationDecisionV1} {grant : GrantV1}
    {digest : String} (h : checkDecision failed refused sha256 request decision = .ok (grant, digest)) :
    Verifies sha256 request decision := by
  obtain ⟨effectiveGrant, rfl, hvalid, -, hdigest⟩ := checkDecision_eq_ok.mp h
  exact ⟨effectiveGrant, digest, rfl, hvalid, hdigest⟩

theorem decisionDigest_eq_ok {sha256 : Sha256} {request : AuthorizationRequestV1} {grant : GrantV1}
    {digest : String} (h : decisionDigest sha256 request (.allow grant "") = .ok digest) :
    ∃ bytes, decisionCanonicalBytes request (.allow grant "") = .ok bytes ∧
      digest = sha256.hexDigest bytes := by
  unfold decisionDigest at h
  obtain ⟨bytes, hbytes, h⟩ := bind_eq_ok.mp h
  cases h
  exact ⟨bytes, hbytes, rfl⟩

/-- One digest verifies two allowing decisions only if they say the same, unless it collides. -/
theorem verifies_inj {sha256 : Sha256} {request request' : AuthorizationRequestV1}
    {grant grant' : GrantV1} {digest : String}
    (hcollision : ∀ x y, decisionCanonicalBytes request (.allow grant.canonical "") = .ok x →
      decisionCanonicalBytes request' (.allow grant'.canonical "") = .ok y →
      sha256.digest x = sha256.digest y → x = y)
    (h : Verifies sha256 request (.allow grant digest))
    (h' : Verifies sha256 request' (.allow grant' digest)) :
    request = request' ∧ grant.content = grant'.content := by
  obtain ⟨_, _, heq, -, hdigest⟩ := h
  obtain ⟨_, _, heq', -, hdigest'⟩ := h'
  cases heq
  cases heq'
  obtain ⟨x, hx, hdigest⟩ := decisionDigest_eq_ok hdigest
  obtain ⟨y, hy, hdigest'⟩ := decisionDigest_eq_ok hdigest'
  have hxy := hcollision x y hx hy (Sha256.hexDigest_eq_iff.mp (hdigest.symm.trans hdigest'))
  have hcontent := (canonicalBytes_bind_content
    (show (Document.decision request (.allow grant.canonical "")).canonicalBytes = .ok x from hx)
    (show (Document.decision request' (.allow grant'.canonical "")).canonicalBytes = .ok y from hy)).mp
      hxy
  unfold Document.content at hcontent
  rw [Content.allow.injEq, GrantV1.content_canonical, GrantV1.content_canonical] at hcontent
  exact hcontent

end RustFactory.Policy
