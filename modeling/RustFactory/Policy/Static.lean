import RustFactory.Lib.Records
import RustFactory.Policy.Gate

/-!
# Policy: static grants

A resolver over a fixed list of grants, one for each tenant, principal and capability.  `Acceptable`
says which lists it accepts and `Holds` what it keeps of one; its answers follow from the two.
-/

namespace RustFactory.Policy

open RustFactory.Lib

def maxStaticGrantRecords : ℕ := 1024

/-- Whom a record is for, and for what. -/
structure GrantKeyV1 where
  tenantId : TenantId
  principalId : PrincipalId
  capability : CapabilityV1
  deriving DecidableEq

/-- A key as the tuple that orders it. -/
def GrantKeyV1.toTuple (key : GrantKeyV1) : String ×ₗ String ×ₗ ℕ :=
  toLex (key.tenantId.asStr, toLex (key.principalId.asStr, key.capability.ctorIdx))

theorem CapabilityV1.ctorIdx_injective : Function.Injective CapabilityV1.ctorIdx := by
  have hnodup : (CapabilityV1.all.map CapabilityV1.ctorIdx).Nodup := by decide
  intro a b h
  exact List.inj_on_of_nodup_map hnodup a.mem_all b.mem_all h

theorem GrantKeyV1.toTuple_injective : Function.Injective GrantKeyV1.toTuple := by
  rintro ⟨t, p, c⟩ ⟨t', p', c'⟩ h
  simp only [toTuple, EmbeddingLike.apply_eq_iff_eq, Prod.mk.injEq, LogicalId.asStr_injective.eq_iff,
    CapabilityV1.ctorIdx_injective.eq_iff] at h
  obtain ⟨rfl, rfl, rfl⟩ := h
  rfl

instance : LinearOrder GrantKeyV1 :=
  LinearOrder.lift' GrantKeyV1.toTuple GrantKeyV1.toTuple_injective

/-- Why records are refused. -/
inductive StaticPolicyResolverError where
  | duplicateGrantKey
  | invalidGrant (error : PolicyError)
  | limitExceeded
  deriving DecidableEq

/-- A policy of fixed grants. -/
structure StaticPolicyResolver where
  grants : BTreeMap GrantKeyV1 GrantV1

namespace StaticPolicyResolver

/-- The body of the loop over the records. -/
def insertGrant (resolvedGrants : BTreeMap GrantKeyV1 GrantV1) (record : GrantKeyV1 × GrantV1) :
    Except StaticPolicyResolverError (BTreeMap GrantKeyV1 GrantV1) :=
  if maxStaticGrantRecords ≤ resolvedGrants.size then .error .limitExceeded
  else do
    let grant ← (canonicalGrant record.2).mapError .invalidGrant
    if resolvedGrants.contains record.1 then .error .duplicateGrantKey
    else .ok (resolvedGrants.insert record.1 grant)

/-- A resolver with the given records, no two of one key. -/
def new (grants : List (GrantKeyV1 × GrantV1)) :
    Except StaticPolicyResolverError StaticPolicyResolver := do
  let resolvedGrants ← grants.foldlM insertGrant ∅
  .ok ⟨resolvedGrants⟩

/-- The key that a request is looked up under. -/
def requestKey (request : AuthorizationRequestV1) : GrantKeyV1 :=
  ⟨request.context.tenantId, request.context.principalId, request.capability⟩

def authorize (sha256 : Sha256) (resolver : StaticPolicyResolver)
    (request : AuthorizationRequestV1) : AuthorizationDecisionV1 :=
  (resolver.grants[requestKey request]?.bind fun grant =>
    (allowDecision sha256 request grant).toOption).getD denyDecision

/-! ## Accepted records -/

/-- The records are few enough, valid, and have different keys. -/
structure Acceptable (records : List (GrantKeyV1 × GrantV1)) : Prop where
  count : records.length ≤ maxStaticGrantRecords
  valid : ∀ record ∈ records, record.2.Valid
  distinct : (records.map Prod.fst).Nodup

/-- The map holds the canonical grant of each record. -/
abbrev Holds (records : List (GrantKeyV1 × GrantV1)) (m : BTreeMap GrantKeyV1 GrantV1) : Prop :=
  BTreeMap.Indexes Prod.fst (fun record => record.2.canonical) records m

/-- One record is inserted exactly where there is room, its grant is valid and its key is new. -/
theorem insertGrant_eq_ok {m m' : BTreeMap GrantKeyV1 GrantV1} {record : GrantKeyV1 × GrantV1} :
    insertGrant m record = .ok m' ↔ m.size < maxStaticGrantRecords ∧ record.2.Valid ∧
      m.contains record.1 = false ∧ m' = m.insert record.1 record.2.canonical := by
  unfold insertGrant
  by_cases hfull : maxStaticGrantRecords ≤ m.size
  · rw [if_pos hfull]
    exact iff_of_false nofun fun h => absurd h.1 (Nat.not_lt.mpr hfull)
  · rw [if_neg hfull, and_iff_right (Nat.not_le.mp hfull)]
    simp only [bind_eq_ok, mapError_eq_ok, canonicalGrant_iff]
    constructor
    · rintro ⟨grant, ⟨hvalid, rfl⟩, h⟩
      split_ifs at h with hcontains
      exact ⟨hvalid, Bool.not_eq_true _ ▸ hcontains, (Except.ok.inj h).symm⟩
    · rintro ⟨hvalid, hcontains, rfl⟩
      refine ⟨_, ⟨hvalid, rfl⟩, ?_⟩
      rw [hcontains]
      rfl

theorem foldlM_insertGrant {records : List (GrantKeyV1 × GrantV1)}
    {m : BTreeMap GrantKeyV1 GrantV1} :
    records.foldlM insertGrant ∅ = .ok m ↔ Acceptable records ∧ Holds records m := by
  induction records using List.reverseRecOn generalizing m with
  | nil =>
    rw [List.foldlM_nil]
    constructor
    · intro h
      obtain rfl := Except.ok.inj h
      exact ⟨⟨Nat.zero_le _, nofun, List.nodup_nil⟩, .empty⟩
    · rintro ⟨-, h⟩
      rw [h.unique .empty]
      rfl
  | append_singleton records record ih =>
    rw [List.foldlM_append, bind_eq_ok]
    simp only [List.foldlM_cons, List.foldlM_nil, bind_pure, insertGrant_eq_ok, ih]
    constructor
    · rintro ⟨before, ⟨⟨hcount, hvalid, hdistinct⟩, hholds⟩, hroom, hrecord, hcontains, rfl⟩
      obtain ⟨hfresh, hnext⟩ :=
        (BTreeMap.indexes_concat_iff hdistinct).mpr ⟨before, hholds, hcontains, rfl⟩
      refine ⟨⟨?_, ?_, ?_⟩, hnext⟩
      · rw [List.length_append, List.length_singleton, ← hholds.size]
        exact hroom
      · rw [List.forall_mem_append, List.forall_mem_singleton]
        exact ⟨hvalid, hrecord⟩
      · rw [List.map_append, List.map_singleton, ← List.concat_eq_append, List.nodup_concat]
        exact ⟨hfresh, hdistinct⟩
    · rintro ⟨⟨hcount, hvalid, hdistinct⟩, hholds⟩
      rw [List.length_append, List.length_singleton] at hcount
      rw [List.forall_mem_append, List.forall_mem_singleton] at hvalid
      rw [List.map_append, List.map_singleton, ← List.concat_eq_append, List.nodup_concat]
        at hdistinct
      obtain ⟨before, hbefore, hcontains, hinsert⟩ :=
        (BTreeMap.indexes_concat_iff hdistinct.2).mp ⟨hdistinct.1, hholds⟩
      refine ⟨before, ⟨⟨by omega, hvalid.1, hdistinct.2⟩, hbefore⟩, ?_, hvalid.2, hcontains, hinsert⟩
      rw [hbefore.size]
      omega

theorem new_eq_ok {records : List (GrantKeyV1 × GrantV1)} {resolver : StaticPolicyResolver} :
    new records = .ok resolver ↔ Acceptable records ∧ Holds records resolver.grants := by
  rw [← foldlM_insertGrant]
  unfold new
  rw [bind_eq_ok]
  constructor
  · rintro ⟨m, hm, h⟩
    obtain rfl := Except.ok.inj h
    exact hm
  · exact fun h => ⟨_, h, rfl⟩

theorem new_of_perm {records records' : List (GrantKeyV1 × GrantV1)}
    {resolver : StaticPolicyResolver} (h : new records = .ok resolver)
    (hperm : records'.Perm records) : new records' = .ok resolver := by
  obtain ⟨⟨hcount, hvalid, hdistinct⟩, hsize, hlookup⟩ := new_eq_ok.mp h
  refine new_eq_ok.mpr ⟨⟨?_, fun record hmem => hvalid record (hperm.mem_iff.mp hmem), ?_⟩, ?_,
    fun key grant => ?_⟩
  · rwa [hperm.length_eq]
  · exact (hperm.map Prod.fst).nodup_iff.mpr hdistinct
  · rw [hsize, hperm.length_eq]
  · rw [hlookup]
    simp only [hperm.mem_iff]

/-! ## Decisions -/

/-- A canonical grant is allowed, with the digest of the decision. -/
theorem allowDecision_canonical (sha256 : Sha256) (request : AuthorizationRequestV1)
    {grant : GrantV1} (h : grant.Valid) :
    ∃ bytes, allowDecision sha256 request grant.canonical =
        .ok (.allow grant.canonical (sha256.hexDigest bytes)) ∧
      ∀ supplied, decisionDigest sha256 request (.allow grant.canonical supplied) =
        .ok (sha256.hexDigest bytes) := by
  have hcanonical : canonicalGrant grant.canonical = .ok grant.canonical :=
    canonicalGrant_iff.mpr ⟨h.canonical, grant.canonical_canonical.symm⟩
  obtain ⟨bytes, hbytes⟩ : ∃ bytes, ∀ supplied,
      decisionCanonicalBytes request (.allow grant.canonical supplied) = .ok bytes := by
    unfold decisionCanonicalBytes
    simp only [hcanonical, ok_bind]
    exact ⟨_, fun _ => rfl⟩
  have hdigest : ∀ supplied, decisionDigest sha256 request (.allow grant.canonical supplied) =
      .ok (sha256.hexDigest bytes) := by
    intro supplied
    unfold decisionDigest
    rw [hbytes, ok_bind]
  refine ⟨bytes, ?_, hdigest⟩
  unfold allowDecision
  rw [hcanonical, ok_bind, hdigest, ok_bind]

theorem authorize_of_record (sha256 : Sha256) {records : List (GrantKeyV1 × GrantV1)}
    {resolver : StaticPolicyResolver} (h : new records = .ok resolver)
    {request : AuthorizationRequestV1} {grant : GrantV1}
    (hrecord : (requestKey request, grant) ∈ records) :
    ∃ bytes, resolver.authorize sha256 request =
        .allow grant.canonical (sha256.hexDigest bytes) ∧
      ∀ supplied, decisionDigest sha256 request (.allow grant.canonical supplied) =
        .ok (sha256.hexDigest bytes) := by
  obtain ⟨hacceptable, hholds⟩ := new_eq_ok.mp h
  have hlookup : resolver.grants[requestKey request]? = some grant.canonical :=
    (hholds.lookup _ _).mpr ⟨_, hrecord, rfl, rfl⟩
  obtain ⟨bytes, hallow, hdigest⟩ :=
    allowDecision_canonical sha256 request (hacceptable.valid _ hrecord)
  refine ⟨bytes, ?_, hdigest⟩
  unfold authorize
  rw [hlookup, Option.bind_some, hallow]
  rfl

theorem authorize_of_no_record (sha256 : Sha256) {records : List (GrantKeyV1 × GrantV1)}
    {resolver : StaticPolicyResolver} (h : new records = .ok resolver)
    {request : AuthorizationRequestV1}
    (hrecord : ¬∃ grant, (requestKey request, grant) ∈ records) :
    resolver.authorize sha256 request = denyDecision := by
  obtain ⟨-, hholds⟩ := new_eq_ok.mp h
  have hlookup : resolver.grants[requestKey request]? = none := by
    refine Option.eq_none_iff_forall_ne_some.mpr fun grant hgrant => ?_
    obtain ⟨⟨key, held⟩, hmem, rfl, -⟩ := (hholds.lookup _ _).mp hgrant
    exact hrecord ⟨held, hmem⟩
  unfold authorize
  rw [hlookup]
  rfl

end StaticPolicyResolver

end RustFactory.Policy
