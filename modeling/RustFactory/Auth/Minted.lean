import RustFactory.Auth.Biscuit
import RustFactory.Lib.Text

/-!
# Auth: what a minted token authorizes

The facts of a minted token are listed once, by `mintedFacts`.  Their number stays under every
ceiling of the resolver, so a minted token is refused for its length alone: one of at most
`maxTokenBytes` bytes gives back the identity, the capabilities and the canonical grant it was
minted with, and a longer one gives nothing.
-/

namespace RustFactory.Auth

open Lib

variable {lib : BiscuitAuth}

/-! ## The library -/

/-- A fact of one string. -/
def stringFact (name value : String) : Fact := fact name [string value]

/-- The fact `time` adds. -/
def timeFact (now : ℕ) : Fact := fact "time" [.date now]

/-- The strings among the terms of a fact. -/
def Fact.strings (fact : Fact) : List String :=
  fact.terms.filterMap fun
    | .str value => some value
    | _ => none

/-- The distinct strings of facts. -/
def carriedStrings (facts : List Fact) : List String :=
  BTreeMap.distinct (facts.flatMap Fact.strings)

namespace BiscuitAuth

/-- A token of one block, with these facts and no rule or check. -/
structure Carries (lib : BiscuitAuth) (biscuit : lib.Biscuit) (facts : List Fact) : Prop where
  blockCount : lib.blockCount biscuit = 1
  authority : lib.authority biscuit = .ok ⟨facts, [], []⟩

/-- The states of an authorizer as it is run and queried. -/
inductive Reaches (lib : BiscuitAuth) (start : lib.Authorizer) : lib.Authorizer → Prop where
  | built : Reaches lib start start
  | authorized {authorizer : lib.Authorizer} (h : Reaches lib start authorizer) :
    Reaches lib start (lib.authorize authorizer).2
  | queried {authorizer : lib.Authorizer} (h : Reaches lib start authorizer) (rule : String) :
    Reaches lib start (lib.query authorizer rule).2

/-- The answer to a query for the values of one predicate, in any order. -/
def Answers (lib : BiscuitAuth) (authorizer : lib.Authorizer) (rule name : String)
    (facts : List Fact) : Prop :=
  ∃ rows, (lib.query authorizer rule).1 = .ok rows ∧
    ∀ value, value ∈ rows ↔ stringFact name value ∈ facts

/-- An authorizer over the facts of an authority block: it loads each of them once beside the time,
and its policy and its queries read them. -/
structure Evaluates (lib : BiscuitAuth) (start : lib.Authorizer) (now : ℕ) (wire : String)
    (facts : List Fact) : Prop where
  nodup : (lib.dump start).facts.Nodup
  loaded : ∀ fact ∈ (lib.dump start).facts, fact = timeFact now ∨ fact ∈ facts
  rules : (lib.dump start).rules = []
  checks : (lib.dump start).checks = []
  policy : ∀ authorizer, lib.Reaches start authorizer →
    ((lib.authorize authorizer).1.isOk ↔ stringFact "capability" wire ∈ facts)
  tools : ∀ authorizer, lib.Reaches start authorizer →
    lib.Answers authorizer toolRule "allowed_tool" facts
  grants : ∀ authorizer, lib.Reaches start authorizer →
    lib.Answers authorizer grantRule "grant" facts

/-- What the adapter relies on. -/
structure Faithful (lib : BiscuitAuth) : Prop where
  /-- What is signed verifies under the public key, with its facts. -/
  verifies : ∀ {root : lib.KeyPair} {facts : List Fact} {biscuit : lib.Biscuit} {raw : String},
    lib.build root facts = .ok biscuit → lib.toBase64 biscuit = .ok raw →
    ∃ verified, lib.fromBase64 raw (lib.publicKey root) = .ok verified ∧ lib.Carries verified facts
  /-- An evaluation within the limits does not time out. -/
  evaluates : ∀ {biscuit : lib.Biscuit} {facts : List Fact}, lib.Carries biscuit facts →
    (∀ fact ∈ facts, ∃ name value, fact = stringFact name value) →
    facts.dedup.length < datalogLimits.maxFacts → ∀ (now : ℕ) (capability : CapabilityV1),
    ∃ start, lib.authorizer datalogLimits now (allowPolicy capability.asStr) biscuit = .ok start ∧
      lib.Evaluates start now capability.asStr facts
  /-- A token holds every string of its facts. -/
  length : ∀ {root : lib.KeyPair} {facts : List Fact} {biscuit : lib.Biscuit} {raw : String},
    lib.build root facts = .ok biscuit → lib.toBase64 biscuit = .ok raw →
    ((carriedStrings facts).map byteLen).sum ≤ byteLen raw

end BiscuitAuth

/-! ## The facts of a minted token -/

section Facts

variable (tenantId : TenantId) (principalId : PrincipalId) (capabilities : List CapabilityV1)
  (grant : GrantV1)

/-- The names of the enabled flags. -/
def GrantV1.enabled (grant : GrantV1) : List String :=
  (grant.flags.filter fun flag => flag.1).map fun flag => flag.2

def mintedFacts : List Fact :=
  [stringFact "tenant" tenantId.asStr, stringFact "principal" principalId.asStr] ++
    capabilities.map (fun capability => stringFact "capability" capability.asStr) ++
    grant.allowedToolIds.map (stringFact "allowed_tool") ++ grant.enabled.map (stringFact "grant")

variable {tenantId principalId capabilities grant}

theorem facts_of_fact {builder builder' : BiscuitBuilder} {fact : Fact}
    (h : builder.fact lib fact = .ok builder') : builder'.facts = builder.facts ++ [fact] := by
  obtain ⟨⟨⟩, -, h⟩ := bind_eq_ok.mp h
  cases h
  rfl

/-- A loop of the builder appends the facts of its steps. -/
theorem facts_of_foldlM {α : Type} {f : BiscuitBuilder → α → Except lib.Error BiscuitBuilder}
    (g : α → List Fact) {xs : List α} {builder builder' : BiscuitBuilder}
    (h : xs.foldlM f builder = .ok builder')
    (hf : ∀ builder x builder', f builder x = .ok builder' → builder'.facts = builder.facts ++ g x) :
    builder'.facts = builder.facts ++ xs.flatMap g := by
  refine foldlM_invariant (P := fun xs next => next.facts = builder.facts ++ xs.flatMap g) h
    (List.append_nil _).symm fun done x c d hc hd => ?_
  rw [hf c x d hd, hc, List.flatMap_append, List.flatMap_singleton, List.append_assoc]

theorem flatMap_flags (flags : List (Bool × String)) :
    (flags.flatMap fun flag => if flag.1 then [stringFact "grant" flag.2] else []) =
      ((flags.filter fun flag => flag.1).map fun flag => flag.2).map (stringFact "grant") := by
  induction flags with
  | nil => rfl
  | cons flag flags ih =>
    rw [List.flatMap_cons, ih, List.filter_cons]
    by_cases hflag : flag.1
    · rw [if_pos hflag, if_pos hflag]
      rfl
    · rw [if_neg hflag, if_neg hflag]
      rfl

theorem mint_eq_ok {root : lib.KeyPair} {raw : String}
    (h : mint lib root tenantId principalId capabilities grant = .ok raw) :
    ∃ biscuit, lib.build root (mintedFacts tenantId principalId capabilities grant) = .ok biscuit ∧
      lib.toBase64 biscuit = .ok raw := by
  unfold mint at h
  obtain ⟨b₁, h₁, h⟩ := bind_eq_ok.mp h
  obtain ⟨b₂, h₂, h⟩ := bind_eq_ok.mp h
  obtain ⟨b₃, h₃, h⟩ := bind_eq_ok.mp h
  obtain ⟨b₄, h₄, h⟩ := bind_eq_ok.mp h
  obtain ⟨b₅, h₅, h⟩ := bind_eq_ok.mp h
  obtain ⟨biscuit, hbuild, h⟩ := bind_eq_ok.mp h
  refine ⟨biscuit, ?_, h⟩
  have hcapabilities := facts_of_foldlM
    (fun capability => [stringFact "capability" capability.asStr]) h₃
    fun _ _ _ hstep => facts_of_fact hstep
  have htools := facts_of_foldlM (fun toolId => [stringFact "allowed_tool" toolId]) h₄
    fun _ _ _ hstep => facts_of_fact hstep
  have hflags := facts_of_foldlM
    (fun flag => if flag.1 then [stringFact "grant" flag.2] else []) h₅ fun _ flag _ hstep => by
      by_cases hflag : flag.1
      · rw [if_pos hflag] at hstep ⊢
        exact facts_of_fact hstep
      · rw [if_neg hflag] at hstep ⊢
        cases hstep
        rw [List.append_nil]
  have hall : b₅.facts = mintedFacts tenantId principalId capabilities grant := by
    rw [hflags, htools, hcapabilities, facts_of_fact h₂, facts_of_fact h₁, flatMap_flags,
      ← List.map_eq_flatMap, ← List.map_eq_flatMap]
    rfl
  rw [← hall]
  exact hbuild

theorem foldlM_eq_ok {α : Type} {f : BiscuitBuilder → α → Except lib.Error BiscuitBuilder}
    (g : α → List Fact) (hf : ∀ builder x, f builder x = .ok ⟨builder.facts ++ g x⟩) (xs : List α)
    (builder : BiscuitBuilder) : xs.foldlM f builder = .ok ⟨builder.facts ++ xs.flatMap g⟩ := by
  induction xs generalizing builder with
  | nil =>
    rw [List.flatMap_nil, List.append_nil]
    rfl
  | cons x xs ih => rw [List.foldlM_cons, hf, ok_bind, ih, List.flatMap_cons, List.append_assoc]

theorem mint_of_validate {root : lib.KeyPair} (h : ∀ fact, lib.validate fact = .ok ()) :
    mint lib root tenantId principalId capabilities grant =
      lib.build root (mintedFacts tenantId principalId capabilities grant) >>= lib.toBase64 := by
  have hfact : ∀ (builder : BiscuitBuilder) f,
      builder.fact lib f = .ok ⟨builder.facts ++ [f]⟩ := by
    intro builder f
    unfold BiscuitBuilder.fact
    rw [h, ok_bind]
  have hcapabilities := foldlM_eq_ok (f := fun builder (capability : CapabilityV1) =>
      builder.fact lib (fact "capability" [string capability.asStr]))
    (fun capability => [stringFact "capability" capability.asStr]) fun builder _ => hfact builder _
  have htools := foldlM_eq_ok (f := fun builder toolId =>
      builder.fact lib (fact "allowed_tool" [string toolId]))
    (fun toolId => [stringFact "allowed_tool" toolId]) fun builder _ => hfact builder _
  have hflags := foldlM_eq_ok (f := fun builder (flag : Bool × String) =>
      if flag.1 then builder.fact lib (fact "grant" [string flag.2]) else .ok builder)
    (fun flag => if flag.1 then [stringFact "grant" flag.2] else []) fun builder flag => by
      by_cases hflag : flag.1
      · rw [if_pos hflag, if_pos hflag, hfact]
        rfl
      · rw [if_neg hflag, if_neg hflag, List.append_nil]
  unfold mint
  rw [hfact, ok_bind, hfact, ok_bind, hcapabilities, ok_bind, htools, ok_bind, hflags, ok_bind,
    flatMap_flags, ← List.map_eq_flatMap, ← List.map_eq_flatMap]
  rfl

theorem stringFact_inj {name value name' value' : String} :
    stringFact name value = stringFact name' value' ↔ name = name' ∧ value = value' := by
  simp only [stringFact, fact, string, Fact.mk.injEq, List.cons.injEq, Term.str.injEq, and_true]

theorem mem_mintedFacts {f : Fact} :
    f ∈ mintedFacts tenantId principalId capabilities grant ↔
      f = stringFact "tenant" tenantId.asStr ∨ f = stringFact "principal" principalId.asStr ∨
      (∃ capability ∈ capabilities, stringFact "capability" capability.asStr = f) ∨
      (∃ toolId ∈ grant.allowedToolIds, stringFact "allowed_tool" toolId = f) ∨
      ∃ name ∈ grant.enabled, stringFact "grant" name = f := by
  unfold mintedFacts
  simp only [List.mem_append, List.mem_cons, List.not_mem_nil, or_false, List.mem_map, or_assoc]

theorem capability_mem_mintedFacts {capability : CapabilityV1} :
    stringFact "capability" capability.asStr ∈
      mintedFacts tenantId principalId capabilities grant ↔ capability ∈ capabilities := by
  rw [mem_mintedFacts]
  simp only [stringFact_inj, String.reduceEq, false_and, false_or, true_and, and_false,
    exists_false, or_false]
  constructor
  · rintro ⟨listed, hlisted, heq⟩
    rwa [← CapabilityV1.asStr_injective heq]
  · intro h
    exact ⟨capability, h, rfl⟩

theorem tool_mem_mintedFacts {toolId : String} :
    stringFact "allowed_tool" toolId ∈ mintedFacts tenantId principalId capabilities grant ↔
      toolId ∈ grant.allowedToolIds := by
  rw [mem_mintedFacts]
  simp only [stringFact_inj, String.reduceEq, false_and, false_or, true_and, and_false,
    exists_false, or_false, exists_eq_right]

theorem grant_mem_mintedFacts {name : String} :
    stringFact "grant" name ∈ mintedFacts tenantId principalId capabilities grant ↔
      name ∈ grant.enabled := by
  rw [mem_mintedFacts]
  simp only [stringFact_inj, String.reduceEq, false_and, false_or, true_and, and_false,
    exists_false, exists_eq_right]

theorem stringFact_of_mem_mintedFacts :
    ∀ f ∈ mintedFacts tenantId principalId capabilities grant,
      ∃ name value, f = stringFact name value := by
  intro f hf
  rcases mem_mintedFacts.mp hf with rfl | rfl | ⟨capability, -, rfl⟩ | ⟨toolId, -, rfl⟩ |
    ⟨name, -, rfl⟩
  all_goals exact ⟨_, _, rfl⟩

/-- The distinct facts: two of the identity, one for a capability, a tool or a flag. -/
theorem length_le_of_nodup {facts : List Fact} (hnodup : facts.Nodup)
    (hfacts : ∀ f ∈ facts, f ∈ mintedFacts tenantId principalId capabilities grant) :
    facts.length ≤ 26 + grant.allowedToolIds.length := by
  have hsubset : facts ⊆ mintedFacts tenantId principalId CapabilityV1.all grant := by
    intro f hf
    rw [mem_mintedFacts]
    rcases mem_mintedFacts.mp (hfacts f hf) with h | h | ⟨capability, -, h⟩ | h | h
    · exact .inl h
    · exact .inr (.inl h)
    · exact .inr (.inr (.inl ⟨capability, capability.mem_all, h⟩))
    · exact .inr (.inr (.inr (.inl h)))
    · exact .inr (.inr (.inr (.inr h)))
  have hle := (hnodup.subperm hsubset).length_le
  have henabled : grant.enabled.length ≤ 4 := by
    unfold GrantV1.enabled
    rw [List.length_map]
    exact List.length_filter_le _ grant.flags
  have hall : CapabilityV1.all.length = 20 := rfl
  unfold mintedFacts at hle
  simp only [List.length_append, List.length_cons, List.length_nil, List.length_map] at hle
  omega

/-! ## The identity -/

theorem filter_map_of_ne {α : Type} {name : String} {g : α → Fact} (h : ∀ x, (g x).name ≠ name)
    (xs : List α) : (xs.map g).filter (fun f => f.name == name) = [] := by
  rw [List.filter_eq_nil_iff]
  intro f hf
  obtain ⟨x, -, rfl⟩ := List.mem_map.mp hf
  rw [beq_iff_eq]
  exact h x

theorem exactDirectStringFact_of_filter {facts : List Fact} {name value : String}
    (h : facts.filter (fun f => f.name == name) = [stringFact name value]) :
    exactDirectStringFact facts name = some value := by
  unfold exactDirectStringFact
  rw [h]
  rfl

theorem LogicalId.new_asStr {kind : IdKind} (id : LogicalId kind) :
    LogicalId.new kind id.asStr = .ok id := by
  unfold LogicalId.new
  rw [dif_pos id.valid]

theorem filter_mintedFacts {name : String} (hcapability : "capability" ≠ name)
    (htool : "allowed_tool" ≠ name) (hgrant : "grant" ≠ name) :
    (mintedFacts tenantId principalId capabilities grant).filter (fun f => f.name == name) =
      [stringFact "tenant" tenantId.asStr, stringFact "principal" principalId.asStr].filter
        (fun f => f.name == name) := by
  unfold mintedFacts
  rw [List.filter_append, List.filter_append, List.filter_append,
    filter_map_of_ne fun _ => hcapability, filter_map_of_ne fun _ => htool,
    filter_map_of_ne fun _ => hgrant, List.append_nil, List.append_nil, List.append_nil]

theorem directAuthorityIdentity_of_carries {biscuit : lib.Biscuit}
    (h : lib.Carries biscuit (mintedFacts tenantId principalId capabilities grant)) :
    directAuthorityIdentity lib biscuit = some (tenantId, principalId) := by
  have htenant : exactDirectStringFact (mintedFacts tenantId principalId capabilities grant)
      "tenant" = some tenantId.asStr :=
    exactDirectStringFact_of_filter (filter_mintedFacts (by decide) (by decide) (by decide))
  have hprincipal : exactDirectStringFact (mintedFacts tenantId principalId capabilities grant)
      "principal" = some principalId.asStr :=
    exactDirectStringFact_of_filter (filter_mintedFacts (by decide) (by decide) (by decide))
  unfold directAuthorityIdentity
  rw [h.authority]
  simp only [Except.toOption, Option.bind_eq_bind, Option.bind_some, htenant, hprincipal,
    LogicalId.new_asStr]

end Facts

/-! ## The grant -/

theorem valid_of_validateGrant {grant : GrantV1} (h : validateGrant grant = .ok ()) :
    grant.allowedToolIds.length ≤ maxToolIds ∧ ∀ id ∈ grant.allowedToolIds, isToolId id := by
  unfold validateGrant at h
  by_cases hlen : maxToolIds < grant.allowedToolIds.length
  · rw [if_pos hlen] at h
    cases h
  · rw [if_neg hlen] at h
    refine ⟨Nat.not_lt.mp hlen, fun id hid => ?_⟩
    by_contra hinvalid
    rw [if_pos (List.any_eq_true.mpr ⟨id, hid, by rw [Bool.eq_false_iff.mpr hinvalid]; rfl⟩)] at h
    cases h

theorem canonicalGrant_of_validateGrant {grant : GrantV1} (h : validateGrant grant = .ok ()) :
    ∃ canonical, canonicalGrant grant = .ok canonical := by
  obtain ⟨hlen, hids⟩ := valid_of_validateGrant h
  refine ⟨_, canonicalGrant_eq_ok.mpr ⟨rfl, ?_, ?_⟩⟩
  · exact (BTreeMap.length_distinct_le grant.allowedToolIds).trans hlen
  · intro id hid
    exact hids id (BTreeMap.mem_distinct.mp hid)

theorem mem_enabled {grant : GrantV1} {name : String} :
    name ∈ grant.enabled ↔ (true, name) ∈ grant.flags := by
  unfold GrantV1.enabled
  rw [List.mem_map]
  constructor
  · rintro ⟨⟨enabled, name⟩, hflag, rfl⟩
    obtain ⟨hflag, henabled⟩ := List.mem_filter.mp hflag
    cases henabled
    exact hflag
  · intro h
    exact ⟨(true, name), List.mem_filter.mpr ⟨h, rfl⟩, rfl⟩

theorem contains_flag {grant : GrantV1} {rows : List String} {name : String} {enabled : Bool}
    (hrows : ∀ value, value ∈ rows ↔ value ∈ grant.enabled)
    (hflag : (true, name) ∈ grant.flags ↔ enabled) :
    (Std.ExtTreeSet.ofList rows : BTreeMap.BTreeSet String).contains name = enabled := by
  rw [Std.ExtTreeSet.contains_ofList, Bool.eq_iff_iff, List.contains_iff_mem, hrows, mem_enabled,
    hflag]

/-- The grant read back from the rows of the two queries. -/
theorem grant_of_rows {grant : GrantV1} {toolRows grantRows : List String}
    (htools : ∀ value, value ∈ toolRows ↔ value ∈ grant.allowedToolIds)
    (hgrants : ∀ value, value ∈ grantRows ↔ value ∈ grant.enabled) :
    let grants : BTreeMap.BTreeSet String := .ofList grantRows
    GrantV1.new toolRows (grants.contains "memory") (grants.contains "knowledge")
      (grants.contains "sandbox") (grants.contains "communication") = canonicalGrant grant := by
  intro grants
  have hdistinct := BTreeMap.distinct_eq_iff.mpr htools
  have hmemory : grants.contains "memory" = grant.memoryEnabled :=
    contains_flag hgrants (by simp [GrantV1.flags])
  have hknowledge : grants.contains "knowledge" = grant.knowledgeEnabled :=
    contains_flag hgrants (by simp [GrantV1.flags])
  have hsandbox : grants.contains "sandbox" = grant.sandboxExecutionAllowed :=
    contains_flag hgrants (by simp [GrantV1.flags])
  have hcommunication : grants.contains "communication" = grant.communicationAllowed :=
    contains_flag hgrants (by simp [GrantV1.flags])
  rw [hmemory, hknowledge, hsandbox, hcommunication]
  unfold canonicalGrant GrantV1.new canonicalTools
  rw [hdistinct]

/-! ## The decision -/

section Decision

variable {root : lib.KeyPair} {tenantId : TenantId} {principalId : PrincipalId}
  {capabilities : List CapabilityV1} {grant : GrantV1}

theorem loaded_le {start : lib.Authorizer} {now : ℕ} {wire : String}
    (h : lib.Evaluates start now wire (mintedFacts tenantId principalId capabilities grant)) :
    (lib.dump start).facts.length ≤ 27 + grant.allowedToolIds.length := by
  have hothers : ∀ f ∈ (lib.dump start).facts.erase (timeFact now),
      f ∈ mintedFacts tenantId principalId capabilities grant := by
    intro f hf
    obtain ⟨hne, hmem⟩ := h.nodup.mem_erase_iff.mp hf
    exact (h.loaded f hmem).resolve_left hne
  have hle := length_le_of_nodup (h.nodup.erase (timeFact now)) hothers
  have herase := List.le_length_erase (a := timeFact now) (l := (lib.dump start).facts)
  omega

theorem evaluates_of_mint (hlib : lib.Faithful) (hgrant : validateGrant grant = .ok ())
    {raw : String} (hmint : mint lib root tenantId principalId capabilities grant = .ok raw)
    (now : ℕ) (capability : CapabilityV1) :
    ∃ verified start, lib.fromBase64 raw (lib.publicKey root) = .ok verified ∧
      lib.Carries verified (mintedFacts tenantId principalId capabilities grant) ∧
      lib.authorizer datalogLimits now (allowPolicy capability.asStr) verified = .ok start ∧
      lib.Evaluates start now capability.asStr
        (mintedFacts tenantId principalId capabilities grant) := by
  obtain ⟨biscuit, hbuild, hraw⟩ := mint_eq_ok hmint
  obtain ⟨verified, hverified, hcarries⟩ := hlib.verifies hbuild hraw
  obtain ⟨hlen, -⟩ := valid_of_validateGrant hgrant
  have hdedup := length_le_of_nodup (mintedFacts tenantId principalId capabilities grant).nodup_dedup
    fun f hf => List.mem_dedup.mp hf
  have hwithin : (mintedFacts tenantId principalId capabilities grant).dedup.length <
      datalogLimits.maxFacts := by
    unfold maxToolIds at hlen
    show _ < 512
    omega
  obtain ⟨start, hstart, hevaluates⟩ := hlib.evaluates hcarries stringFact_of_mem_mintedFacts
    hwithin now capability
  exact ⟨verified, start, hverified, hcarries, hstart, hevaluates⟩

/-- The resolver up to the policy: the token passes every ceiling but the one on its length. -/
theorem authorizeInner_eq {resolver : BiscuitAuthorizationResolver lib} {sha256 : Sha256}
    {request : AuthorizationRequestV1} {token : TokenPresentation} {now : ℕ}
    {verified : lib.Biscuit} {start : lib.Authorizer}
    (hsize : byteLen token.asStr ≤ maxTokenBytes) (hgrant : validateGrant grant = .ok ())
    (hverified : lib.fromBase64 token.asStr resolver.rootPublicKey = .ok verified)
    (hcarries : lib.Carries verified (mintedFacts tenantId principalId capabilities grant))
    (hstart : lib.authorizer datalogLimits now (allowPolicy request.capability.asStr) verified =
      .ok start)
    (hevaluates : lib.Evaluates start now request.capability.asStr
      (mintedFacts tenantId principalId capabilities grant)) :
    resolver.authorizeInner sha256 request token datalogLimits now =
      (lib.authorize start).1.toOption.bind fun _ => (canonicalGrant grant).toOption.bind fun grant =>
        (allowDecision sha256 request ⟨tenantId, principalId, request.requestId,
          request.correlationId⟩ grant).toOption.bind fun decision =>
            if verifyDecision sha256 request decision then some decision else none := by
  obtain ⟨hlen, -⟩ := valid_of_validateGrant hgrant
  have hshape : ¬(maxDatalogFacts < (lib.dump start).facts.length ∨
      maxDatalogRules < (lib.dump start).rules.length ∨
      maxDatalogChecks < (lib.dump start).checks.length) := by
    have hloaded := loaded_le hevaluates
    rw [hevaluates.rules, hevaluates.checks]
    simp only [maxDatalogFacts, maxDatalogRules, maxDatalogChecks, maxToolIds,
      List.length_nil] at hlen ⊢
    omega
  have hblocks : ¬maxBlocks < lib.blockCount verified := by
    rw [hcarries.blockCount]
    decide
  -- Both queries run on later states of the same authorizer.
  obtain ⟨toolRows, htoolRows, htools⟩ := hevaluates.tools _ (.authorized .built)
  obtain ⟨grantRows, hgrantRows, hgrants⟩ :=
    hevaluates.grants _ (.queried (.authorized .built) toolRule)
  have hread := grant_of_rows (fun value => (htools value).trans tool_mem_mintedFacts)
    (fun value => (hgrants value).trans grant_mem_mintedFacts)
  unfold BiscuitAuthorizationResolver.authorizeInner adapterTokenSizeIsAllowed
  rw [if_neg (by rw [decide_eq_true hsize]; exact Bool.false_ne_true), hverified]
  simp only [Except.toOption, Option.bind_eq_bind, Option.bind_some, if_neg hblocks,
    directAuthorityIdentity_of_carries hcarries, hstart, if_neg hshape, stringColumn, stringSet,
    htoolRows, hgrantRows, Option.map_some, hread]

theorem authorize_of_oversized {resolver : BiscuitAuthorizationResolver lib} {sha256 : Sha256}
    {request : AuthorizationRequestV1} {token : TokenPresentation} {now : ℕ}
    (hsize : maxTokenBytes < byteLen token.asStr) :
    resolver.authorize sha256 now request token = denyDecision := by
  unfold BiscuitAuthorizationResolver.authorize BiscuitAuthorizationResolver.authorizeInner
    adapterTokenSizeIsAllowed
  rw [if_pos (by rw [decide_eq_false (Nat.not_le.mpr hsize)]; rfl)]
  rfl

theorem exists_allowDecision (sha256 : Sha256) {request : AuthorizationRequestV1}
    (context : AuthContextV1) {canonical : GrantV1}
    (hscope : validateRequestScope request context = .ok ())
    (hcanonical : canonicalGrant canonical = .ok canonical) :
    ∃ digest, allowDecision sha256 request context canonical =
        .ok (.allow context canonical digest) ∧
      verifyDecision sha256 request (.allow context canonical digest) := by
  have hbytes : ∃ bytes, decisionCanonicalBytes request (.allow context canonical "") =
      .ok bytes :=
    ⟨_, bind_eq_ok.mpr ⟨(), hscope, bind_eq_ok.mpr ⟨canonical, hcanonical, rfl⟩⟩⟩
  obtain ⟨bytes, hbytes⟩ := hbytes
  have hdigest : decisionDigest sha256 request (.allow context canonical "") =
      .ok (sha256.hexDigest bytes) := by
    unfold decisionDigest
    rw [hbytes, ok_bind]
  have hissued := allowDecision_eq_ok.mpr ⟨rfl, hscope, hcanonical, hdigest⟩
  exact ⟨_, hissued, verifyDecision_iff_issued.mpr ⟨_, _, hissued⟩⟩

/-- A minted token of at most `maxTokenBytes` bytes authorizes the capabilities it lists, for the
identity and the canonical grant it was minted with; whatever its length it authorizes no other, and
a longer one authorizes nothing. -/
theorem authorize_mint (lib : BiscuitAuth) (hlib : lib.Faithful) (sha256 : Sha256)
    (root : lib.KeyPair) (tenantId : TenantId) (principalId : PrincipalId)
    (capabilities : List CapabilityV1) (grant : GrantV1) (hgrant : validateGrant grant = .ok ())
    (token : TokenPresentation)
    (hmint : mint lib root tenantId principalId capabilities grant = .ok token.asStr) (now : ℕ)
    (request : AuthorizationRequestV1) :
    let decision := (⟨lib.publicKey root⟩ : BiscuitAuthorizationResolver lib).authorize sha256 now
      request token
    (request.capability ∉ capabilities → decision = denyDecision) ∧
    (maxTokenBytes < byteLen token.asStr → decision = denyDecision) ∧
    (byteLen token.asStr ≤ maxTokenBytes → request.capability ∈ capabilities →
      ∃ canonical digest, canonicalGrant grant = .ok canonical ∧
        decision = .allow ⟨tenantId, principalId, request.requestId, request.correlationId⟩
          canonical digest ∧ verifyDecision sha256 request decision) := by
  intro decision
  obtain ⟨verified, start, hverified, hcarries, hstart, hevaluates⟩ :=
    evaluates_of_mint hlib hgrant hmint now request.capability
  have hpolicy := (hevaluates.policy start .built).trans capability_mem_mintedFacts
  refine ⟨fun hunlisted => ?_, authorize_of_oversized, fun hsize hlisted => ?_⟩
  · rcases Nat.lt_or_ge maxTokenBytes (byteLen token.asStr) with hsize | hsize
    · exact authorize_of_oversized hsize
    · obtain ⟨e, he⟩ := not_isOk_iff.mp (mt hpolicy.mp hunlisted)
      unfold decision BiscuitAuthorizationResolver.authorize
      rw [authorizeInner_eq hsize hgrant hverified hcarries hstart hevaluates, he]
      rfl
  · obtain ⟨⟨⟩, hok⟩ := isOk_iff.mp (hpolicy.mpr hlisted)
    obtain ⟨canonical, hcanonical⟩ := canonicalGrant_of_validateGrant hgrant
    obtain ⟨digest, hissued, hverifies⟩ := exists_allowDecision sha256
      ⟨tenantId, principalId, request.requestId, request.correlationId⟩
      (validateRequestScope_eq_ok.mpr ⟨rfl, rfl⟩) (canonicalGrant_idempotent hcanonical)
    have hdecision : decision = .allow ⟨tenantId, principalId, request.requestId,
        request.correlationId⟩ canonical digest := by
      unfold decision BiscuitAuthorizationResolver.authorize
      rw [authorizeInner_eq hsize hgrant hverified hcarries hstart hevaluates, hok, hcanonical]
      simp only [Except.toOption, Option.bind_some, hissued, hverifies, if_true, Option.getD_some]
    exact ⟨canonical, digest, hcanonical, hdecision, hdecision ▸ hverifies⟩

end Decision

/-! ## A library that signs one list of facts -/

/-- The values of one predicate. -/
def factValues (facts : List Fact) (name : String) : List String :=
  facts.filterMap fun fact =>
    match fact.terms with
    | [.str value] => if fact.name = name then some value else none
    | _ => none

def BiscuitAuth.signing (facts : List Fact) (raw : String) : BiscuitAuth where
  KeyPair := Unit
  PublicKey := Unit
  Biscuit := Unit
  Authorizer := ℕ × String
  Error := Unit
  publicKey := id
  validate _ := .ok ()
  build _ signed := if signed = facts then .ok () else .error ()
  toBase64 _ := .ok raw
  fromBase64 presented _ := if presented = raw then .ok () else .error ()
  blockCount _ := 1
  authority _ := .ok ⟨facts, [], []⟩
  authorizer _ now policy _ := .ok (now, policy)
  dump authorizer := ⟨(timeFact authorizer.1 :: facts).dedup, [], []⟩
  authorize authorizer :=
    (if authorizer.2 ∈ (factValues facts "capability").map allowPolicy then .ok () else .error (),
      authorizer)
  query authorizer rule :=
    (if rule = toolRule then .ok (factValues facts "allowed_tool")
      else if rule = grantRule then .ok (factValues facts "grant") else .error (), authorizer)

theorem mem_factValues {facts : List Fact} {name value : String} :
    value ∈ factValues facts name ↔ stringFact name value ∈ facts := by
  unfold factValues
  rw [List.mem_filterMap]
  constructor
  · rintro ⟨⟨name', terms⟩, hmem, h⟩
    split at h
    next value' hterms =>
      by_cases hname : name' = name
      · rw [if_pos hname] at h
        cases h
        cases hname
        cases hterms
        exact hmem
      · rw [if_neg hname] at h
        cases h
    next => cases h
  · intro hmem
    exact ⟨stringFact name value, hmem, if_pos rfl⟩

theorem allowPolicy_injective : Function.Injective allowPolicy := by
  intro wire wire' h
  unfold allowPolicy at h
  rwa [String.append_left_inj, String.append_right_inj] at h

theorem signing_reaches {facts : List Fact} {raw : String}
    {start authorizer : (BiscuitAuth.signing facts raw).Authorizer}
    (h : (BiscuitAuth.signing facts raw).Reaches start authorizer) : authorizer = start := by
  induction h with
  | built => rfl
  | authorized _ ih => exact ih
  | queried _ _ ih => exact ih

theorem signing_faithful {facts : List Fact} {raw : String}
    (hlength : ((carriedStrings facts).map byteLen).sum ≤ byteLen raw) :
    (BiscuitAuth.signing facts raw).Faithful where
  verifies := by
    intro root signed biscuit raw' hbuild hraw
    cases hraw
    by_cases hsigned : signed = facts
    · subst hsigned
      exact ⟨(), if_pos rfl, rfl, rfl⟩
    · cases (if_neg hsigned).symm.trans hbuild
  evaluates := by
    intro biscuit facts' hcarries _ _ now capability
    cases hcarries.authority
    refine ⟨(now, allowPolicy capability.asStr), rfl, List.nodup_dedup _, ?_, rfl, rfl, ?_, ?_, ?_⟩
    · intro f hf
      exact List.mem_cons.mp (List.mem_dedup.mp hf)
    · intro authorizer hreaches
      rw [signing_reaches hreaches, ← mem_factValues]
      have hmem : allowPolicy capability.asStr ∈ (factValues facts "capability").map allowPolicy ↔
          capability.asStr ∈ factValues facts "capability" :=
        List.mem_map_of_injective allowPolicy_injective
      rw [← hmem]
      show (if _ then Except.ok () else Except.error ()).isOk ↔ _
      by_cases hlisted : allowPolicy capability.asStr ∈
          (factValues facts "capability").map allowPolicy
      · rw [if_pos hlisted]
        exact iff_of_true rfl hlisted
      · rw [if_neg hlisted]
        exact iff_of_false Bool.false_ne_true hlisted
    · intro authorizer _
      refine ⟨factValues facts "allowed_tool", ?_, fun value => mem_factValues⟩
      simp only [BiscuitAuth.signing, if_true]
    · intro authorizer _
      refine ⟨factValues facts "grant", ?_, fun value => mem_factValues⟩
      have hother : grantRule ≠ toolRule := by decide
      simp only [BiscuitAuth.signing, if_neg hother, if_true]
  length := by
    intro root signed biscuit raw' hbuild hraw
    cases hraw
    by_cases hsigned : signed = facts
    · rw [hsigned]
      exact hlength
    · cases (if_neg hsigned).symm.trans hbuild

theorem mint_signing {tenantId : TenantId} {principalId : PrincipalId}
    {capabilities : List CapabilityV1} {grant : GrantV1} {raw : String} :
    mint (.signing (mintedFacts tenantId principalId capabilities grant) raw) () tenantId
      principalId capabilities grant = .ok raw := by
  refine (mint_of_validate fun _ => rfl).trans (bind_eq_ok.mpr ⟨(), ?_, rfl⟩)
  exact if_pos rfl

/-- The facts of the contract tests. -/
def goldenFacts : List Fact :=
  mintedFacts goldenContext.tenantId goldenContext.principalId [.agentInvoke] goldenGrant

/-- A token with these facts, under a fixed root key. -/
def goldenRaw : String :=
  "ErICCscBCgh0ZW5hbnQtYQoJcHJpbmNpcGFsCgtwcmluY2lwYWwtYQoKY2FwYWJpbGl0eQoMYWdlbnRfaW52b2tl" ++
    "CgxhbGxvd2VkX3Rvb2wKBnRvb2wtYQoGdG9vbC1iCgVncmFudAoGbWVtb3J5CgdzYW5kYm94GAMiCQoHCAgSAxiA" ++
    "CCIKCggIgQgSAxiCCCIKCggIgwgSAxiECCIKCggIhQgSAxiGCCIKCggIhQgSAxiHCCIKCggIiAgSAxiJCCIKCggI" ++
    "iAgSAxiKCBIkCAASICmsuuFBvMrwsi4alNNNC8c2HlJtC_4SyJeUvJMilm3XGkALyMfpH4a5fRNIxkkyHsESmUed" ++
    "owDeMNB0k8RpGtaCQceCzjM-oDoErxroz43HUldJ-ngQNYoYwFw26fCUMogCIiIKICAhIiMkJSYnKCkqKywtLi8w" ++
    "MTIzNDU2Nzg5Ojs8PT4_"

def goldenToken : TokenPresentation := ⟨goldenRaw, by decide +kernel⟩

def goldenLib : BiscuitAuth := .signing goldenFacts goldenRaw

theorem authorize_mint_golden :
    mint goldenLib () goldenContext.tenantId goldenContext.principalId [.agentInvoke] goldenGrant =
      .ok goldenToken.asStr ∧
    (∃ canonical digest, canonicalGrant goldenGrant = .ok canonical ∧
      (⟨()⟩ : BiscuitAuthorizationResolver goldenLib).authorize goldenSha256 0 goldenRequest
        goldenToken = .allow goldenContext canonical digest) ∧
    (⟨()⟩ : BiscuitAuthorizationResolver goldenLib).authorize goldenSha256 0
      { goldenRequest with capability := .workflowStart } goldenToken = denyDecision := by
  have hlib : goldenLib.Faithful := signing_faithful (by decide +kernel)
  have hmint : mint goldenLib () goldenContext.tenantId goldenContext.principalId [.agentInvoke]
      goldenGrant = .ok goldenToken.asStr := mint_signing
  have hminted := fun request => authorize_mint goldenLib hlib goldenSha256 () goldenContext.tenantId
    goldenContext.principalId [.agentInvoke] goldenGrant (by decide +kernel) goldenToken hmint 0
    request
  obtain ⟨canonical, digest, hcanonical, hdecision, -⟩ :=
    (hminted goldenRequest).2.2 (by decide +kernel) (by decide)
  exact ⟨hmint, ⟨canonical, digest, hcanonical, hdecision⟩,
    (hminted { goldenRequest with capability := .workflowStart }).1 (by decide)⟩

/-! ## A grant whose tokens are too long -/

theorem sum_byteLen_le {l m : List String} (hnodup : l.Nodup) (hsubset : l ⊆ m) :
    (l.map byteLen).sum ≤ (m.map byteLen).sum := by
  obtain ⟨part, hperm, hsublist⟩ := hnodup.subperm hsubset
  rw [← (hperm.map byteLen).sum_eq]
  exact (hsublist.map byteLen).sum_le_sum fun _ _ => Nat.zero_le _

/-- A name of 128 bytes. -/
def longestToolId (n : ℕ) : String :=
  String.ofList (Nat.digitChar (n / 10) :: Nat.digitChar (n % 10) :: List.replicate 126 'a')

/-- As many tools as a grant may have, with names as long as they may be. -/
def longestGrant : GrantV1 where
  allowedToolIds := (List.range maxToolIds).map longestToolId
  memoryEnabled := false
  knowledgeEnabled := false
  sandboxExecutionAllowed := false
  communicationAllowed := false

def longestFacts : List Fact :=
  mintedFacts goldenContext.tenantId goldenContext.principalId [.agentInvoke] longestGrant

theorem byteLen_longestToolId {n : ℕ} (h : n < 64) : byteLen (longestToolId n) = 128 := by
  have hdigit : ∀ d < 10, (Nat.digitChar d).toNat < 128 := by decide
  unfold longestToolId
  rw [byteLen_ofList_of_ascii]
  · rfl
  · intro c hc
    rcases List.mem_cons.mp hc with rfl | hc
    · exact hdigit _ (by omega)
    · rcases List.mem_cons.mp hc with rfl | hc
      · exact hdigit _ (by omega)
      · rw [List.eq_of_mem_replicate hc]
        decide

theorem sum_longest : (longestGrant.allowedToolIds.map byteLen).sum = 8192 := by
  have hall : longestGrant.allowedToolIds.map byteLen = List.replicate 64 128 := by
    refine List.eq_replicate_iff.mpr ⟨rfl, fun b hb => ?_⟩
    obtain ⟨toolId, htoolId, rfl⟩ := List.mem_map.mp hb
    obtain ⟨n, hn, rfl⟩ := List.mem_map.mp htoolId
    exact byteLen_longestToolId (List.mem_range.mp hn)
  rw [hall]
  rfl

theorem strings_map {α : Type} (name : String) (g : α → String) (xs : List α) :
    (xs.map fun x => stringFact name (g x)).flatMap Fact.strings = xs.map g := by
  rw [List.flatMap_map, List.map_eq_flatMap]
  rfl

theorem strings_longest : longestFacts.flatMap Fact.strings =
    ["tenant-a", "principal-a", "agent_invoke"] ++ longestGrant.allowedToolIds := by
  have htools := strings_map "allowed_tool" id longestGrant.allowedToolIds
  rw [List.map_id] at htools
  unfold longestFacts mintedFacts
  rw [List.flatMap_append, List.flatMap_append]
  show _ ++ (longestGrant.allowedToolIds.map fun x => stringFact "allowed_tool" (id x)).flatMap
    Fact.strings ++ [] = _
  rw [htools, List.append_nil]
  rfl

theorem sum_carried_longest :
    maxTokenBytes < ((carriedStrings longestFacts).map byteLen).sum ∧
      ((carriedStrings longestFacts).map byteLen).sum ≤ 12800 := by
  have hnodup : ("tenant-a" :: longestGrant.allowedToolIds).Nodup := by
    refine List.Nodup.of_map (fun toolId => (utf8 toolId).take 2) ?_
    decide +kernel
  have hlower := sum_byteLen_le (m := carriedStrings longestFacts) hnodup fun value hvalue => by
    unfold carriedStrings
    rw [BTreeMap.mem_distinct, strings_longest]
    rcases List.mem_cons.mp hvalue with rfl | hvalue
    · exact List.mem_cons_self
    · exact List.mem_append_right _ hvalue
  have hupper := sum_byteLen_le (l := carriedStrings longestFacts)
    (BTreeMap.nodup_distinct _) fun value hvalue =>
      BTreeMap.mem_distinct.mp hvalue
  have htenant : byteLen "tenant-a" = 8 := by decide +kernel
  have hprincipal : byteLen "principal-a" = 11 := by decide +kernel
  have hcapability : byteLen "agent_invoke" = 12 := by decide +kernel
  rw [strings_longest] at hupper
  simp only [List.map_append, List.map_cons, List.map_nil, List.sum_append, List.sum_cons,
    List.sum_nil, sum_longest, htenant, hprincipal, hcapability] at hlower hupper
  unfold maxTokenBytes
  omega

/-- A text of that many bytes. -/
def filler (n : ℕ) : String := String.ofList (List.replicate n 'A')

theorem byteLen_filler (n : ℕ) : byteLen (filler n) = n := by
  unfold filler
  rw [byteLen_ofList_of_ascii, List.length_replicate]
  intro c hc
  rw [List.eq_of_mem_replicate hc]
  decide

def longestToken : TokenPresentation where
  asStr := filler 12800
  valid := by
    have hlen := byteLen_filler 12800
    refine ⟨fun h => ?_, hlen.trans_le (by decide)⟩
    rw [h] at hlen
    cases hlen

/-- A valid grant whose tokens are denied even for a capability they list. -/
theorem authorize_mint_longest :
    validateGrant longestGrant = .ok () ∧
    (∃ (lib : BiscuitAuth) (root : lib.KeyPair), lib.Faithful ∧
      mint lib root goldenContext.tenantId goldenContext.principalId [.agentInvoke] longestGrant =
        .ok longestToken.asStr) ∧
    ∀ (lib : BiscuitAuth) (root : lib.KeyPair) (token : TokenPresentation), lib.Faithful →
      mint lib root goldenContext.tenantId goldenContext.principalId [.agentInvoke] longestGrant =
        .ok token.asStr →
      ∀ sha256 now, (⟨lib.publicKey root⟩ : BiscuitAuthorizationResolver lib).authorize sha256 now
        goldenRequest token = denyDecision := by
  obtain ⟨hlower, hupper⟩ := sum_carried_longest
  refine ⟨by decide +kernel, ⟨.signing longestFacts longestToken.asStr, (), ?_, ?_⟩, ?_⟩
  · exact signing_faithful (hupper.trans_eq (byteLen_filler 12800).symm)
  · exact mint_signing
  · intro lib root token hlib hmint sha256 now
    obtain ⟨biscuit, hbuild, hraw⟩ := mint_eq_ok hmint
    exact authorize_of_oversized (hlower.trans_le (hlib.length hbuild hraw))

end RustFactory.Auth
