import RustFactory.Agent.Runtime
import RustFactory.Lib.Framing

/-!
# Agents: the digest identifies the scope

The text that is hashed for a scope is a sequence of named fields with their lengths.  It has one
reading, so it determines every part of the scope but the digest itself; and it is taken over
sorted lists without repetition, so the order in which a definition lists its references is lost.
-/

namespace RustFactory.Agent

open RustFactory.Lib

/-! ## Fields -/

theorem field_selfDelimiting (name : String) :
    SelfDelimiting (fun value => value.length < 256 ^ 8) (field name) := by
  intro a b ha hb x y h
  have hframe : ∀ value : Bytes, field name value =
      (toBe 8 (byteLen name) ++ utf8 name) ++ lengthFrame 8 value := by
    intro value
    unfold field lengthFrame
    rw [List.append_assoc (_ ++ _)]
  rw [hframe, hframe, List.append_assoc (_ ++ _), List.append_assoc (_ ++ _)] at h
  exact lengthFrame_selfDelimiting 8 ha hb (List.append_cancel_left h)

theorem textField_selfDelimiting (name : String) :
    SelfDelimiting (fun value => byteLen value < 256 ^ 8) fun value => field name (utf8 value) := by
  intro a b ha hb x y h
  obtain ⟨hab, hxy⟩ := field_selfDelimiting name ha hb h
  exact ⟨utf8_injective hab, hxy⟩

/-- The lists that a machine can hold. -/
def FitsMachine (values : List String) : Prop :=
  values.length < 256 ^ 8 ∧ ∀ value ∈ values, byteLen value < 256 ^ 8

theorem fieldList_selfDelimiting (name : String) :
    SelfDelimiting FitsMachine (fieldList name) := by
  have hcount : SelfDelimiting (· < 256 ^ 8) fun n => field name (toBe 8 n) := by
    intro a b ha hb x y h
    have hlen : ∀ n, (toBe 8 n).length < 256 ^ 8 := fun n => by rw [length_toBe]; decide
    obtain ⟨hab, hxy⟩ := field_selfDelimiting name (hlen a) (hlen b) h
    exact ⟨toBe_injOn ha hb hab, hxy⟩
  exact hcount.counted (textField_selfDelimiting name)

theorem flagField_selfDelimiting (name : String) :
    SelfDelimiting (fun _ => True) (flagField name) := by
  intro a b _ _ x y h
  have hlen : ∀ flag : Bool, [if flag then (1 : UInt8) else 0].length < 256 ^ 8 := by decide
  obtain ⟨hab, hxy⟩ := field_selfDelimiting name (hlen a) (hlen b) h
  refine ⟨?_, hxy⟩
  cases a <;> cases b <;> first | rfl | exact absurd hab (by decide)

theorem numberField_selfDelimiting (name : String) :
    SelfDelimiting (fun _ => True) (numberField name) := by
  intro a b _ _ x y h
  have hlen : ∀ n : UInt32, (toBe 4 n.toNat).length < 256 ^ 8 := fun n => by
    rw [length_toBe]; decide
  obtain ⟨hab, hxy⟩ := field_selfDelimiting name (hlen a) (hlen b) h
  exact ⟨UInt32.toNat_inj.mp (toBe_injOn a.toNat_lt b.toNat_lt hab), hxy⟩

/-! ## Scopes -/

/-- The texts and lists of the scope have sizes that fit a machine word, as those of every value in
memory have. -/
structure ResolvedCapabilityScope.FitsMachine (scope : ResolvedCapabilityScope) : Prop where
  model : byteLen scope.model.reference < 256 ^ 8
  instructions : byteLen scope.instructions < 256 ^ 8
  skills : Agent.FitsMachine scope.skills
  steering : Agent.FitsMachine scope.steering
  allowedToolIds : Agent.FitsMachine scope.allowedToolIds
  knowledge : byteLen scope.knowledge.namespace < 256 ^ 8

theorem byteLen_agentId (id : AgentId) : byteLen id.asStr < 256 ^ 8 := by
  have h := id.valid
  unfold isId at h
  rw [Bool.and_eq_true, decide_eq_true_eq] at h
  exact lt_of_le_of_lt h.1 (by decide)

theorem scopeBytes_withDigest (scope : ResolvedCapabilityScope) (digest : String) :
    scopeBytes { scope with digest := digest } = scopeBytes scope := rfl

/-- The hashed text determines the scope, its digest apart. -/
theorem scopeBytes_injective {s t : ResolvedCapabilityScope} (hs : s.FitsMachine)
    (ht : t.FitsMachine) (h : scopeBytes s = scopeBytes t) : { s with digest := t.digest } = t := by
  obtain ⟨hmodel, hinstructions, hskills, hsteering, htools, hnamespace⟩ := hs
  obtain ⟨hmodel', hinstructions', hskills', hsteering', htools', hnamespace'⟩ := ht
  obtain ⟨⟨⟩, ⟨id, hid⟩, ⟨model⟩, instructions, skills, steering, tools, ⟨memory, items⟩,
    ⟨knowledge, space, results⟩, ⟨sandbox⟩, ⟨messages⟩, ⟨calls, output⟩, digest⟩ := s
  obtain ⟨⟨⟩, ⟨id', hid'⟩, ⟨model'⟩, instructions', skills', steering', tools', ⟨memory', items'⟩,
    ⟨knowledge', space', results'⟩, ⟨sandbox'⟩, ⟨messages'⟩, ⟨calls', output'⟩, digest'⟩ := t
  unfold scopeBytes at h
  simp only [List.append_assoc] at h
  -- The fields are read off one by one; every name stands on both sides.
  replace h := List.append_cancel_left (List.append_cancel_left h)
  obtain ⟨rfl, h₁⟩ :=
    textField_selfDelimiting "agent" (byteLen_agentId ⟨id, hid⟩) (byteLen_agentId ⟨id', hid'⟩) h
  obtain ⟨rfl, h₂⟩ := textField_selfDelimiting "model" hmodel hmodel' h₁
  obtain ⟨rfl, h₃⟩ := textField_selfDelimiting "instructions" hinstructions hinstructions' h₂
  obtain ⟨rfl, h₄⟩ := fieldList_selfDelimiting "skill" hskills hskills' h₃
  obtain ⟨rfl, h₅⟩ := fieldList_selfDelimiting "steering" hsteering hsteering' h₄
  obtain ⟨rfl, h₆⟩ := fieldList_selfDelimiting "tool" htools htools' h₅
  obtain ⟨rfl, h₇⟩ := flagField_selfDelimiting "memory_enabled" trivial trivial h₆
  obtain ⟨rfl, h₈⟩ := flagField_selfDelimiting "knowledge_enabled" trivial trivial h₇
  obtain ⟨rfl, h₉⟩ := flagField_selfDelimiting "sandbox_allowed" trivial trivial h₈
  obtain ⟨rfl, h₁₀⟩ := flagField_selfDelimiting "communication_allowed" trivial trivial h₉
  obtain ⟨rfl, h₁₁⟩ := numberField_selfDelimiting "memory_max_items" trivial trivial h₁₀
  obtain ⟨rfl, h₁₂⟩ := textField_selfDelimiting "knowledge_namespace" hnamespace hnamespace' h₁₁
  obtain ⟨rfl, h₁₃⟩ := numberField_selfDelimiting "knowledge_max_results" trivial trivial h₁₂
  obtain ⟨rfl, h₁₄⟩ := numberField_selfDelimiting "max_tool_calls" trivial trivial h₁₃
  obtain rfl := (numberField_selfDelimiting "max_output_bytes").injective trivial trivial h₁₄
  rfl

/-! ## Resolution -/

section Resolution

variable {sha256 : Sha256} {definition definition' : AgentDefinition}
  {tools tools' : List ToolDescriptor} {ceiling ceiling' : EffectiveCapabilityCeiling}

/-- Two lists with the same members, in whatever order and however often. -/
def SameMembers (values values' : List String) : Prop := ∀ value, value ∈ values ↔ value ∈ values'

/-- A resolved scope depends on the listed references as sets only. -/
theorem undigestedScope_congr {skills steering allowed : List String}
    (hskills : SameMembers skills definition.skills)
    (hsteering : SameMembers steering definition.steering)
    (htools : SameMembers (tools'.map ToolDescriptor.id) (tools.map ToolDescriptor.id))
    (hallowed : SameMembers allowed ceiling.allowedToolIds) :
    undigestedScope { definition with skills := skills, steering := steering } tools'
      { ceiling with allowedToolIds := allowed } = undigestedScope definition tools ceiling := by
  have hids : sortDedup ((tools'.map ToolDescriptor.id).filter fun id => allowed.contains id) =
      sortDedup ((tools.map ToolDescriptor.id).filter fun id =>
        ceiling.allowedToolIds.contains id) := by
    refine sortDedup_eq_iff.mpr fun id => ?_
    rw [List.mem_filter, List.mem_filter, List.contains_iff_mem, List.contains_iff_mem, htools id,
      hallowed id]
  unfold undigestedScope
  simp only [sortDedup_eq_iff.mpr hskills, sortDedup_eq_iff.mpr hsteering, hids]

theorem scopeBytes_fromDefinition :
    scopeBytes (.fromDefinition sha256 definition tools ceiling) =
      scopeBytes (undigestedScope definition tools ceiling) :=
  scopeBytes_withDigest (undigestedScope definition tools ceiling) _

theorem fromDefinition_digest :
    (ResolvedCapabilityScope.fromDefinition sha256 definition tools ceiling).digest =
      sha256.hexDigest (scopeBytes (.fromDefinition sha256 definition tools ceiling)) := by
  rw [scopeBytes_fromDefinition]
  rfl

/-- The text hashed for a scope determines the scope and is the same for every order and
repetition of the listed references; so scopes with the same digest are the same, unless the hash
collides on the two. -/
theorem scopeBytes_identify (sha256 : Sha256) :
    (∀ s t : ResolvedCapabilityScope, s.FitsMachine → t.FitsMachine →
      (scopeBytes s = scopeBytes t ↔ { s with digest := "" } = { t with digest := "" })) ∧
    (∀ (definition : AgentDefinition) (tools tools' : List ToolDescriptor)
      (ceiling : EffectiveCapabilityCeiling) (skills steering allowed : List String),
      SameMembers skills definition.skills → SameMembers steering definition.steering →
      SameMembers (tools'.map ToolDescriptor.id) (tools.map ToolDescriptor.id) →
      SameMembers allowed ceiling.allowedToolIds →
      scopeBytes (.fromDefinition sha256 { definition with skills := skills, steering := steering }
        tools' { ceiling with allowedToolIds := allowed }) =
        scopeBytes (.fromDefinition sha256 definition tools ceiling)) ∧
    (∀ (definition definition' : AgentDefinition) (tools tools' : List ToolDescriptor)
      (ceiling ceiling' : EffectiveCapabilityCeiling) (s t : ResolvedCapabilityScope),
      s = .fromDefinition sha256 definition tools ceiling →
      t = .fromDefinition sha256 definition' tools' ceiling' →
      s.FitsMachine → t.FitsMachine →
      (sha256.digest (scopeBytes s) = sha256.digest (scopeBytes t) →
        scopeBytes s = scopeBytes t) →
      (s.digest = t.digest ↔ s = t)) := by
  refine ⟨fun s t hs ht => ⟨fun h => ?_, fun h => ?_⟩, ?_, ?_⟩
  · have := scopeBytes_injective hs ht h
    rw [← this]
  · rw [← scopeBytes_withDigest s "", h, scopeBytes_withDigest]
  · intro definition tools tools' ceiling skills steering allowed hskills hsteering htools hallowed
    rw [scopeBytes_fromDefinition, scopeBytes_fromDefinition,
      undigestedScope_congr hskills hsteering htools hallowed]
  · rintro definition definition' tools tools' ceiling ceiling' s t rfl rfl hs ht hcollision
    refine ⟨fun h => ?_, fun h => congrArg ResolvedCapabilityScope.digest h⟩
    have hdigest := h
    rw [fromDefinition_digest, fromDefinition_digest, Sha256.hexDigest_eq_iff] at hdigest
    have := scopeBytes_injective hs ht (hcollision hdigest)
    rw [← h] at this
    exact this

end Resolution

/-! ## Two sample scopes -/

/-- The resolved scope of `sampleInvocation`, without and with memory. -/
def sampleScope (sha256 : Sha256) (memory : Bool) : ResolvedCapabilityScope :=
  .fromDefinition sha256 (sampleDefinition memory) [⟨"allowed"⟩]
    (.fullDefinition (sampleDefinition memory))

/-- SHA-256 on the texts of the two scopes. -/
def sampleScopeSha256 : Sha256 :=
  Sha256.ofTable
    ([false, true].map fun memory =>
      (scopeBytes (sampleScope (sampleSha256 memory) memory), (sampleSha256 memory).digest []))
    (by decide)

/-- The same definition with its skills in another order has the same text, and a scope with memory
has another digest than one without. -/
theorem scopeBytes_identify_samples :
    scopeBytes (.fromDefinition sampleScopeSha256
      { sampleDefinition true with skills := ["b", "a", "b"], steering := [] } [⟨"allowed"⟩]
      { EffectiveCapabilityCeiling.fullDefinition (sampleDefinition true) with
        allowedToolIds := ["allowed", "allowed"] }) =
      scopeBytes (.fromDefinition sampleScopeSha256
        { sampleDefinition true with skills := ["a", "b"] } [⟨"allowed"⟩]
        (.fullDefinition (sampleDefinition true))) ∧
    (sampleScope sampleScopeSha256 false).digest ≠ (sampleScope sampleScopeSha256 true).digest := by
  obtain ⟨-, hmembers, hdigest⟩ := scopeBytes_identify sampleScopeSha256
  have hfits : ∀ memory, (sampleScope sampleScopeSha256 memory).FitsMachine := by
    intro memory
    constructor <;> cases memory <;>
      first | decide +kernel | exact ⟨by decide +kernel, by decide +kernel⟩
  have hcollision : sampleScopeSha256.digest (scopeBytes (sampleScope sampleScopeSha256 false)) ≠
      sampleScopeSha256.digest (scopeBytes (sampleScope sampleScopeSha256 true)) := by
    decide +kernel
  constructor
  · refine hmembers { sampleDefinition true with skills := ["a", "b"] } [⟨"allowed"⟩] [⟨"allowed"⟩]
      (.fullDefinition (sampleDefinition true)) ["b", "a", "b"] [] ["allowed", "allowed"] ?_ ?_ ?_ ?_
    · intro value
      simp only [List.mem_cons, List.not_mem_nil, or_false]
      constructor
      · rintro (h | h | h)
        · exact .inr h
        · exact .inl h
        · exact .inr h
      · exact .inr
    · exact fun _ => Iff.rfl
    · exact fun _ => Iff.rfl
    · intro value
      show value ∈ ["allowed", "allowed"] ↔ value ∈ ["allowed"]
      simp only [List.mem_cons, List.not_mem_nil, or_false, or_self]
  · intro h
    have hscopes := (hdigest (sampleDefinition false) (sampleDefinition true) [⟨"allowed"⟩]
      [⟨"allowed"⟩] (.fullDefinition (sampleDefinition false))
      (.fullDefinition (sampleDefinition true)) (sampleScope sampleScopeSha256 false)
      (sampleScope sampleScopeSha256 true) rfl rfl (hfits false) (hfits true)
      fun heq => absurd heq hcollision).mp h
    have hmemory : ∀ memory, (sampleScope sampleScopeSha256 memory).memory.enabled = memory := by
      intro memory
      cases memory <;> rfl
    have hflags := hmemory true
    rw [← hscopes, hmemory false] at hflags
    cases hflags

end RustFactory.Agent
