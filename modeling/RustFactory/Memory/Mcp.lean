import RustFactory.Lib.JsonText
import RustFactory.Mcp.Gates

/-!
# Memory: the MCP surface

Five tools over the memory service.  Each checks the ceilings of the transport, then the policy gate,
and only then what its input means.  So a caller whom the gate refuses learns nothing from the answer,
and the store is not asked.
-/

namespace RustFactory.Memory

open Lib Policy
open JsonText (objectValue)

def maxMcpRequestBytes : ℕ := 16 * 1024

/-- What the transport allows for the text of a tool. -/
def brickToolTextBudgetBytes : ℕ := 64 * 1024

/-- What is kept of it for the composition around the tool. -/
def compositionHeadroomBytes : ℕ := 8 * 1024
def maxMcpEscapedToolTextBytes : ℕ := brickToolTextBudgetBytes - compositionHeadroomBytes
def maxMcpSerializedResultBytes : ℕ := maxMcpEscapedToolTextBytes / 2

/-- The longest content of a record that a caller may send, in bytes. -/
def maxMcpContentBytes : ℕ := 2 * 1024
def maxMcpTags : ℕ := 8
def maxMcpTagBytes : ℕ := 128
def maxMcpQueryLimit : ℕ := 6

/-- What a page keeps free for the keys of the records that do not fit. -/
def deferralReserveBytes : ℕ := maxMcpQueryLimit * (maxIdBytes + 4) + 128

/-! ## Inputs -/

def MemoryKind.asStr : MemoryKind → String
  | .factual => "factual"
  | .preference => "preference"
  | .procedural => "procedural"
  | .episodic => "episodic"

/-- The input of the tool that remembers a record. -/
structure RememberInput where
  «namespace» : String
  key : String
  kind : MemoryKind
  content : String
  tags : List String
  runId : Option String

/-- The input of the tools that recall or forget a record. -/
structure RecordAddressInput where
  «namespace» : String
  key : String

/-- The input of the tool that searches. -/
structure SearchInput where
  «namespace» : String
  kinds : List MemoryKind
  tags : List String
  term : Option String
  sinceMicros : Option ℕ
  untilMicros : Option ℕ
  limit : ℕ

/-- An input with its serialized form. -/
class Serialize (ι : Type) where
  text : ι → String

instance : Serialize RememberInput where
  text input := JsonText.object [("namespace", JsonText.quoted input.namespace),
    ("key", JsonText.quoted input.key), ("kind", JsonText.quoted input.kind.asStr),
    ("content", JsonText.quoted input.content),
    ("tags", JsonText.array (input.tags.map JsonText.quoted)),
    ("run_id", JsonText.nullable JsonText.quoted input.runId)]

instance : Serialize RecordAddressInput where
  text input := JsonText.object [("namespace", JsonText.quoted input.namespace),
    ("key", JsonText.quoted input.key)]

instance : Serialize SearchInput where
  text input := JsonText.object [("namespace", JsonText.quoted input.namespace),
    ("kinds", JsonText.array (input.kinds.map fun kind => JsonText.quoted kind.asStr)),
    ("tags", JsonText.array (input.tags.map JsonText.quoted)),
    ("term", JsonText.nullable JsonText.quoted input.term),
    ("since_micros", JsonText.nullable decimal input.sinceMicros),
    ("until_micros", JsonText.nullable decimal input.untilMicros),
    ("limit", decimal input.limit)]

instance : Serialize Unit where
  text _ := JsonText.object []

/-- The request that the service is given. -/
def RememberInput.intoCore (input : RememberInput) : Except MemoryError RememberRequest := do
  let scope ← LogicalId.new .scope input.namespace
  let key ← LogicalId.new .record input.key
  let runId ← match input.runId with
    | none => .ok none
    | some runId => (LogicalId.new .run runId).map some
  .ok ⟨scope, key, input.kind, input.content, input.tags, ∅, runId⟩

/-- The address that the service is given. -/
def RecordAddressInput.intoCore (input : RecordAddressInput) :
    Except MemoryError (Namespace × RecordKey) := do
  .ok (← LogicalId.new .scope input.namespace, ← LogicalId.new .record input.key)

/-- The query that the service is given. -/
def SearchInput.intoCore (input : SearchInput) : Except MemoryError (Namespace × MemoryQuery) := do
  .ok (← LogicalId.new .scope input.namespace, ⟨input.kinds, input.tags, input.term,
    input.sinceMicros, input.untilMicros, input.limit⟩)

/-! ## Ceilings -/

/-- An input within the bound of the transport. -/
def validateRequest {ι : Type} [Serialize ι] (input : ι) : Except MemoryError Unit :=
  if byteLen (Serialize.text input) ≤ maxMcpRequestBytes then .ok () else .error .limitExceeded

/-- The length of a string as JSON, with its quotes. -/
def serializedLen (value : String) : ℕ := byteLen (JsonText.quoted value)

/-- A record within the bounds of the transport. -/
def validateMcpRecord (input : RememberInput) : Except MemoryError Unit :=
  if maxMcpContentBytes < serializedLen input.content then .error .limitExceeded
  else if maxMcpTags < input.tags.length then .error .limitExceeded
  else if input.tags.any fun tag => maxMcpTagBytes < serializedLen tag then .error .limitExceeded
  else .ok ()

/-- A search within the bound of the transport. -/
def validateMcpLimit (input : SearchInput) : Except MemoryError Unit :=
  if input.limit = 0 ∨ maxMcpQueryLimit < input.limit then .error .limitExceeded else .ok ()

/-! ## Responses -/

/-- The members of a projected record, as the source declares them. -/
def recordOutput (record : MemoryRecord) : List (String × String) :=
  [("namespace", JsonText.quoted record.namespace.asStr), ("key", JsonText.quoted record.key.asStr),
    ("kind", JsonText.quoted record.kind.asStr), ("content", JsonText.quoted record.content),
    ("tags", JsonText.array (record.tags.map JsonText.quoted)),
    ("recorded_at_micros", JsonText.nullable (fun provenance => decimal provenance.recordedAt)
      record.provenance)]

/-- The length of a text once it is escaped. -/
def framedLen (value : String) : ℕ := byteLen (JsonText.quoted value)

def serialize (value : String) : Except String String :=
  if maxMcpSerializedResultBytes < byteLen value then .error "limit_exceeded"
  else if framedLen value ≤ maxMcpEscapedToolTextBytes then .ok value
  else .error "limit_exceeded"

/-- The page under construction: what fits, its size, and the keys of what does not. -/
structure Page where
  outputs : List String
  used : ℕ
  deferred : List String
  oversized : List String

/-- The page with a record, or with its key where it does not fit. -/
def Page.add (page : Page) (record : MemoryRecord) : Page :=
  let budget := maxMcpSerializedResultBytes - deferralReserveBytes
  let size := byteLen (JsonText.object (recordOutput record)) + 1
  if budget < size then
    { page with oversized := page.oversized ++ [record.key.asStr] }
  else if budget < page.used + size then
    { page with deferred := page.deferred ++ [record.key.asStr] }
  else { page with
    used := page.used + size, outputs := page.outputs ++ [objectValue (recordOutput record)] }

/-- The response to a search: the page and the keys of what it leaves out. -/
def serializeSearch (records : List MemoryRecord) : Except String String :=
  let page := records.foldl Page.add ⟨[], 0, [], []⟩
  serialize (objectValue [("records", JsonText.array page.outputs),
    ("deferred_keys", JsonText.array (page.deferred.map JsonText.quoted)),
    ("oversized_keys", JsonText.array (page.oversized.map JsonText.quoted))])

/-- The code that a caller sees for an error. -/
def publicCode : MemoryError → String
  | .invalidId => "invalid_id"
  | .invalidRecord => "invalid_record"
  | .invalidQuery => "invalid_query"
  | .limitExceeded => "limit_exceeded"
  | .notFound => "not_found"
  | .tenantMismatch => "not_found"
  | .unauthorized => "unauthorized"
  | .adapterFailure => "adapter_failure"

def publicCodes : List String :=
  ["invalid_id", "invalid_record", "invalid_query", "limit_exceeded", "not_found", "unauthorized",
    "adapter_failure"]

/-- The text that a tool answers with. -/
def toolResponse : Except String String → String
  | .ok text => text
  | .error code => JsonText.object
      [("error", JsonText.quoted (if publicCodes.contains code then code else "adapter_failure"))]

/-! ## Tools -/

/-- The surface over a memory service, with the policy that guards it. -/
structure MemoryMcp (σ : Type) where
  service : MemoryService σ
  sha256 : Sha256
  source : Except MemoryError TrustedContextV1
  policy : PolicyResolver

namespace MemoryMcp

variable {σ : Type} (mcp : MemoryMcp σ)

/-- What a tool does once its checks, which do not ask the store, have passed. -/
def checked {α : Type} (checks : Except MemoryError α)
    (body : α → Logged σ → Except String String × Logged σ) (s : Logged σ) :
    Except String String × Logged σ :=
  match checks with
  | .error e => (.error (publicCode e), s)
  | .ok value => body value s

def gate (capability : CapabilityV1) : Except MemoryError MemoryContext :=
  authorize mcp.sha256 mcp.source mcp.policy capability

/-- The tool that remembers a record. -/
def rememberJson (now : Timestamp) (input : RememberInput) :
    Logged σ → Except String String × Logged σ :=
  checked (do
    validateRequest input
    validateMcpRecord input
    let context ← mcp.gate .memoryRemember
    .ok (context, ← input.intoCore)) fun (context, request) s =>
  match mcp.service.remember context now request s with
  | (.error e, s) => (.error (publicCode e), s)
  | (.ok .created, s) => (.ok (JsonText.object [("outcome", JsonText.quoted "created")]), s)
  | (.ok .replaced, s) => (.ok (JsonText.object [("outcome", JsonText.quoted "replaced")]), s)

def recallJson (input : RecordAddressInput) : Logged σ → Except String String × Logged σ :=
  checked (do
    validateRequest input
    let context ← mcp.gate .memoryRecall
    .ok (context, ← input.intoCore)) fun (context, scope, key) s =>
  match mcp.service.«recall» context scope key s with
  | (.error e, s) => (.error (publicCode e), s)
  | (.ok none, s) => (.ok (JsonText.object [("record", "null")]), s)
  | (.ok (some record), s) =>
    (serialize (JsonText.object [("record", objectValue (recordOutput record))]), s)

def searchJson (input : SearchInput) : Logged σ → Except String String × Logged σ :=
  checked (do
    validateRequest input
    validateMcpLimit input
    let context ← mcp.gate .memorySearch
    .ok (context, ← input.intoCore)) fun (context, scope, query) s =>
  match mcp.service.search context scope query s with
  | (.error e, s) => (.error (publicCode e), s)
  | (.ok records, s) => (serializeSearch records, s)

def forgetJson (input : RecordAddressInput) : Logged σ → Except String String × Logged σ :=
  checked (do
    validateRequest input
    let context ← mcp.gate .memoryForget
    .ok (context, ← input.intoCore)) fun (context, scope, key) s =>
  match mcp.service.forget context scope key s with
  | (.error e, s) => (.error (publicCode e), s)
  | (.ok forgotten, s) => (.ok (JsonText.object [("forgotten", JsonText.boolean forgotten)]), s)

/-- The tool that says what the memory guarantees. -/
def statusJson : Logged σ → Except String String × Logged σ :=
  checked (do
    validateRequest ()
    mcp.gate .memoryStatus) fun _ s =>
  let (guarantees, s) := mcp.service.guarantees s
  (serialize (objectValue [
    ("durable_across_restart", JsonText.boolean guarantees.durableAcrossRestart),
    ("visible_across_processes", JsonText.boolean guarantees.visibleAcrossProcesses),
    ("crash_atomic", JsonText.boolean guarantees.crashAtomic),
    ("result_ceiling", decimal (min mcp.service.resultCeiling maxMcpQueryLimit)),
    ("max_content_bytes", decimal maxMcpContentBytes)]), s)

end MemoryMcp

/-- A call of a tool. -/
inductive ToolCall where
  | remember (input : RememberInput)
  | recall (input : RecordAddressInput)
  | search (input : SearchInput)
  | forget (input : RecordAddressInput)
  | status

/-- The capability that a tool asks the policy for. -/
def ToolCall.capability : ToolCall → CapabilityV1
  | .remember _ => .memoryRemember
  | .recall _ => .memoryRecall
  | .search _ => .memorySearch
  | .forget _ => .memoryForget
  | .status => .memoryStatus

/-- The checks that come before the gate. -/
def ToolCall.ceilings : ToolCall → Except MemoryError Unit
  | .remember input => do validateRequest input; validateMcpRecord input
  | .recall input => validateRequest input
  | .search input => do validateRequest input; validateMcpLimit input
  | .forget input => validateRequest input
  | .status => validateRequest ()

namespace MemoryMcp

variable {σ : Type} (mcp : MemoryMcp σ)

def json (now : Timestamp) : ToolCall → Logged σ → Except String String × Logged σ
  | .remember input => mcp.rememberJson now input
  | .recall input => mcp.recallJson input
  | .search input => mcp.searchJson input
  | .forget input => mcp.forgetJson input
  | .status => mcp.statusJson

/-- The response of a tool, and the store after it. -/
def respond (now : Timestamp) (call : ToolCall) (s : Logged σ) : String × Logged σ :=
  (toolResponse (mcp.json now call s).1, (mcp.json now call s).2)

/-! ## The surface is no oracle -/

/-- The decision for the capability does not verify, or lacks the flag. -/
def Refuses (capability : CapabilityV1) : Prop :=
  ∀ context, mcp.source = .ok context →
    ¬(Verifies mcp.sha256 ⟨context, capability⟩ (mcp.policy ⟨context, capability⟩) ∧
      Mcp.Adapter.memory.enabled (mcp.policy ⟨context, capability⟩))

variable {mcp}

/-- Whoever is refused is told so, and nothing else. -/
theorem gate_of_refuses {capability : CapabilityV1} (h : mcp.Refuses capability) :
    mcp.gate capability = .error .unauthorized := by
  unfold gate authorize
  cases hsource : mcp.source with
  | error e => rfl
  | ok context =>
    rw [show Except.mapError (fun _ => MemoryError.unauthorized)
      (Except.ok context : Except MemoryError TrustedContextV1) = .ok context from rfl, ok_bind]
    dsimp only
    cases hcheck : checkDecision MemoryError.unauthorized .unauthorized mcp.sha256
      ⟨context, capability⟩ (mcp.policy ⟨context, capability⟩) with
    | error e => rw [error_bind, eq_of_checkDecision_error hcheck]
    | ok checked =>
      obtain ⟨effectiveGrant, hdecision, -, hgrant, -⟩ := checkDecision_eq_ok.mp hcheck
      have hflag : checked.1.memoryEnabled = false := by
        rw [← Bool.not_eq_true]
        intro henabled
        refine h context hsource ⟨verifies_of_ok hcheck, ?_⟩
        rw [hdecision]
        rw [hgrant] at henabled
        exact henabled
      rw [ok_bind]
      simp only [hflag, Bool.not_false, if_true]

theorem json_of_refuses {call : ToolCall} (hceilings : call.ceilings = .ok ())
    (h : mcp.Refuses call.capability) (now : Timestamp) (s : Logged σ) :
    mcp.json now call s = (.error "unauthorized", s) := by
  have hgate := gate_of_refuses h
  unfold json
  cases call with
  | remember input =>
    obtain ⟨⟨⟩, hrequest, hrecord⟩ := bind_eq_ok.mp hceilings
    unfold ToolCall.capability at hgate
    dsimp only at hgate ⊢
    unfold rememberJson
    rw [hrequest, ok_bind, hrecord, ok_bind, hgate]
    rfl
  | «recall» input =>
    unfold ToolCall.ceilings at hceilings
    unfold ToolCall.capability at hgate
    dsimp only at hceilings hgate ⊢
    unfold recallJson
    rw [hceilings, ok_bind, hgate]
    rfl
  | search input =>
    obtain ⟨⟨⟩, hrequest, hlimit⟩ := bind_eq_ok.mp hceilings
    unfold ToolCall.capability at hgate
    dsimp only at hgate ⊢
    unfold searchJson
    rw [hrequest, ok_bind, hlimit, ok_bind, hgate]
    rfl
  | forget input =>
    unfold ToolCall.ceilings at hceilings
    unfold ToolCall.capability at hgate
    dsimp only at hceilings hgate ⊢
    unfold forgetJson
    rw [hceilings, ok_bind, hgate]
    rfl
  | status =>
    unfold ToolCall.ceilings at hceilings
    unfold ToolCall.capability at hgate
    dsimp only at hceilings hgate ⊢
    unfold statusJson
    rw [hceilings, ok_bind, hgate]
    rfl

/-- A refused caller gets one response, whatever it asked for, and the store is not called. -/
theorem respond_of_refuses {call : ToolCall} (hceilings : call.ceilings = .ok ())
    (h : mcp.Refuses call.capability) (now : Timestamp) (s : Logged σ) :
    mcp.respond now call s = (toolResponse (.error "unauthorized"), s) := by
  unfold respond
  rw [json_of_refuses hceilings h]

/-! ## Calls stay within the tenant -/

/-- The tenant of a trusted context, as the core has it. -/
def trustedTenant (context : TrustedContextV1) : TenantId :=
  ⟨context.tenantId.asStr, Mcp.memoryId_of_isLogicalId context.tenantId.valid⟩

theorem tenantId_of_gate {context : TrustedContextV1} (hsource : mcp.source = .ok context)
    {capability : CapabilityV1} {c : MemoryContext} (h : mcp.gate capability = .ok c) :
    c.tenantId = trustedTenant context := by
  have hhanded : Mcp.Adapter.memory.handed mcp.sha256 mcp.policy context capability =
      some [c.tenantId.asStr] := by
    unfold gate at h
    rw [hsource] at h
    unfold Mcp.Adapter.handed
    dsimp only
    rw [h]
    rfl
  have hids := (Mcp.Adapter.handed_eq_some.mp hhanded).2.2
  exact LogicalId.asStr_injective (List.cons.inj hids).1

/-- Checks that end with the gate and the conversion of the input. -/
theorem gate_of_checks {α β : Type} {before : Except MemoryError β} {capability : CapabilityV1}
    {convert : Except MemoryError α} {c : MemoryContext} {value : α}
    (h : (do
      let _ ← before
      let context ← mcp.gate capability
      .ok (context, ← convert)) = Except.ok (c, value)) : mcp.gate capability = .ok c := by
  obtain ⟨_, -, h⟩ := bind_eq_ok.mp h
  obtain ⟨context, hgate, h⟩ := bind_eq_ok.mp h
  obtain ⟨_, -, h⟩ := bind_eq_ok.mp h
  cases h
  exact hgate

/-- A tool whose checks have passed is scoped if what it does is. -/
theorem checked_scoped {α : Type} {checks : Except MemoryError α}
    {body : α → Logged σ → Except String String × Logged σ} {s : Logged σ} {tenantId : TenantId}
    (h : ∀ value, checks = .ok value → MemoryService.Scoped tenantId s (body value s).2) :
    MemoryService.Scoped tenantId s (checked checks body s).2 := by
  cases hchecks : checks with
  | error e => exact MemoryService.Scoped.refl tenantId s
  | ok value => exact h value hchecks

theorem statusJson_scoped {tenantId : TenantId} (s : Logged σ) :
    MemoryService.Scoped tenantId s (mcp.statusJson s).2 := by
  refine checked_scoped fun _ _ => ?_
  have hscoped : MemoryService.Scoped tenantId s (mcp.service.guarantees s).2 :=
    MemoryService.guarantees_scoped tenantId s
  dsimp only
  generalize mcp.service.guarantees s = result at hscoped ⊢
  exact hscoped

section Scoped

variable {context : TrustedContextV1} (hsource : mcp.source = .ok context) (s : Logged σ)

include hsource

theorem rememberJson_scoped (now : Timestamp) (input : RememberInput) :
    MemoryService.Scoped (trustedTenant context) s (mcp.rememberJson now input s).2 := by
  refine checked_scoped fun ⟨c, request⟩ h => ?_
  obtain ⟨_, -, h⟩ := bind_eq_ok.mp h
  have hscoped : MemoryService.Scoped c.tenantId s (mcp.service.remember c now request s).2 :=
    MemoryService.remember_scoped now request s
  rw [tenantId_of_gate hsource (gate_of_checks h)] at hscoped
  dsimp only
  generalize mcp.service.remember c now request s = result at hscoped ⊢
  rcases result with ⟨_ | _ | _, s'⟩
  · exact hscoped
  · exact hscoped
  · exact hscoped

theorem recallJson_scoped (input : RecordAddressInput) :
    MemoryService.Scoped (trustedTenant context) s (mcp.recallJson input s).2 := by
  refine checked_scoped fun ⟨c, scope, key⟩ h => ?_
  have hscoped : MemoryService.Scoped c.tenantId s (mcp.service.«recall» c scope key s).2 :=
    MemoryService.recall_scoped scope key s
  rw [tenantId_of_gate hsource (gate_of_checks h)] at hscoped
  dsimp only
  generalize mcp.service.«recall» c scope key s = result at hscoped ⊢
  rcases result with ⟨_ | _ | record, s'⟩
  · exact hscoped
  · exact hscoped
  · exact hscoped

theorem searchJson_scoped (input : SearchInput) :
    MemoryService.Scoped (trustedTenant context) s (mcp.searchJson input s).2 := by
  refine checked_scoped fun ⟨c, scope, query⟩ h => ?_
  obtain ⟨_, -, h⟩ := bind_eq_ok.mp h
  have hscoped : MemoryService.Scoped c.tenantId s (mcp.service.search c scope query s).2 :=
    MemoryService.search_scoped scope query s
  rw [tenantId_of_gate hsource (gate_of_checks h)] at hscoped
  dsimp only
  generalize mcp.service.search c scope query s = result at hscoped ⊢
  rcases result with ⟨_ | records, s'⟩
  · exact hscoped
  · exact hscoped

theorem forgetJson_scoped (input : RecordAddressInput) :
    MemoryService.Scoped (trustedTenant context) s (mcp.forgetJson input s).2 := by
  refine checked_scoped fun ⟨c, scope, key⟩ h => ?_
  have hscoped : MemoryService.Scoped c.tenantId s (mcp.service.forget c scope key s).2 :=
    MemoryService.forget_scoped scope key s
  rw [tenantId_of_gate hsource (gate_of_checks h)] at hscoped
  dsimp only
  generalize mcp.service.forget c scope key s = result at hscoped ⊢
  rcases result with ⟨_ | forgotten, s'⟩
  · exact hscoped
  · exact hscoped

theorem json_scoped (now : Timestamp) (call : ToolCall) :
    MemoryService.Scoped (trustedTenant context) s (mcp.json now call s).2 := by
  cases call with
  | remember input => exact rememberJson_scoped hsource s now input
  | «recall» input => exact recallJson_scoped hsource s input
  | search input => exact searchJson_scoped hsource s input
  | forget input => exact forgetJson_scoped hsource s input
  | status => exact statusJson_scoped s

end Scoped

/-- **No oracle.**  A caller whose decision does not verify, or lacks the flag, gets the same response
to any two calls of a tool within the ceilings, over any two stores, and neither store is called.  And
whatever a caller sends, every call of the store addresses the trusted tenant only. -/
theorem memory_no_oracle (mcp : MemoryMcp σ) :
    (∀ call call' : ToolCall, call.capability = call'.capability → call.ceilings = .ok () →
      call'.ceilings = .ok () → mcp.Refuses call.capability → ∀ now now' s s',
        (mcp.respond now call s).1 = (mcp.respond now' call' s').1 ∧
          (mcp.respond now call s).2 = s ∧ (mcp.respond now' call' s').2 = s') ∧
    ∀ context, mcp.source = .ok context → ∀ now call state,
      ∀ storeCall ∈ (mcp.respond now call ⟨state, []⟩).2.calls,
        ∀ tenantId ∈ storeCall.tenantId, tenantId.asStr = context.tenantId.asStr := by
  constructor
  · intro call call' hcapability hceilings hceilings' hrefuses now now' s s'
    have hrefuses' : mcp.Refuses call'.capability := hcapability ▸ hrefuses
    rw [respond_of_refuses hceilings hrefuses, respond_of_refuses hceilings' hrefuses']
    exact ⟨rfl, rfl, rfl⟩
  · intro context hsource now call state storeCall hcall tenantId hid
    rcases json_scoped hsource ⟨state, []⟩ now call storeCall hcall with hold | hscoped
    · cases hold
    · rw [hscoped tenantId hid]
      rfl

end MemoryMcp

/-- A surface whose policy denies everything. -/
def deniedMcp : MemoryMcp Unit where
  service := ⟨⟨fun _ s => (.ok .created, s), fun _ _ _ s => (.ok none, s), fun _ _ _ s => (.ok [], s),
    fun _ _ _ s => (.ok true, s), fun _ => ⟨false, false, false⟩⟩, 6⟩
  sha256 := Mcp.sampleSha256
  source := .ok sampleRequest.context
  policy := fun _ => denyDecision

/-- A malformed address and a proper one are refused alike. -/
theorem memory_no_oracle_sample :
    (deniedMcp.respond 0 (.forget ⟨"", "KEY"⟩) ⟨(), []⟩).1 =
      (deniedMcp.respond 0 (.forget ⟨"notes", "key"⟩) ⟨(), []⟩).1 ∧
    (deniedMcp.respond 0 (.forget ⟨"notes", "key"⟩) ⟨(), []⟩).2.calls = [] := by
  have hrefuses : deniedMcp.Refuses .memoryForget := by
    rintro context - ⟨⟨_, _, hdecision, -⟩, -⟩
    cases hdecision
  obtain ⟨hsame, -, hcalls⟩ := (MemoryMcp.memory_no_oracle deniedMcp).1 (.forget ⟨"", "KEY"⟩)
    (.forget ⟨"notes", "key"⟩) rfl (by decide +kernel) (by decide +kernel) hrefuses 0 0 ⟨(), []⟩
    ⟨(), []⟩
  exact ⟨hsame, by rw [hcalls]⟩

end RustFactory.Memory
