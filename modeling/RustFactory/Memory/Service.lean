import RustFactory.Memory.Model

/-!
# Memory: the service

The service checks what a caller sends, scopes it to the tenant of the context, and calls the store.
The store is arbitrary; what it is called with is recorded.
-/

namespace RustFactory.Memory

open Lib

/-- What a store promises. -/
structure StoreGuarantees where
  durableAcrossRestart : Bool
  visibleAcrossProcesses : Bool
  crashAtomic : Bool
  deriving DecidableEq

/-- A backend with states `σ`. -/
structure MemoryStore (σ : Type) where
  put : MemoryRecord → σ → Except MemoryError WriteOutcome × σ
  get : TenantId → Namespace → RecordKey → σ → Except MemoryError (Option MemoryRecord) × σ
  query : TenantId → Namespace → MemoryQuery → σ → Except MemoryError (List MemoryRecord) × σ
  delete : TenantId → Namespace → RecordKey → σ → Except MemoryError Bool × σ
  guarantees : σ → StoreGuarantees

/-- The calls of a store. -/
inductive StoreCall where
  | put (record : MemoryRecord)
  | get (tenantId : TenantId) («namespace» : Namespace) (key : RecordKey)
  | query (tenantId : TenantId) («namespace» : Namespace) (query : MemoryQuery)
  | delete (tenantId : TenantId) («namespace» : Namespace) (key : RecordKey)
  | guarantees

/-- The tenant that a call addresses. -/
def StoreCall.tenantId : StoreCall → Option TenantId
  | .put record => some record.tenantId
  | .get tenantId _ _ => some tenantId
  | .query tenantId _ _ => some tenantId
  | .delete tenantId _ _ => some tenantId
  | .guarantees => none

/-- A store and the calls made to it. -/
structure Logged (σ : Type) where
  state : σ
  calls : List StoreCall

/-- The trusted identity as the memory crate takes it. -/
structure MemoryContext where
  tenantId : TenantId
  deriving DecidableEq

/-- What is to be remembered. -/
structure RememberRequest where
  «namespace» : Namespace
  key : RecordKey
  kind : MemoryKind
  content : String
  tags : List String
  metadata : Metadata
  runId : Option RunId

/-- The service over a store. -/
structure MemoryService (σ : Type) where
  store : MemoryStore σ
  resultCeiling : ℕ

namespace MemoryService

variable {σ : Type} (service : MemoryService σ) (context : MemoryContext)

/-- The record that a request asks for, stamped with the time of the clock. -/
def recordOf (now : Timestamp) (request : RememberRequest) : MemoryRecord where
  tenantId := context.tenantId
  «namespace» := request.namespace
  key := request.key
  kind := request.kind
  content := request.content
  tags := request.tags
  metadata := request.metadata
  provenance := request.runId.map fun runId => ⟨runId, now⟩

/-- Remembers a record for the tenant of the context. -/
def remember (now : Timestamp) (request : RememberRequest) (s : Logged σ) :
    Except MemoryError WriteOutcome × Logged σ :=
  let record := recordOf context now request
  match validateRecord record with
  | .error e => (.error e, s)
  | .ok () =>
    let (outcome, state) := service.store.put record s.state
    (outcome, ⟨state, s.calls ++ [.put record]⟩)

/-- The record is one that the request addressed.  A query spans keys. -/
def isAddressed («namespace» : Namespace) (key : Option RecordKey) (record : MemoryRecord) : Bool :=
  record.tenantId = context.tenantId && record.namespace = «namespace» &&
    key.all fun addressed => record.key = addressed

/-- The record of a key, if it is the tenant's. -/
def «recall» («namespace» : Namespace) (key : RecordKey) (s : Logged σ) :
    Except MemoryError (Option MemoryRecord) × Logged σ :=
  let (found, state) := service.store.get context.tenantId «namespace» key s.state
  (found.map fun record => record.filter (isAddressed context «namespace» (some key)),
    ⟨state, s.calls ++ [.get context.tenantId «namespace» key]⟩)

/-- The records that a query is for, as far as they are the tenant's. -/
def search («namespace» : Namespace) (query : MemoryQuery) (s : Logged σ) :
    Except MemoryError (List MemoryRecord) × Logged σ :=
  match validateQuery query with
  | .error e => (.error e, s)
  | .ok () =>
    if service.resultCeiling < query.limit then (.error .limitExceeded, s)
    else
      let (found, state) := service.store.query context.tenantId «namespace» query s.state
      (found.map fun records =>
          (records.filter (isAddressed context «namespace» none)).take query.limit,
        ⟨state, s.calls ++ [.query context.tenantId «namespace» query]⟩)

def forget («namespace» : Namespace) (key : RecordKey) (s : Logged σ) :
    Except MemoryError Bool × Logged σ :=
  let (existed, state) := service.store.delete context.tenantId «namespace» key s.state
  (existed, ⟨state, s.calls ++ [.delete context.tenantId «namespace» key]⟩)

def guarantees (s : Logged σ) : StoreGuarantees × Logged σ :=
  (service.store.guarantees s.state, ⟨s.state, s.calls ++ [.guarantees]⟩)

/-! ## Calls stay within the tenant -/

/-- The calls after `s` address the tenant only, if they address any. -/
def Scoped (tenantId : TenantId) (s s' : Logged σ) : Prop :=
  ∀ call ∈ s'.calls, call ∈ s.calls ∨ ∀ addressed ∈ call.tenantId, addressed = tenantId

theorem Scoped.refl (tenantId : TenantId) (s : Logged σ) : Scoped tenantId s s := fun _ h => Or.inl h

theorem Scoped.call {tenantId : TenantId} {call : StoreCall}
    (h : ∀ addressed ∈ call.tenantId, addressed = tenantId) (s : Logged σ) (state : σ) :
    Scoped tenantId s ⟨state, s.calls ++ [call]⟩ := by
  intro other hother
  rcases List.mem_append.mp hother with hother | hother
  · exact Or.inl hother
  · rw [List.mem_singleton.mp hother]
    exact Or.inr h

variable {service} {context}

theorem remember_scoped (now : Timestamp) (request : RememberRequest) (s : Logged σ) :
    Scoped context.tenantId s (service.remember context now request s).2 := by
  unfold remember
  dsimp only
  cases validateRecord (recordOf context now request) with
  | error e => exact Scoped.refl _ s
  | ok _ => exact Scoped.call (fun _ h => (Option.mem_some_iff.mp h).symm) s _

theorem recall_scoped («namespace» : Namespace) (key : RecordKey) (s : Logged σ) :
    Scoped context.tenantId s (service.«recall» context «namespace» key s).2 :=
  Scoped.call (fun _ h => (Option.mem_some_iff.mp h).symm) s _

theorem search_scoped («namespace» : Namespace) (query : MemoryQuery) (s : Logged σ) :
    Scoped context.tenantId s (service.search context «namespace» query s).2 := by
  unfold search
  cases validateQuery query with
  | error e => exact Scoped.refl _ s
  | ok _ =>
    dsimp only
    split_ifs
    · exact Scoped.refl _ s
    · exact Scoped.call (fun _ h => (Option.mem_some_iff.mp h).symm) s _

theorem forget_scoped («namespace» : Namespace) (key : RecordKey) (s : Logged σ) :
    Scoped context.tenantId s (service.forget context «namespace» key s).2 :=
  Scoped.call (fun _ h => (Option.mem_some_iff.mp h).symm) s _

theorem guarantees_scoped (tenantId : TenantId) (s : Logged σ) :
    Scoped tenantId s (service.guarantees s).2 :=
  Scoped.call (fun _ h => absurd h (Option.not_mem_none _)) s _

end MemoryService

end RustFactory.Memory
