import RustFactory.Evaluation.Assessment
import RustFactory.Lib.BTreeMap
import RustFactory.Lib.Machine

/-!
# Evaluation: the in-memory store of results

`InMemoryEvaluationStore` keeps one result for each logical key.  A write either creates the entry
or is compared with the one that is there; nothing is replaced and nothing is evicted.
-/

namespace RustFactory.Evaluation

open RustFactory.Lib

def maxResultsPerTenant : ℕ := 1024
def maxResultsGlobal : ℕ := 4096

/-- A key as the tuple that orders it, field by field. -/
def LogicalEvaluationKey.toTuple (key : LogicalEvaluationKey) :
    String ×ₗ String ×ₗ String ×ₗ String ×ₗ String ×ₗ ℕ :=
  toLex (key.tenantId, toLex (key.evaluatorId, toLex (key.evaluatorVersion,
    toLex (key.criterionDigest, toLex (key.workflowRunId, key.workflowRevision.toNat)))))

instance : LinearOrder LogicalEvaluationKey :=
  LinearOrder.lift' LogicalEvaluationKey.toTuple fun a b h => by
    cases a
    cases b
    simpa [LogicalEvaluationKey.toTuple, UInt64.toNat_inj] using h

/-- What the store answers to a result. -/
inductive CreateOrMatch where
  | created (result : EvaluationResultV1)
  | existing (result : EvaluationResultV1)
  | conflict
  deriving DecidableEq

/-- The capacities of a store. -/
structure InMemoryEvaluationStore where
  maxResultsPerTenant : ℕ
  maxResultsGlobal : ℕ
  valid : 0 < maxResultsPerTenant ∧ maxResultsPerTenant ≤ maxResultsGlobal ∧
    maxResultsPerTenant ≤ Evaluation.maxResultsPerTenant ∧
    maxResultsGlobal ≤ Evaluation.maxResultsGlobal

/-- A store with the highest capacities. -/
def InMemoryEvaluationStore.new : InMemoryEvaluationStore :=
  ⟨Evaluation.maxResultsPerTenant, Evaluation.maxResultsGlobal, by decide⟩

def InMemoryEvaluationStore.withCapacities (perTenant global : ℕ) :
    Except EvaluationError InMemoryEvaluationStore :=
  if h : perTenant = 0 ∨ global = 0 ∨ Evaluation.maxResultsPerTenant < perTenant ∨
      Evaluation.maxResultsGlobal < global ∨ global < perTenant then
    .error .limitExceeded
  else
    .ok ⟨perTenant, global, by omega⟩

namespace InMemoryEvaluationStore

abbrev State := BTreeMap LogicalEvaluationKey EvaluationResultV1

/-- The number of results a tenant has. -/
def tenantCount (state : State) (tenantId : String) : ℕ :=
  (state.keys.filter fun key => key.tenantId == tenantId).length

/-- Stores a result, or finds the equal one. -/
def createOrMatch (store : InMemoryEvaluationStore) (sha256 : Sha256) (state : State)
    (result : EvaluationResultV1) : Except EvaluationError CreateOrMatch × State :=
  match validateResult sha256 result with
  | .error error => (.error error, state)
  | .ok _ =>
    match state[result.logicalKey]? with
    | none =>
      if store.maxResultsGlobal ≤ state.size ∨
          store.maxResultsPerTenant ≤ tenantCount state result.logicalKey.tenantId then
        (.error .limitExceeded, state)
      else
        (.ok (.created result), state.insert result.logicalKey result)
    | some existing =>
      if existing.contentHash = result.contentHash then (.ok (.existing existing), state)
      else (.ok .conflict, state)

/-- The result of a key, for its tenant. -/
def get (state : State) (tenantId : String) (key : LogicalEvaluationKey) :
    Except EvaluationError (Option EvaluationResultV1) :=
  .ok (if key.tenantId = tenantId then state[key]? else none)

def list (state : State) (tenantId : String) : Except EvaluationError (List EvaluationResultV1) :=
  .ok ((state.toList.map Prod.snd).filter fun result => result.logicalKey.tenantId == tenantId)

/-- The calls of the `EvaluationStore` port. -/
inductive Call where
  | createOrMatch (result : EvaluationResultV1)
  | get (tenantId : String) (key : LogicalEvaluationKey)
  | list (tenantId : String)

/-- What an operation answers. -/
inductive Answer where
  | createOrMatch (answer : Except EvaluationError CreateOrMatch)
  | get (answer : Except EvaluationError (Option EvaluationResultV1))
  | list (answer : Except EvaluationError (List EvaluationResultV1))

/-- The answer to a call, and the state after it. -/
def step (store : InMemoryEvaluationStore) (sha256 : Sha256) (state : State) : Call → Answer × State
  | .createOrMatch result =>
    let (answer, state) := store.createOrMatch sha256 state result
    (.createOrMatch answer, state)
  | .get tenantId key => (.get (get state tenantId key), state)
  | .list tenantId => (.list (list state tenantId), state)

/-- The store as a machine: every call runs under one lock. -/
def machine (store : InMemoryEvaluationStore) (sha256 : Sha256) : Machine State Call Answer :=
  ⟨store.step sha256⟩

/-- The free `evaluate_and_store`: an evaluation that fails does not reach the store. -/
def evaluateAndStore (store : InMemoryEvaluationStore) (sha256 : Sha256) (state : State)
    (reader : WorkflowEvidenceReader) (tenantId runId : String)
    (definition : EvaluationDefinitionV1) : Except EvaluationError CreateOrMatch × State :=
  match evaluate sha256 reader tenantId runId definition with
  | .error error => (.error error, state)
  | .ok result => store.createOrMatch sha256 state result

/-! ## Writes -/

variable {store : InMemoryEvaluationStore} {sha256 : Sha256} {state : State}

/-- Everything a write can do. -/
theorem createOrMatch_cases (store : InMemoryEvaluationStore) (sha256 : Sha256) (state : State)
    (result : EvaluationResultV1) :
    ((∃ error, (store.createOrMatch sha256 state result).1 = .error error) ∧
        (store.createOrMatch sha256 state result).2 = state) ∨
    (validateResult sha256 result = .ok () ∧ state[result.logicalKey]? = none ∧
        state.size < store.maxResultsGlobal ∧
        tenantCount state result.logicalKey.tenantId < store.maxResultsPerTenant ∧
        store.createOrMatch sha256 state result =
          (.ok (.created result), state.insert result.logicalKey result)) ∨
    ∃ existing, state[result.logicalKey]? = some existing ∧
      store.createOrMatch sha256 state result =
        (.ok (if existing.contentHash = result.contentHash then .existing existing else .conflict),
          state) := by
  unfold createOrMatch
  cases hvalid : validateResult sha256 result with
  | error error => exact Or.inl ⟨⟨error, rfl⟩, rfl⟩
  | ok _ =>
    cases hfound : state[result.logicalKey]? with
    | none =>
      by_cases hfull : store.maxResultsGlobal ≤ state.size ∨
          store.maxResultsPerTenant ≤ tenantCount state result.logicalKey.tenantId
      · simp only [if_pos hfull]
        exact Or.inl ⟨⟨_, rfl⟩, trivial⟩
      · simp only [if_neg hfull]
        rw [not_or, Nat.not_le, Nat.not_le] at hfull
        exact Or.inr (Or.inl ⟨trivial, trivial, hfull.1, hfull.2, trivial⟩)
    | some existing =>
      refine Or.inr (Or.inr ⟨existing, rfl, ?_⟩)
      by_cases hsame : existing.contentHash = result.contentHash
      · simp only [if_pos hsame]
      · simp only [if_neg hsame]

theorem createOrMatch_of_error {result : EvaluationResultV1} {error : EvaluationError}
    (h : (store.createOrMatch sha256 state result).1 = .error error) :
    (store.createOrMatch sha256 state result).2 = state := by
  obtain ⟨-, hsame⟩ | ⟨-, -, -, -, hcreated⟩ | ⟨existing, -, hmatch⟩ :=
    createOrMatch_cases store sha256 state result
  · exact hsame
  · rw [hcreated] at h
    cases h
  · rw [hmatch]

/-- The write of a stored key: only an invalid result is refused. -/
theorem createOrMatch_of_stored {result existing : EvaluationResultV1}
    (h : state[result.logicalKey]? = some existing) :
    store.createOrMatch sha256 state result = ((validateResult sha256 result).map fun _ =>
      if existing.contentHash = result.contentHash then .existing existing else .conflict, state) := by
  unfold createOrMatch
  rw [h]
  cases validateResult sha256 result with
  | error error => rfl
  | ok _ =>
    by_cases hsame : existing.contentHash = result.contentHash
    · simp only [if_pos hsame]
      rfl
    · simp only [if_neg hsame]
      rfl

/-! ## Runs -/

/-- What holds of every reachable state. -/
structure Inv (store : InMemoryEvaluationStore) (sha256 : Sha256) (state : State) : Prop where
  stored : BTreeMap.Forall (fun key result => result.logicalKey = key ∧
    validateResult sha256 result = .ok ()) state
  size_le : state.size ≤ store.maxResultsGlobal
  tenantCount_le : ∀ tenantId, tenantCount state tenantId ≤ store.maxResultsPerTenant

/-- Nothing stored is changed or removed. -/
def Keeps (before after : State) : Prop :=
  ∀ (key : LogicalEvaluationKey) (result : EvaluationResultV1),
    before[key]? = some result → after[key]? = some result

theorem Keeps.refl (state : State) : Keeps state state := fun _ _ h => h

theorem Keeps.trans {a b c : State} (hab : Keeps a b) (hbc : Keeps b c) : Keeps a c :=
  fun key result h => hbc key result (hab key result h)

theorem keeps_insert {result : EvaluationResultV1} (h : state[result.logicalKey]? = none) :
    Keeps state (state.insert result.logicalKey result) := by
  intro key stored hstored
  have hne : result.logicalKey ≠ key := by
    rintro rfl
    rw [h] at hstored
    cases hstored
  rwa [BTreeMap.getElem?_insert_of_ne hne]

theorem keeps_createOrMatch (result : EvaluationResultV1) :
    Keeps state (store.createOrMatch sha256 state result).2 := by
  obtain ⟨-, hsame⟩ | ⟨-, hnone, -, -, hcreated⟩ | ⟨existing, -, hmatch⟩ :=
    createOrMatch_cases store sha256 state result
  · rw [hsame]
    exact Keeps.refl state
  · rw [hcreated]
    exact keeps_insert hnone
  · rw [hmatch]
    exact Keeps.refl state

theorem keeps_step (call : Call) : Keeps state (store.step sha256 state call).2 := by
  cases call with
  | createOrMatch result => exact keeps_createOrMatch result
  | get tenantId key => exact Keeps.refl state
  | list tenantId => exact Keeps.refl state

theorem keeps_final (store : InMemoryEvaluationStore) (sha256 : Sha256) (state : State)
    (trace : List Call) : Keeps state ((store.machine sha256).final state trace) :=
  Machine.invariant_final (P := Keeps state) (fun _ call h => h.trans (keeps_step call))
    (Keeps.refl state) trace

theorem Inv.empty : Inv store sha256 ∅ where
  stored := BTreeMap.Forall.empty
  size_le := by
    rw [Std.ExtTreeMap.size_empty]
    exact Nat.zero_le _
  tenantCount_le tenantId := Nat.zero_le _

theorem Inv.createOrMatch (h : Inv store sha256 state) (result : EvaluationResultV1) :
    Inv store sha256 (store.createOrMatch sha256 state result).2 := by
  obtain ⟨-, hsame⟩ | ⟨hvalid, hnone, hsize, hcount, hcreated⟩ | ⟨existing, -, hmatch⟩ :=
    createOrMatch_cases store sha256 state result
  · rw [hsame]
    exact h
  · rw [hcreated]
    refine ⟨h.stored.insert ⟨rfl, hvalid⟩, ?_, fun tenantId => ?_⟩
    · exact Std.ExtTreeMap.size_insert_le.trans hsize
    · unfold tenantCount at hcount ⊢
      rw [BTreeMap.length_filter_keys_insert _ hnone]
      by_cases htenant : result.logicalKey.tenantId = tenantId
      · subst htenant
        rw [if_pos (beq_iff_eq.mpr rfl)]
        exact hcount
      · rw [if_neg (by rwa [beq_iff_eq])]
        exact h.tenantCount_le tenantId
  · rw [hmatch]
    exact h

/-- The invariant holds in every reachable state. -/
theorem inv_final (store : InMemoryEvaluationStore) (sha256 : Sha256) (trace : List Call) :
    Inv store sha256 ((store.machine sha256).final ∅ trace) := by
  refine Machine.invariant_final (fun state call h => ?_) Inv.empty trace
  cases call with
  | createOrMatch result => exact h.createOrMatch result
  | get tenantId key => exact h
  | list tenantId => exact h

theorem resultDigest_of_validateResult {result : EvaluationResultV1}
    (h : validateResult sha256 result = .ok ()) :
    resultDigest sha256 result = .ok result.contentHash := by
  rw [contentHash_eq h]
  exact @digest_eq sha256 (.result result) h

/-! ## Reads -/

theorem get_of_tenant {tenantId : String} {key : LogicalEvaluationKey} {result : EvaluationResultV1}
    (h : Inv store sha256 state) (hget : get state tenantId key = .ok (some result)) :
    state[key]? = some result ∧ result.logicalKey.tenantId = tenantId := by
  unfold get at hget
  by_cases htenant : key.tenantId = tenantId
  · rw [if_pos htenant] at hget
    have hstored := Except.ok.inj hget
    exact ⟨hstored, by rw [(h.stored key result hstored).1, htenant]⟩
  · rw [if_neg htenant] at hget
    cases Except.ok.inj hget

/-- The list holds what is stored for the tenant, no more and no less. -/
theorem mem_list {tenantId : String} (h : Inv store sha256 state) :
    ∃ results, list state tenantId = .ok results ∧ ∀ result, result ∈ results ↔
      state[result.logicalKey]? = some result ∧ result.logicalKey.tenantId = tenantId := by
  refine ⟨_, rfl, fun result => ?_⟩
  rw [List.mem_filter, beq_iff_eq, List.mem_map]
  constructor
  · rintro ⟨⟨⟨key, stored⟩, hentry, rfl⟩, htenant⟩
    have hstored := BTreeMap.mem_toList.mp hentry
    rw [(h.stored key stored hstored).1]
    exact ⟨hstored, by rwa [← (h.stored key stored hstored).1]⟩
  · rintro ⟨hstored, htenant⟩
    exact ⟨⟨(result.logicalKey, result), BTreeMap.mem_toList.mpr hstored, rfl⟩, htenant⟩

/-! ## Evaluating again -/

/-- A write that is not refused leaves its content under the key. -/
theorem stored_of_createOrMatch {result : EvaluationResultV1} {answer : CreateOrMatch}
    (h : (store.createOrMatch sha256 state result).1 = .ok answer) (hanswer : answer ≠ .conflict) :
    ∃ stored, (store.createOrMatch sha256 state result).2[result.logicalKey]? = some stored ∧
      stored.contentHash = result.contentHash := by
  obtain ⟨⟨error, herror⟩, -⟩ | ⟨-, -, -, -, hcreated⟩ | ⟨existing, hfound, hmatch⟩ :=
    createOrMatch_cases store sha256 state result
  · rw [herror] at h
    cases h
  · rw [hcreated]
    exact ⟨result, Std.ExtTreeMap.getElem?_insert_self, rfl⟩
  · rw [hmatch] at h ⊢
    by_cases hsame : existing.contentHash = result.contentHash
    · exact ⟨existing, hfound, hsame⟩
    · rw [if_neg hsame] at h
      exact absurd (Except.ok.inj h).symm hanswer

theorem evaluate_congr {reader reader' : WorkflowEvidenceReader} {tenantId runId : String}
    (h : reader' tenantId runId = reader tenantId runId) (definition : EvaluationDefinitionV1) :
    evaluate sha256 reader' tenantId runId definition =
      evaluate sha256 reader tenantId runId definition := by
  unfold evaluate
  rw [h]

theorem evaluateAndStore_again {reader reader' : WorkflowEvidenceReader} {tenantId runId : String}
    {definition : EvaluationDefinitionV1} {answer : CreateOrMatch}
    (hevidence : reader' tenantId runId = reader tenantId runId)
    (h : (store.evaluateAndStore sha256 state reader tenantId runId definition).1 = .ok answer)
    (hanswer : answer ≠ .conflict) (trace : List Call) :
    ∃ stored, (store.evaluateAndStore sha256 ((store.machine sha256).final
      (store.evaluateAndStore sha256 state reader tenantId runId definition).2 trace)
      reader' tenantId runId definition).1 = .ok (.existing stored) := by
  unfold evaluateAndStore at h ⊢
  rw [evaluate_congr hevidence]
  cases hresult : evaluate sha256 reader tenantId runId definition with
  | error error =>
    rw [hresult] at h
    cases h
  | ok result =>
    rw [hresult] at h
    obtain ⟨stored, hstored, hhash⟩ := stored_of_createOrMatch h hanswer
    have hlater := keeps_final store sha256 _ trace _ _ hstored
    have hvalid := validateResult_evaluate hresult
    simp only [createOrMatch_of_stored hlater, hvalid, Except.map, if_pos hhash]
    exact ⟨stored, rfl⟩

/-- Over every run: what is stored stays as it was written, carries its own digest and belongs to
its key; the capacities hold; a stored key is answered whatever the capacities, and only an invalid
result is refused; a tenant reads its own results; a failed write changes nothing; and evidence that
has not changed is stored once. -/
theorem store_writeOnce (store : InMemoryEvaluationStore) (sha256 : Sha256) (trace : List Call) :
    let state := (store.machine sha256).final ∅ trace
    (∀ later, Keeps state ((store.machine sha256).final state later)) ∧
    (∀ (key : LogicalEvaluationKey) (result : EvaluationResultV1), state[key]? = some result →
      resultDigest sha256 result = .ok result.contentHash) ∧
    (state.size ≤ store.maxResultsGlobal ∧
      ∀ tenantId, tenantCount state tenantId ≤ store.maxResultsPerTenant) ∧
    (∀ result existing : EvaluationResultV1, state[result.logicalKey]? = some existing →
      (store.createOrMatch sha256 state result).1 = (validateResult sha256 result).map fun _ =>
        if existing.contentHash = result.contentHash then .existing existing else .conflict) ∧
    (∀ tenantId key result, get state tenantId key = .ok (some result) →
      result.logicalKey.tenantId = tenantId) ∧
    (∀ tenantId, ∃ results, list state tenantId = .ok results ∧
      ∀ result, result ∈ results ↔ state[result.logicalKey]? = some result ∧
        result.logicalKey.tenantId = tenantId) ∧
    (∀ result error, (store.createOrMatch sha256 state result).1 = .error error →
      (store.createOrMatch sha256 state result).2 = state) ∧
    ∀ (reader reader' : WorkflowEvidenceReader) (tenantId runId : String)
      (definition : EvaluationDefinitionV1) (answer : CreateOrMatch),
      reader' tenantId runId = reader tenantId runId →
      (store.evaluateAndStore sha256 state reader tenantId runId definition).1 = .ok answer →
      answer ≠ .conflict → ∀ later, ∃ stored,
        (store.evaluateAndStore sha256 ((store.machine sha256).final
          (store.evaluateAndStore sha256 state reader tenantId runId definition).2 later)
          reader' tenantId runId definition).1 = .ok (.existing stored) := by
  intro state
  have hinv : Inv store sha256 state := inv_final store sha256 trace
  refine ⟨keeps_final store sha256 state, fun key result hstored => ?_,
    ⟨hinv.size_le, hinv.tenantCount_le⟩, fun result existing hstored => ?_,
    fun tenantId key result hget => (get_of_tenant hinv hget).2, fun tenantId => mem_list hinv,
    fun result error herror => createOrMatch_of_error herror, ?_⟩
  · exact resultDigest_of_validateResult (hinv.stored key result hstored).2
  · rw [createOrMatch_of_stored hstored]
  · intro reader reader' tenantId runId definition answer hevidence hanswer hconflict later
    exact evaluateAndStore_again hevidence hanswer hconflict later

example : (withCapacities 1 1).isOk = true ∧ (withCapacities 2 1).isOk = false := by decide +kernel

/-- A full store answers the result of the golden vectors again. -/
theorem store_writeOnce_golden :
    ∃ store : InMemoryEvaluationStore, InMemoryEvaluationStore.withCapacities 1 1 = .ok store ∧
    ((store.machine evaluationSha256).final ∅ [.createOrMatch sampleResult]).size =
      store.maxResultsGlobal ∧
    (store.createOrMatch evaluationSha256
      ((store.machine evaluationSha256).final ∅ [.createOrMatch sampleResult]) sampleResult).1 =
        .ok (.existing sampleResult) := by
  refine ⟨⟨1, 1, by decide⟩, rfl, by decide +kernel, ?_⟩
  obtain ⟨-, -, -, hanswered, -⟩ := store_writeOnce ⟨1, 1, by decide⟩ evaluationSha256
    [.createOrMatch sampleResult]
  rw [hanswered sampleResult sampleResult (by decide +kernel), if_pos rfl]
  have hvalid : validateResult evaluationSha256 sampleResult = .ok () := by decide +kernel
  rw [hvalid]
  rfl

end InMemoryEvaluationStore

end RustFactory.Evaluation
