import RustFactory.Lib.Update
import RustFactory.Storage.Listing

/-!
# Storage: writes statement by statement

The local adapter writes to its state in place, one field after the other, and the redb adapter to
the tables of a transaction, whose library may fail at every call.  In both, a write that fails, or
that finds its condition unmet or nothing to delete, leaves everything as it was: the local adapter
has made all its checks before the first write, and the transaction is dropped without a commit.
-/

namespace RustFactory.Storage

open RustFactory.Lib

/-! ## The local adapter in place -/

namespace Local

/-- The put of the adapter in memory, statement by statement. -/
def putInPlace (limits : StorageLimits) (scope : StorageScope) (key : ObjectKey)
    (value : ObjectValue) (condition : PutCondition) : Update State StorageError PutOutcome := do
  let state ← Update.read
  let id := identity scope key
  let current := state.objects[id]?
  if !condition.holds (current.map Entry.version) then
    return .conflict
  let revision ← Update.check (okOr .revisionExhausted (checkedAdd state.revision 1))
  let version ← Update.check (ObjectVersion.fromRevision revision)
  let oldBytes ← Update.check (current.mapM fun entry => valueBytes entry.value)
  let newBytes ← Update.check (valueBytes value)
  let held := state.tenants[scope.tenantId]?.getD default
  let (tenant, global) ← Update.check
    (checkedPutCounters .operationFailed limits held state.global oldBytes newBytes)
  let created := current.isNone
  Update.write fun state => { state with objects := state.objects.insert id ⟨version, value⟩ }
  Update.write fun state => { state with tenants := state.tenants.insert scope.tenantId tenant }
  Update.write fun state => { state with global }
  Update.write fun state => { state with revision }
  return if created then .created version else .replaced version

/-- The delete of the adapter in memory, statement by statement. -/
def deleteInPlace (scope : StorageScope) (key : ObjectKey) (condition : DeleteCondition) :
    Update State StorageError DeleteOutcome := do
  let state ← Update.read
  let id := identity scope key
  match state.objects[id]? with
  | none => return .notFound
  | some current =>
    if !condition.holds current.version then
      return .conflict
    let oldBytes ← Update.check (valueBytes current.value)
    let held ← Update.check (okOr .operationFailed state.tenants[scope.tenantId]?)
    let tenant ← Update.check (checkedDeleteCounters .operationFailed held oldBytes)
    let global ← Update.check (checkedDeleteCounters .operationFailed state.global oldBytes)
    if tenant.objects = 0 ∧ tenant.valueBytes ≠ 0 then
      throw .operationFailed
    Update.write fun state => { state with objects := state.objects.erase id }
    if tenant.objects = 0 then
      Update.write fun state => { state with tenants := state.tenants.erase scope.tenantId }
    else
      Update.write fun state => { state with tenants := state.tenants.insert scope.tenantId tenant }
    Update.write fun state => { state with global }
    return .deleted

theorem putInPlace_eq (limits : StorageLimits) (scope : StorageScope) (key : ObjectKey)
    (value : ObjectValue) (condition : PutCondition) (s : State) :
    (putInPlace limits scope key value condition).exec s =
      Update.keeping s (put limits s scope key value condition) := by
  unfold putInPlace put
  rw [Update.exec_read_bind]
  by_cases hholds : condition.holds (s.objects[identity scope key]?.map Entry.version)
  · simp only [hholds, Bool.not_true, Bool.false_eq_true, if_false, if_true]
    refine Update.exec_check_keeping fun revision => ?_
    refine Update.exec_check_keeping fun version => ?_
    refine Update.exec_check_keeping fun oldBytes => ?_
    refine Update.exec_check_keeping fun newBytes => ?_
    refine Update.exec_check_keeping fun counters => ?_
    rfl
  · simp only [hholds, Bool.not_false, if_true, Bool.false_eq_true, if_false]
    rfl

theorem deleteInPlace_eq (scope : StorageScope) (key : ObjectKey) (condition : DeleteCondition)
    (s : State) :
    (deleteInPlace scope key condition).exec s =
      Update.keeping s (delete s scope key condition) := by
  unfold deleteInPlace delete
  rw [Update.exec_read_bind]
  cases hcurrent : s.objects[identity scope key]? with
  | none => simp only [hcurrent]; rfl
  | some current =>
    simp only [hcurrent]
    by_cases hholds : condition.holds current.version
    · simp only [hholds, Bool.not_true, Bool.false_eq_true, if_false, if_true]
      refine Update.exec_check_keeping fun oldBytes => ?_
      refine Update.exec_check_keeping fun held => ?_
      refine Update.exec_check_keeping fun tenant => ?_
      refine Update.exec_check_keeping fun global => ?_
      by_cases hinconsistent : tenant.objects = 0 ∧ tenant.valueBytes ≠ 0
      · rw [if_pos hinconsistent, if_pos hinconsistent]
        rfl
      · rw [if_neg hinconsistent, if_neg hinconsistent]
        by_cases hzero : tenant.objects = 0
        · simp only [if_pos hzero]
          rfl
        · simp only [if_neg hzero]
          rfl
    · simp only [hholds, Bool.not_false, if_true, Bool.false_eq_true, if_false]
      rfl

theorem eq_of_put_conflict {limits : StorageLimits} {s s' : State} {scope : StorageScope}
    {key : ObjectKey} {value : ObjectValue} {condition : PutCondition}
    (h : put limits s scope key value condition = .ok (.conflict, s')) : s' = s := by
  rcases put_ok h with ⟨-, -, hsame⟩ | ⟨version, tenant, global, -, -, -, houtcome, -⟩
  · exact hsame
  · split_ifs at houtcome

theorem eq_of_delete {s s' : State} {scope : StorageScope} {key : ObjectKey}
    {condition : DeleteCondition} {outcome : DeleteOutcome}
    (h : delete s scope key condition = .ok (outcome, s')) (houtcome : outcome ≠ .deleted) :
    s' = s := by
  rcases delete_ok h with ⟨-, -, hsame⟩ | ⟨current, -, -, -, hsame⟩ |
    ⟨current, row, tenant, global, -, -, -, -, -, hdeleted, -⟩
  · exact hsame
  · exact hsame
  · exact absurd hdeleted houtcome

end Local

/-! ## The redb adapter in a transaction -/

namespace Redb

/-- A write transaction: its own tables, and the number of calls of the library so far. -/
structure Transaction where
  tables : Db
  calls : ℕ

/-- Which calls of the library fail, and with what. -/
abbrev Faults := ℕ → Option StorageError

def noFaults : Faults := fun _ => none

/-- The part of an operation between the begin and the commit. -/
abbrev Body := Update Transaction StorageError

/-- How a body is left: by a return, which drops the transaction, or at its end. -/
inductive Exit (α : Type) where
  | returned (outcome : α)
  | reached (outcome : α)

/-- A call of the database, which may fail. -/
def call (faults : Faults) : Body PUnit := do
  let transaction ← Update.read
  Update.write fun transaction => { transaction with calls := transaction.calls + 1 }
  Update.check (match faults transaction.calls with
    | some e => .error e
    | none => .ok ⟨⟩)

def getRow (faults : Faults) (table : Db → BTreeMap Bytes Bytes) (key : Bytes) :
    Body (Option Bytes) := do
  call faults
  let transaction ← Update.read
  return (table transaction.tables)[key]?

/-- A write to the tables of the transaction. -/
def writeRow (faults : Faults) (change : Db → Db) : Body PUnit := do
  call faults
  Update.write fun transaction => { transaction with tables := change transaction.tables }

/-- Reads the revision and the global counters. -/
def readMetadataRows (faults : Faults) : Body (UInt64 × Counters) := do
  call faults
  let transaction ← Update.read
  if transaction.tables.metadata.size ≠ 3 then
    throw .corruptStore
  let schemaRow ← getRow faults Db.metadata metaSchema
  let schemaRow ← Update.check (okOr .corruptStore schemaRow)
  if schemaRow ≠ [schema] then
    throw .corruptStore
  let revisionRow ← getRow faults Db.metadata metaRevision
  let revisionRow ← Update.check (okOr .corruptStore revisionRow)
  let revision ← Update.check (decodeRevision revisionRow)
  let globalRow ← getRow faults Db.metadata metaGlobal
  let globalRow ← Update.check (okOr .corruptStore globalRow)
  let global ← Update.check (decodeCounters globalRow false)
  return (revision, global)

/-- What is left of a transaction: `commit` where the end of the body is reached. -/
def finish {α : Type} (faults : Faults) (db : Db) :
    Except StorageError (Exit α) × Transaction → Except StorageError α × Db
  | (.error e, _) => (.error e, db)
  | (.ok (.returned outcome), _) => (.ok outcome, db)
  | (.ok (.reached outcome), transaction) =>
    match faults transaction.calls with
    | some e => (.error e, db)
    | none => (.ok outcome, transaction.tables)

/-- `begin_write`, the body and the end of the transaction. -/
def transact {α : Type} (faults : Faults) (db : Db) (body : Body (Exit α)) :
    Except StorageError α × Db :=
  finish faults db ((call faults >>= fun _ => body).exec ⟨db, 0⟩)

/-- Opens the tables of a transaction. -/
def openTables (faults : Faults) : Body PUnit := do
  call faults
  call faults
  call faults

/-- What a put does within its transaction. -/
def putBody (faults : Faults) (limits : StorageLimits) (value : ObjectValue)
    (condition : PutCondition) (objectKey tenantKey : Bytes) (newBytes : UInt64) :
    Body (Exit PutOutcome) := do
  openTables faults
  let current ← getRow faults Db.objects objectKey
  let currentDecoded ← Update.check (current.mapM decodeObjectValue)
  if !condition.holds (currentDecoded.map Prod.fst) then
    return .returned .conflict
  let (revision, global) ← readMetadataRows faults
  let revision ← Update.check (okOr .revisionExhausted (checkedAdd revision 1))
  let version ← Update.check (ObjectVersion.fromRevision revision)
  let tenantRow ← getRow faults Db.quotas tenantKey
  let tenant ← Update.check (heldCounters tenantRow)
  let oldBytes ← Update.check (currentDecoded.mapM fun held =>
    okOr .corruptStore (u64TryFrom held.2.asBytes.length))
  let (tenant, global) ← Update.check
    (checkedPutCounters .corruptStore limits tenant global oldBytes newBytes)
  let encodedValue ← Update.check (encodeObjectValue version value)
  writeRow faults fun db => { db with objects := db.objects.insert objectKey encodedValue }
  writeRow faults fun db => { db with quotas := db.quotas.insert tenantKey (encodeCounters tenant) }
  writeRow faults fun db =>
    { db with metadata := db.metadata.insert metaRevision (encodeRevision revision) }
  writeRow faults fun db =>
    { db with metadata := db.metadata.insert metaGlobal (encodeCounters global) }
  return .reached (if current.isNone then .created version else .replaced version)

/-- The put of the durable adapter, with its transaction. -/
def putTransaction (faults : Faults) (limits : StorageLimits) (db : Db) (scope : StorageScope)
    (key : ObjectKey) (value : ObjectValue) (condition : PutCondition) :
    Except StorageError PutOutcome × Db :=
  match (do
    let objectKey ← encodeObjectKey scope key
    let tenantKey ← encodeTenantKey scope.tenantId
    let newBytes ← okOr .operationFailed (u64TryFrom value.asBytes.length)
    .ok (objectKey, tenantKey, newBytes) : Except StorageError (Bytes × Bytes × UInt64)) with
  | .error e => (.error e, db)
  | .ok (objectKey, tenantKey, newBytes) =>
    transact faults db (putBody faults limits value condition objectKey tenantKey newBytes)

/-- What a delete does within its transaction. -/
def deleteBody (faults : Faults) (condition : DeleteCondition) (objectKey tenantKey : Bytes) :
    Body (Exit DeleteOutcome) := do
  openTables faults
  let encodedCurrent ← getRow faults Db.objects objectKey
  match encodedCurrent with
  | none => return .returned .notFound
  | some encodedCurrent =>
    let (version, value) ← Update.check (decodeObjectValue encodedCurrent)
    if !condition.holds version then
      return .returned .conflict
    let (_, global) ← readMetadataRows faults
    let tenantValue ← getRow faults Db.quotas tenantKey
    let tenantValue ← Update.check (okOr .corruptStore tenantValue)
    let tenant ← Update.check (decodeCounters tenantValue true)
    let bytes ← Update.check (okOr .corruptStore (u64TryFrom value.asBytes.length))
    let tenant ← Update.check (checkedDeleteCounters .corruptStore tenant bytes)
    let global ← Update.check (checkedDeleteCounters .corruptStore global bytes)
    if tenant.objects = 0 ∧ tenant.valueBytes ≠ 0 then
      throw .corruptStore
    writeRow faults fun db => { db with objects := db.objects.erase objectKey }
    if tenant.objects = 0 then
      writeRow faults fun db => { db with quotas := db.quotas.erase tenantKey }
    else
      writeRow faults fun db =>
        { db with quotas := db.quotas.insert tenantKey (encodeCounters tenant) }
    writeRow faults fun db =>
      { db with metadata := db.metadata.insert metaGlobal (encodeCounters global) }
    return .reached .deleted

/-- The delete of the durable adapter, with its transaction. -/
def deleteTransaction (faults : Faults) (db : Db) (scope : StorageScope) (key : ObjectKey)
    (condition : DeleteCondition) : Except StorageError DeleteOutcome × Db :=
  match (do
    let objectKey ← encodeObjectKey scope key
    let tenantKey ← encodeTenantKey scope.tenantId
    .ok (objectKey, tenantKey) : Except StorageError (Bytes × Bytes)) with
  | .error e => (.error e, db)
  | .ok (objectKey, tenantKey) =>
    transact faults db (deleteBody faults condition objectKey tenantKey)

/-! ## A transaction takes place as a whole or not at all -/

/-- A call of the library failed, and the tables are as they were. -/
def Faulted {α : Type} (faults : Faults) (db : Db) (result : Except StorageError α × Db) : Prop :=
  ∃ n e, faults n = some e ∧ result = (.error e, db)

/-- From these tables on, the body amounts to the pure function, or a call of the library fails. -/
def Agrees {α : Type} (faults : Faults) (db tables : Db) (body : Body (Exit α))
    (p : Except StorageError (α × Db)) : Prop :=
  ∀ n, Faulted faults db (finish faults db (body.exec ⟨tables, n⟩)) ∨
    finish faults db (body.exec ⟨tables, n⟩) = Update.keeping db p

section Rules

variable {α β : Type} {faults : Faults} {db tables : Db}

theorem exec_call (f : PUnit → Body α) (n : ℕ) :
    Update.exec (call faults >>= f) ⟨tables, n⟩ = match faults n with
      | some e => (.error e, ⟨tables, n + 1⟩)
      | none => Update.exec (f ⟨⟩) ⟨tables, n + 1⟩ := by
  rw [Update.exec_bind]
  unfold call
  rw [Update.exec_read_bind, Update.exec_write_bind]
  cases faults n <;> rfl

theorem Agrees.call {f : PUnit → Body (Exit α)} {p : Except StorageError (α × Db)}
    (h : Agrees faults db tables (f ⟨⟩) p) : Agrees faults db tables (call faults >>= f) p := by
  intro n
  rw [exec_call]
  cases hfault : faults n with
  | some e => exact .inl ⟨n, e, hfault, rfl⟩
  | none => exact h (n + 1)

theorem Agrees.check {x : Except StorageError β} {f : β → Body (Exit α)}
    {g : β → Except StorageError (α × Db)} (h : ∀ b, Agrees faults db tables (f b) (g b)) :
    Agrees faults db tables (Update.check x >>= f) (x >>= g) := by
  intro n
  cases x with
  | error e => exact .inr rfl
  | ok b => exact h b n

theorem Agrees.read {f : Transaction → Body (Exit α)} {p : Except StorageError (α × Db)}
    (h : ∀ n, Agrees faults db tables (f ⟨tables, n⟩) p) :
    Agrees faults db tables (Update.read >>= f) p :=
  fun n => h n n

theorem Agrees.getRow {table : Db → BTreeMap Bytes Bytes} {key : Bytes}
    {f : Option Bytes → Body (Exit α)} {p : Except StorageError (α × Db)}
    (h : Agrees faults db tables (f (table tables)[key]?) p) :
    Agrees faults db tables (getRow faults table key >>= f) p := by
  unfold Redb.getRow
  rw [bind_assoc]
  exact Agrees.call h

theorem Agrees.writeRow {change : Db → Db} {f : PUnit → Body (Exit α)}
    {p : Except StorageError (α × Db)} (h : Agrees faults db (change tables) (f ⟨⟩) p) :
    Agrees faults db tables (writeRow faults change >>= f) p := by
  unfold Redb.writeRow
  rw [bind_assoc]
  exact Agrees.call h

theorem Agrees.throw (e : StorageError) :
    Agrees faults db tables (throw e : Body (Exit α)) (.error e) :=
  fun _ => .inr rfl

theorem Agrees.returned (outcome : α) :
    Agrees faults db tables (pure (.returned outcome)) (.ok (outcome, db)) :=
  fun _ => .inr rfl

theorem Agrees.reached (outcome : α) :
    Agrees faults db tables (pure (.reached outcome)) (.ok (outcome, tables)) := by
  intro n
  rw [Update.exec_pure]
  unfold finish
  cases hfault : faults n with
  | some e => exact .inl ⟨n, e, hfault, by simp only [hfault]⟩
  | none => exact .inr (by simp only [hfault]; rfl)

theorem Agrees.openTables {f : PUnit → Body (Exit α)} {p : Except StorageError (α × Db)}
    (h : Agrees faults db tables (f ⟨⟩) p) :
    Agrees faults db tables (openTables faults >>= f) p := by
  unfold Redb.openTables
  rw [bind_assoc, bind_assoc]
  exact Agrees.call (Agrees.call (Agrees.call h))

theorem Agrees.readMetadataRows {f : UInt64 × Counters → Body (Exit α)}
    {g : UInt64 × Counters → Except StorageError (α × Db)}
    (h : ∀ held, Agrees faults db tables (f held) (g held)) :
    Agrees faults db tables (readMetadataRows faults >>= f)
      (readMetadata tables.metadata >>= g) := by
  unfold Redb.readMetadataRows readMetadata
  rw [bind_assoc]
  refine Agrees.call ?_
  rw [bind_assoc]
  refine Agrees.read fun n => ?_
  by_cases hsize : tables.metadata.size ≠ 3
  · rw [if_pos hsize, if_pos hsize]
    exact Agrees.throw _
  · rw [if_neg hsize, if_neg hsize]
    simp only [bind_assoc]
    refine Agrees.getRow ?_
    refine Agrees.check fun schemaRow => ?_
    by_cases hschema : schemaRow ≠ [schema]
    · rw [if_pos hschema, if_pos hschema]
      exact Agrees.throw _
    · rw [if_neg hschema, if_neg hschema]
      simp only [bind_assoc]
      refine Agrees.getRow ?_
      refine Agrees.check fun revisionRow => ?_
      refine Agrees.check fun revision => ?_
      refine Agrees.getRow ?_
      refine Agrees.check fun globalRow => ?_
      refine Agrees.check fun global => ?_
      exact h (revision, global)

end Rules

/-- What a write does: a call of the library fails, or the tables change as the pure function says
if it succeeds. -/
theorem Agrees.transact {α : Type} {faults : Faults} {db : Db} {body : Body (Exit α)}
    {p : Except StorageError (α × Db)} (h : Agrees faults db db body p) :
    Faulted faults db (transact faults db body) ∨
      Redb.transact faults db body = Update.keeping db p :=
  Agrees.call (f := fun _ => body) h 0

theorem putTransaction_cases (faults : Faults) (limits : StorageLimits) (db : Db)
    (scope : StorageScope) (key : ObjectKey) (value : ObjectValue) (condition : PutCondition) :
    Faulted faults db (putTransaction faults limits db scope key value condition) ∨
      putTransaction faults limits db scope key value condition =
        Update.keeping db (put limits db scope key value condition) := by
  unfold putTransaction put
  rw [encodeObjectKey_eq, encodeTenantKey_eq, value.u64TryFrom_length, okOr_some]
  simp only [ok_bind]
  refine Agrees.transact ?_
  unfold putBody
  refine Agrees.openTables ?_
  refine Agrees.getRow ?_
  refine Agrees.check fun currentDecoded => ?_
  by_cases hholds : condition.holds (currentDecoded.map Prod.fst)
  · simp only [hholds, Bool.not_true, Bool.false_eq_true, if_false, if_true]
    refine Agrees.readMetadataRows fun (revision, global) => ?_
    refine Agrees.check fun revision => ?_
    refine Agrees.check fun version => ?_
    refine Agrees.getRow ?_
    refine Agrees.check fun tenant => ?_
    refine Agrees.check fun oldBytes => ?_
    refine Agrees.check fun (tenant, global) => ?_
    refine Agrees.check fun encodedValue => ?_
    refine Agrees.writeRow ?_
    refine Agrees.writeRow ?_
    refine Agrees.writeRow ?_
    refine Agrees.writeRow ?_
    exact Agrees.reached _
  · simp only [hholds, Bool.not_false, if_true, Bool.false_eq_true, if_false]
    exact Agrees.returned _

theorem deleteTransaction_cases (faults : Faults) (db : Db) (scope : StorageScope)
    (key : ObjectKey) (condition : DeleteCondition) :
    Faulted faults db (deleteTransaction faults db scope key condition) ∨
      deleteTransaction faults db scope key condition =
        Update.keeping db (delete db scope key condition) := by
  unfold deleteTransaction delete
  rw [encodeObjectKey_eq, encodeTenantKey_eq]
  simp only [ok_bind]
  refine Agrees.transact ?_
  unfold deleteBody
  refine Agrees.openTables ?_
  refine Agrees.getRow ?_
  cases db.objects[objectKeyBytes scope key]? with
  | none => exact Agrees.returned _
  | some encodedCurrent =>
    refine Agrees.check fun (version, value) => ?_
    by_cases hholds : condition.holds version
    · simp only [hholds, Bool.not_true, Bool.false_eq_true, if_false, if_true]
      refine Agrees.readMetadataRows fun (revision, global) => ?_
      refine Agrees.getRow ?_
      refine Agrees.check fun tenantValue => ?_
      refine Agrees.check fun tenant => ?_
      refine Agrees.check fun bytes => ?_
      refine Agrees.check fun tenant => ?_
      refine Agrees.check fun global => ?_
      by_cases hinconsistent : tenant.objects = 0 ∧ tenant.valueBytes ≠ 0
      · rw [if_pos hinconsistent, if_pos hinconsistent]
        exact Agrees.throw _
      · rw [if_neg hinconsistent, if_neg hinconsistent]
        refine Agrees.writeRow ?_
        by_cases hzero : tenant.objects = 0
        · simp only [if_pos hzero]
          refine Agrees.writeRow ?_
          refine Agrees.writeRow ?_
          exact Agrees.reached _
        · simp only [if_neg hzero]
          refine Agrees.writeRow ?_
          refine Agrees.writeRow ?_
          exact Agrees.reached _
    · simp only [hholds, Bool.not_false, if_true, Bool.false_eq_true, if_false]
      exact Agrees.returned _

section Kept

variable {α : Type} {faults : Faults} {db : Db} {result : Except StorageError α × Db}
  {p : Except StorageError (α × Db)}

theorem kept_of_error (hcases : Faulted faults db result ∨ result = Update.keeping db p)
    {e : StorageError} (h : result.1 = .error e) : result.2 = db := by
  rcases hcases with ⟨n, e, -, rfl⟩ | rfl
  · rfl
  · exact Update.keeping_of_error h

theorem kept_of_ok (hcases : Faulted faults db result ∨ result = Update.keeping db p)
    {outcome : α} (h : result.1 = .ok outcome)
    (hkeeps : ∀ db', p = .ok (outcome, db') → db' = db) : result.2 = db := by
  rcases hcases with ⟨n, e, -, rfl⟩ | rfl
  · rfl
  · exact Update.keeping_of_ok h hkeeps

end Kept

theorem not_faulted_noFaults {α : Type} {db : Db} {result : Except StorageError α × Db} :
    ¬Faulted noFaults db result := by
  rintro ⟨n, e, hfault, -⟩
  cases hfault

theorem putTransaction_noFaults (limits : StorageLimits) (db : Db) (scope : StorageScope)
    (key : ObjectKey) (value : ObjectValue) (condition : PutCondition) :
    putTransaction noFaults limits db scope key value condition =
      Update.keeping db (put limits db scope key value condition) :=
  (putTransaction_cases noFaults limits db scope key value condition).resolve_left
    not_faulted_noFaults

theorem deleteTransaction_noFaults (db : Db) (scope : StorageScope) (key : ObjectKey)
    (condition : DeleteCondition) :
    deleteTransaction noFaults db scope key condition =
      Update.keeping db (delete db scope key condition) :=
  (deleteTransaction_cases noFaults db scope key condition).resolve_left not_faulted_noFaults

/-! ## Outcomes without an effect -/

theorem eq_of_put_conflict {limits : StorageLimits} {db db' : Db} {scope : StorageScope}
    {key : ObjectKey} {value : ObjectValue} {condition : PutCondition}
    (h : put limits db scope key value condition = .ok (.conflict, db')) : db' = db := by
  unfold put at h
  obtain ⟨objectKey, -, h⟩ := bind_eq_ok.mp h
  obtain ⟨tenantKey, -, h⟩ := bind_eq_ok.mp h
  obtain ⟨newBytes, -, h⟩ := bind_eq_ok.mp h
  obtain ⟨currentDecoded, -, h⟩ := bind_eq_ok.mp h
  by_cases hholds : condition.holds (currentDecoded.map Prod.fst)
  · rw [if_pos hholds] at h
    obtain ⟨⟨revision, global⟩, -, h⟩ := bind_eq_ok.mp h
    obtain ⟨revision, -, h⟩ := bind_eq_ok.mp h
    obtain ⟨version, -, h⟩ := bind_eq_ok.mp h
    obtain ⟨tenant, -, h⟩ := bind_eq_ok.mp h
    obtain ⟨oldBytes, -, h⟩ := bind_eq_ok.mp h
    obtain ⟨⟨tenant, global⟩, -, h⟩ := bind_eq_ok.mp h
    obtain ⟨encodedValue, -, h⟩ := bind_eq_ok.mp h
    have houtcome := congrArg Prod.fst (Except.ok.inj h)
    dsimp only at houtcome
    split_ifs at houtcome
  · rw [if_neg hholds] at h
    cases h
    rfl

theorem eq_of_delete {db db' : Db} {scope : StorageScope} {key : ObjectKey}
    {condition : DeleteCondition} {outcome : DeleteOutcome}
    (h : delete db scope key condition = .ok (outcome, db')) (houtcome : outcome ≠ .deleted) :
    db' = db := by
  unfold delete at h
  obtain ⟨objectKey, -, h⟩ := bind_eq_ok.mp h
  obtain ⟨tenantKey, -, h⟩ := bind_eq_ok.mp h
  cases hcurrent : db.objects[objectKey]? with
  | none =>
    rw [hcurrent] at h
    cases h
    rfl
  | some encodedCurrent =>
    rw [hcurrent] at h
    obtain ⟨⟨version, held⟩, -, h⟩ := bind_eq_ok.mp h
    by_cases hholds : condition.holds version
    · simp only [if_pos hholds] at h
      obtain ⟨⟨revision, global⟩, -, h⟩ := bind_eq_ok.mp h
      obtain ⟨tenantValue, -, h⟩ := bind_eq_ok.mp h
      obtain ⟨tenant, -, h⟩ := bind_eq_ok.mp h
      obtain ⟨bytes, -, h⟩ := bind_eq_ok.mp h
      obtain ⟨tenant, -, h⟩ := bind_eq_ok.mp h
      obtain ⟨global, -, h⟩ := bind_eq_ok.mp h
      by_cases hinconsistent : tenant.objects = 0 ∧ tenant.valueBytes ≠ 0
      · rw [if_pos hinconsistent] at h
        cases h
      · rw [if_neg hinconsistent] at h
        exact absurd (congrArg Prod.fst (Except.ok.inj h)).symm houtcome
    · simp only [if_neg hholds] at h
      cases h
      rfl

/-! ## The condition comes first -/

section Condition

variable {db : Db} {scope : StorageScope} {key : ObjectKey}

/-- What `get` answers is what a write decodes. -/
theorem row_of_get {current : Option StoredObject} (h : get db scope key = .ok current) :
    (current = none ∧ db.objects[objectKeyBytes scope key]? = none) ∨
      ∃ row version value, current = some ⟨version, value⟩ ∧
        db.objects[objectKeyBytes scope key]? = some row ∧
        decodeObjectValue row = .ok (version, value) := by
  unfold get at h
  rw [encodeObjectKey_eq, ok_bind] at h
  cases hrow : db.objects[objectKeyBytes scope key]? with
  | none =>
    rw [hrow] at h
    cases h
    exact .inl ⟨rfl, rfl⟩
  | some row =>
    rw [hrow] at h
    cases hdecode : decodeObjectValue row with
    | error e =>
      rw [Option.mapM_some, hdecode] at h
      cases h
    | ok held =>
      rw [Option.mapM_some, hdecode] at h
      cases h
      exact .inr ⟨row, held.1, held.2, rfl, rfl, hdecode⟩

theorem put_of_not_holds {current : Option StoredObject} {condition : PutCondition}
    (hget : get db scope key = .ok current)
    (hholds : condition.holds (current.map StoredObject.version) = false) (limits : StorageLimits)
    (value : ObjectValue) : put limits db scope key value condition = .ok (.conflict, db) := by
  unfold put
  rw [encodeObjectKey_eq, encodeTenantKey_eq, value.u64TryFrom_length, okOr_some]
  simp only [ok_bind]
  rcases row_of_get hget with ⟨rfl, hrow⟩ | ⟨row, version, held, rfl, hrow, hdecode⟩
  · rw [hrow]
    exact if_neg fun htrue => absurd (hholds.symm.trans htrue) Bool.false_ne_true
  · rw [hrow, Option.mapM_some, hdecode]
    exact if_neg fun htrue => absurd (hholds.symm.trans htrue) Bool.false_ne_true

theorem delete_of_absent (hget : get db scope key = .ok none) (condition : DeleteCondition) :
    delete db scope key condition = .ok (.notFound, db) := by
  unfold delete
  rw [encodeObjectKey_eq, encodeTenantKey_eq, ok_bind, ok_bind]
  rcases row_of_get hget with ⟨-, hrow⟩ | ⟨row, version, held, hsome, -⟩
  · rw [hrow]
  · cases hsome

theorem delete_of_not_holds {object : StoredObject} {condition : DeleteCondition}
    (hget : get db scope key = .ok (some object))
    (hholds : condition.holds object.version = false) :
    delete db scope key condition = .ok (.conflict, db) := by
  unfold delete
  rw [encodeObjectKey_eq, encodeTenantKey_eq, ok_bind, ok_bind]
  rcases row_of_get hget with ⟨hnone, -⟩ | ⟨row, version, held, hsome, hrow, hdecode⟩
  · cases hnone
  · cases hsome
    rw [hrow]
    simp only [hdecode, ok_bind]
    exact if_neg fun htrue => absurd (hholds.symm.trans htrue) Bool.false_ne_true

end Condition

/-! ## Runs in which the library fails -/

/-- `RedbObjectStore` as a machine whose writes meet the given faults.  Reads change nothing. -/
def faultyStore (limits : StorageLimits) : Machine Db (Faults × Call) Answer where
  step db
    | (faults, .put scope key value condition) =>
      (putTransaction faults limits db scope key value condition).map (Except.map .put) id
    | (faults, .delete scope key condition) =>
      (deleteTransaction faults db scope key condition).map (Except.map .deleted) id
    | (_, .get scope key) => (store limits).step db (.get scope key)
    | (_, .list scope request) => (store limits).step db (.list scope request)

theorem settle_snd {α : Type} (db : Db) (reply : α → Reply) (x : Except StorageError (α × Db)) :
    (settle db reply x).2 = (Update.keeping db x).2 := by
  cases x <;> rfl

/-- A step with faults changes nothing or what the step without them changes. -/
theorem faultyStore_step (limits : StorageLimits) (db : Db) (faults : Faults) (c : Call) :
    ((faultyStore limits).step db (faults, c)).2 = db ∨
      ((faultyStore limits).step db (faults, c)).2 = ((store limits).step db c).2 := by
  cases c with
  | get scope key => exact .inr rfl
  | list scope request => exact .inr rfl
  | put scope key value condition =>
    show (putTransaction faults limits db scope key value condition).2 = db ∨
      (putTransaction faults limits db scope key value condition).2 = (settle db .put _).2
    rcases putTransaction_cases faults limits db scope key value condition with
      ⟨n, e, -, hfault⟩ | hput
    · exact .inl (congrArg Prod.snd hfault)
    · exact .inr (hput ▸ (settle_snd db .put _).symm)
  | delete scope key condition =>
    show (deleteTransaction faults db scope key condition).2 = db ∨
      (deleteTransaction faults db scope key condition).2 = (settle db .deleted _).2
    rcases deleteTransaction_cases faults db scope key condition with ⟨n, e, -, hfault⟩ | hdelete
    · exact .inl (congrArg Prod.snd hfault)
    · exact .inr (hdelete ▸ (settle_snd db .deleted _).symm)

/-- Whatever fails along the way, the tables encode a local state. -/
theorem refines_faultyStore (limits : StorageLimits) (calls : List (Faults × Call)) :
    ∃ s, Refines limits ((faultyStore limits).final initializeTables calls) s := by
  refine Machine.invariant_final (P := fun db => ∃ s, Refines limits db s) ?_
    ⟨_, refines_initializeTables limits⟩ calls
  rintro db ⟨faults, c⟩ ⟨s, href⟩
  rcases faultyStore_step limits db faults c with hsame | hstep
  · rw [hsame]
    exact ⟨s, href⟩
  · rw [hstep]
    exact ⟨_, (step_simulates limits db s c href).2⟩

theorem get_isOk_of_refines {limits : StorageLimits} {db : Db} {s : Local.State}
    (h : Refines limits db s) (scope : StorageScope) (key : ObjectKey) :
    (get db scope key).isOk := by
  rw [get_eq h.2.objects]
  rfl

end Redb

/-! ## Both adapters -/

/-- A write to a store in some state: the answer and the state it leaves. -/
abbrev PutCall (σ : Type) :=
  StorageScope → ObjectKey → ObjectValue → PutCondition → Except StorageError PutOutcome × σ

abbrev DeleteCall (σ : Type) :=
  StorageScope → ObjectKey → DeleteCondition → Except StorageError DeleteOutcome × σ

/-- A write that is answered with an error, a conflict or not-found leaves the whole state. -/
structure KeepsFailed {σ : Type} (s : σ) (put : PutCall σ) (delete : DeleteCall σ) : Prop where
  put_error : ∀ scope key value condition e,
    (put scope key value condition).1 = .error e → (put scope key value condition).2 = s
  put_conflict : ∀ scope key value condition,
    (put scope key value condition).1 = .ok .conflict → (put scope key value condition).2 = s
  delete_error : ∀ scope key condition e,
    (delete scope key condition).1 = .error e → (delete scope key condition).2 = s
  delete_conflict : ∀ scope key condition,
    (delete scope key condition).1 = .ok .conflict → (delete scope key condition).2 = s
  delete_notFound : ∀ scope key condition,
    (delete scope key condition).1 = .ok .notFound → (delete scope key condition).2 = s

/-- A condition that fails on what `get` finds is answered as such, whatever else is wrong with the
write. -/
structure ConditionFirst {σ : Type}
    (get : StorageScope → ObjectKey → Except StorageError (Option StoredObject)) (put : PutCall σ)
    (delete : DeleteCall σ) : Prop where
  put_unmet : ∀ scope key current value condition, get scope key = .ok current →
    condition.holds (current.map StoredObject.version) = false →
      (put scope key value condition).1 = .ok .conflict
  delete_unmet : ∀ scope key object condition, get scope key = .ok (some object) →
    condition.holds object.version = false → (delete scope key condition).1 = .ok .conflict
  delete_absent : ∀ scope key condition, get scope key = .ok none →
    (delete scope key condition).1 = .ok .notFound

theorem Local.keepsFailed (limits : StorageLimits) (s : Local.State) :
    KeepsFailed s
      (fun scope key value condition =>
        (Local.putInPlace limits scope key value condition).exec s)
      (fun scope key condition => (Local.deleteInPlace scope key condition).exec s) where
  put_error scope key value condition e h := by
    rw [Local.putInPlace_eq] at h ⊢
    exact Update.keeping_of_error h
  put_conflict scope key value condition h := by
    rw [Local.putInPlace_eq] at h ⊢
    exact Update.keeping_of_ok h fun s' => Local.eq_of_put_conflict
  delete_error scope key condition e h := by
    rw [Local.deleteInPlace_eq] at h ⊢
    exact Update.keeping_of_error h
  delete_conflict scope key condition h := by
    rw [Local.deleteInPlace_eq] at h ⊢
    exact Update.keeping_of_ok h fun s' hdelete => Local.eq_of_delete hdelete nofun
  delete_notFound scope key condition h := by
    rw [Local.deleteInPlace_eq] at h ⊢
    exact Update.keeping_of_ok h fun s' hdelete => Local.eq_of_delete hdelete nofun

theorem Local.conditionFirst (limits : StorageLimits) (s : Local.State) :
    ConditionFirst (Local.get s)
      (fun scope key value condition =>
        (Local.putInPlace limits scope key value condition).exec s)
      (fun scope key condition => (Local.deleteInPlace scope key condition).exec s) where
  put_unmet scope key current value condition hget hholds := by
    have hversion : Local.versionAt s scope key = current.map StoredObject.version := by
      cases hget
      rw [Option.map_map]
      rfl
    rw [Local.putInPlace_eq, Local.put_eq, hversion, hholds]
    rfl
  delete_unmet scope key object condition hget hholds := by
    obtain ⟨current, hcurrent, rfl⟩ := Option.map_eq_some_iff.mp (Except.ok.inj hget)
    rw [Local.deleteInPlace_eq, Local.delete_eq condition hcurrent, if_neg]
    · rfl
    · intro htrue
      exact absurd (hholds.symm.trans htrue) Bool.false_ne_true
  delete_absent scope key condition hget := by
    have hnone := Option.map_eq_none_iff.mp (Except.ok.inj hget)
    rw [Local.deleteInPlace_eq]
    unfold Local.delete
    simp only [hnone]
    rfl

theorem Redb.keepsFailed (faults : Redb.Faults) (limits : StorageLimits) (db : Redb.Db) :
    KeepsFailed db (Redb.putTransaction faults limits db) (Redb.deleteTransaction faults db) where
  put_error scope key value condition _ h :=
    Redb.kept_of_error (Redb.putTransaction_cases faults limits db scope key value condition) h
  put_conflict scope key value condition h :=
    Redb.kept_of_ok (Redb.putTransaction_cases faults limits db scope key value condition) h
      fun _ => Redb.eq_of_put_conflict
  delete_error scope key condition _ h :=
    Redb.kept_of_error (Redb.deleteTransaction_cases faults db scope key condition) h
  delete_conflict scope key condition h :=
    Redb.kept_of_ok (Redb.deleteTransaction_cases faults db scope key condition) h
      fun _ hdelete => Redb.eq_of_delete hdelete nofun
  delete_notFound scope key condition h :=
    Redb.kept_of_ok (Redb.deleteTransaction_cases faults db scope key condition) h
      fun _ hdelete => Redb.eq_of_delete hdelete nofun

theorem Redb.conditionFirst (limits : StorageLimits) (db : Redb.Db) :
    ConditionFirst (Redb.get db) (Redb.putTransaction Redb.noFaults limits db)
      (Redb.deleteTransaction Redb.noFaults db) where
  put_unmet scope key current value condition hget hholds := by
    rw [Redb.putTransaction_noFaults, Redb.put_of_not_holds hget hholds]
    rfl
  delete_unmet scope key object condition hget hholds := by
    rw [Redb.deleteTransaction_noFaults, Redb.delete_of_not_holds hget hholds]
    rfl
  delete_absent scope key condition hget := by
    rw [Redb.deleteTransaction_noFaults, Redb.delete_of_absent hget]
    rfl

/-- In either adapter, in every state, a write without effect leaves no trace, also if it failed
halfway, and a failed condition is reported before anything else is checked.  In every state a run
reaches, whatever failed before, the condition can be decided. -/
theorem writes_of_both_adapters (limits : StorageLimits) :
    (∀ s : Local.State,
      KeepsFailed s
        (fun scope key value condition =>
          (Local.putInPlace limits scope key value condition).exec s)
        (fun scope key condition => (Local.deleteInPlace scope key condition).exec s) ∧
      ConditionFirst (Local.get s)
        (fun scope key value condition =>
          (Local.putInPlace limits scope key value condition).exec s)
        (fun scope key condition => (Local.deleteInPlace scope key condition).exec s)) ∧
    (∀ db : Redb.Db,
      (∀ faults, KeepsFailed db (Redb.putTransaction faults limits db)
        (Redb.deleteTransaction faults db)) ∧
      ConditionFirst (Redb.get db) (Redb.putTransaction Redb.noFaults limits db)
        (Redb.deleteTransaction Redb.noFaults db)) ∧
    (∀ calls scope key,
      (Local.get ((Local.store limits).final Local.State.new calls) scope key).isOk) ∧
    ∀ calls scope key,
      (Redb.get ((Redb.faultyStore limits).final Redb.initializeTables calls) scope key).isOk := by
  refine ⟨fun s => ⟨Local.keepsFailed limits s, Local.conditionFirst limits s⟩,
    fun db => ⟨fun faults => Redb.keepsFailed faults limits db, Redb.conditionFirst limits db⟩,
    fun calls scope key => rfl, fun calls scope key => ?_⟩
  obtain ⟨s, href⟩ := Redb.refines_faultyStore limits calls
  exact Redb.get_isOk_of_refines href scope key

/-- A value over the tenant's quota: the condition is reported first. -/
example :
    let value : ObjectValue := ⟨List.replicate 1025 0, by decide +kernel⟩
    let put := Redb.putTransaction Redb.noFaults sampleLimits sampleDb sampleScope ⟨[97], by decide⟩
    (put value .ifAbsent).1 = .ok .conflict ∧ (put value .any).1 = .error .limitExceeded := by
  decide +kernel

end RustFactory.Storage
