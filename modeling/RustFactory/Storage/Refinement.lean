import RustFactory.Storage.Accounting
import RustFactory.Storage.Paging
import RustFactory.Storage.Redb

/-!
# Storage: the redb adapter refines the local one

`Encodes s db` says that the tables hold the encodings of the local state `s`.  Together with the
accounting invariant it is a simulation: every call on related states returns the same answer and
leads to related states (`step_simulates`).
-/

namespace RustFactory.Storage

open RustFactory.Lib

/-- The stored key of an identity. -/
def Identity.encode (id : Identity) : Bytes := objectKeyBytes id.scope id.key

/-- The stored value of an entry. -/
def Local.Entry.encode (e : Local.Entry) : Bytes := objectValueBytes e.version e.value

theorem Identity.encode_injective : Function.Injective Identity.encode := by
  intro a b h
  obtain ⟨hs, hk⟩ := objectKeyBytes_inj.mp h
  cases a; cases b
  cases hs; cases hk
  rfl

@[simp] theorem encode_identity (scope : StorageScope) (key : ObjectKey) :
    (Local.identity scope key).encode = objectKeyBytes scope key := rfl

namespace Redb

/-- The rows of the metadata table. -/
def metadataRows (revision : UInt64) (global : Counters) : BTreeMap Bytes Bytes :=
  ((∅ : BTreeMap Bytes Bytes).insert metaSchema [schema]
    |>.insert metaRevision (encodeRevision revision)).insert metaGlobal (encodeCounters global)

/-- The tables hold the encoding of a local state. -/
structure Encodes (s : Local.State) (db : Db) : Prop where
  objects : BTreeMap.Image Identity.encode Local.Entry.encode s.objects db.objects
  quotas : BTreeMap.Image tenantKeyBytes encodeCounters s.tenants db.quotas
  metadata : db.metadata = metadataRows s.revision s.global

theorem encodes_initializeTables : Encodes Local.State.new initializeTables where
  objects := BTreeMap.Image.empty
  quotas := BTreeMap.Image.empty
  metadata := rfl

/-! ## The metadata table -/

theorem getElem?_metadataRows (revision : UInt64) (global : Counters) (k : Bytes) :
    (metadataRows revision global)[k]? =
      if metaGlobal = k then some (encodeCounters global)
      else if metaRevision = k then some (encodeRevision revision)
      else if metaSchema = k then some [schema] else none := by
  unfold metadataRows
  simp only [Std.ExtTreeMap.getElem?_insert, compare_eq_iff_eq, Std.ExtTreeMap.getElem?_empty]

theorem readMetadata_metadataRows (revision : UInt64) (global : Counters) :
    readMetadata (metadataRows revision global) = .ok (revision, global) := by
  have hsize : (metadataRows revision global).size = 3 := by
    unfold metadataRows
    rw [Std.ExtTreeMap.size_insert, if_neg, Std.ExtTreeMap.size_insert, if_neg,
      Std.ExtTreeMap.size_insert, if_neg]
    · rfl
    · simp
    · simp [metaSchema, metaRevision]
    · simp [metaSchema, metaRevision, metaGlobal]
  have h1 : (metadataRows revision global)[metaSchema]? = some [schema] := by
    rw [getElem?_metadataRows]; rfl
  have h2 : (metadataRows revision global)[metaRevision]? = some (encodeRevision revision) := by
    rw [getElem?_metadataRows]; rfl
  have h3 : (metadataRows revision global)[metaGlobal]? = some (encodeCounters global) := by
    rw [getElem?_metadataRows, if_pos rfl]
  unfold readMetadata
  rw [if_neg (by rw [hsize]; simp), h1, okOr_some, ok_bind, if_neg (by simp), h2, okOr_some,
    ok_bind, decodeRevision_eq_ok.mpr rfl, ok_bind, h3, okOr_some, ok_bind,
    decodeCounters_eq_ok.mpr ⟨rfl, by simp⟩, ok_bind]

theorem metadataRows_insert_global (revision : UInt64) (global global' : Counters) :
    (metadataRows revision global).insert metaGlobal (encodeCounters global') =
      metadataRows revision global' := by
  apply Std.ExtTreeMap.ext_getElem?
  intro k
  rw [Std.ExtTreeMap.getElem?_insert, getElem?_metadataRows, getElem?_metadataRows]
  simp only [compare_eq_iff_eq]
  by_cases h : metaGlobal = k
  · rw [if_pos h, if_pos h]
  · rw [if_neg h, if_neg h, if_neg h]

theorem metadataRows_insert (revision revision' : UInt64) (global global' : Counters) :
    ((metadataRows revision global).insert metaRevision (encodeRevision revision')).insert
        metaGlobal (encodeCounters global') = metadataRows revision' global' := by
  apply Std.ExtTreeMap.ext_getElem?
  intro k
  rw [Std.ExtTreeMap.getElem?_insert, Std.ExtTreeMap.getElem?_insert, getElem?_metadataRows,
    getElem?_metadataRows]
  simp only [compare_eq_iff_eq]
  by_cases h : metaGlobal = k
  · rw [if_pos h, if_pos h]
  · rw [if_neg h, if_neg h, if_neg h]
    by_cases h' : metaRevision = k
    · rw [if_pos h', if_pos h']
    · rw [if_neg h', if_neg h', if_neg h']

/-! ## Reading the tables -/

theorem decodeObjectValue_encode (e : Local.Entry) :
    decodeObjectValue e.encode = .ok (e.version, e.value) :=
  decodeObjectValue_eq_ok.mpr rfl

theorem mapM_decodeObjectValue (current : Option Local.Entry) :
    (current.map Local.Entry.encode).mapM decodeObjectValue =
      .ok (current.map fun e => (e.version, e.value)) := by
  cases current with
  | none => rfl
  | some e => simp only [Option.map_some, Option.mapM_some, decodeObjectValue_encode]; rfl

theorem mapM_size (current : Option Local.Entry) :
    ((current.map fun e => (e.version, e.value)).mapM fun held =>
        okOr StorageError.corruptStore (u64TryFrom held.2.asBytes.length)) =
      .ok (current.map fun e => e.value.size) := by
  cases current with
  | none => rfl
  | some e => simp only [Option.map_some, Option.mapM_some, e.value.u64TryFrom_length]; rfl

/-- The object table holds the encodings of the local objects. -/
abbrev EncodesObjects (s : Local.State) (db : Db) : Prop :=
  BTreeMap.Image Identity.encode Local.Entry.encode s.objects db.objects

theorem getElem?_objects {s : Local.State} {db : Db} (hobjects : EncodesObjects s db)
    (scope : StorageScope) (key : ObjectKey) :
    db.objects[objectKeyBytes scope key]? =
      s.objects[Local.identity scope key]?.map Local.Entry.encode :=
  hobjects.lookup (Local.identity scope key)

theorem get_eq {s : Local.State} {db : Db} (hobjects : EncodesObjects s db) (scope : StorageScope)
    (key : ObjectKey) : get db scope key = Local.get s scope key := by
  unfold get Local.get
  rw [encodeObjectKey_eq, ok_bind, getElem?_objects hobjects]
  cases s.objects[Local.identity scope key]? with
  | none => rfl
  | some e =>
    simp only [Option.map_some, Option.mapM_some, decodeObjectValue_encode, ok_bind]
    rfl

section Reading

variable {s : Local.State} {db : Db} (henc : Encodes s db)

include henc

theorem readMetadata_eq : readMetadata db.metadata = .ok (s.revision, s.global) := by
  rw [henc.metadata]; exact readMetadata_metadataRows _ _

theorem heldCounters_eq {limits : StorageLimits} (hacc : Local.Accounted limits s) (t : TenantId) :
    heldCounters db.quotas[tenantKeyBytes t]? = .ok (Local.held s t) := by
  unfold heldCounters Local.held
  rw [henc.quotas.lookup]
  cases hrow : s.tenants[t]? with
  | none => rfl
  | some c => exact decodeCounters_eq_ok.mpr ⟨rfl, fun _ => hacc.rows t c hrow⟩

/-- Deleting on both sides takes the same row out of the encoded tables. -/
theorem encodes_deleteState (scope : StorageScope) (key : ObjectKey) (tenant global : Counters) :
    Encodes (Local.deleteState s scope key tenant global)
      { objects := db.objects.erase (objectKeyBytes scope key)
        quotas := if tenant.objects = 0 then db.quotas.erase (tenantKeyBytes scope.tenantId)
          else db.quotas.insert (tenantKeyBytes scope.tenantId) (encodeCounters tenant)
        metadata := db.metadata.insert metaGlobal (encodeCounters global) } where
  objects := henc.objects.erase Identity.encode_injective (Local.identity scope key)
  quotas := by
    show BTreeMap.Image _ _ (if tenant.objects = 0 then s.tenants.erase scope.tenantId
      else s.tenants.insert scope.tenantId tenant) _
    by_cases h0 : tenant.objects = 0
    · rw [if_pos h0, if_pos h0]
      exact henc.quotas.erase tenantKeyBytes_injective _
    · rw [if_neg h0, if_neg h0]
      exact henc.quotas.insert tenantKeyBytes_injective _ _
  metadata := by
    show db.metadata.insert metaGlobal (encodeCounters global) = metadataRows s.revision global
    rw [henc.metadata, metadataRows_insert_global]

end Reading

/-! ## Updates -/

/-- Two updates agree: they fail alike, or return the same outcome and related states. -/
def Agree {α σ τ : Type} (R : σ → τ → Prop) :
    Except StorageError (α × σ) → Except StorageError (α × τ) → Prop
  | .ok (a, s), .ok (b, t) => a = b ∧ R s t
  | .error e, .error e' => e = e'
  | .ok _, .error _ => False
  | .error _, .ok _ => False

theorem settle_agree {α σ τ : Type} {R : σ → τ → Prop} {s : σ} {t : τ} (h : R s t)
    (reply : α → Reply) {x : Except StorageError (α × σ)} {y : Except StorageError (α × τ)}
    (hxy : Agree R x y) :
    (settle s reply x).1 = (settle t reply y).1 ∧ R (settle s reply x).2 (settle t reply y).2 := by
  match x, y, hxy with
  | .ok (a, s'), .ok (b, t'), ⟨hab, hR⟩ =>
    subst hab
    exact ⟨rfl, hR⟩
  | .error e, .error e', hee =>
    subst hee
    exact ⟨rfl, h⟩

section Updates

variable {limits : StorageLimits} {s : Local.State} {db : Db} (hacc : Local.Accounted limits s)
  (henc : Encodes s db)

include hacc henc

/-- A put on the tables, in terms of the local state they encode. -/
theorem put_eq (scope : StorageScope) (key : ObjectKey) (value : ObjectValue)
    (condition : PutCondition) :
    put limits db scope key value condition =
      if condition.holds (Local.versionAt s scope key) then do
        let revision ← okOr .revisionExhausted (checkedAdd s.revision 1)
        let version ← ObjectVersion.fromRevision revision
        let (tenant, global) ← checkedPutCounters .corruptStore limits
          (Local.held s scope.tenantId) s.global (Local.sizeAt s scope key) value.size
        .ok (if (Local.versionAt s scope key).isNone then .created version else .replaced version,
          { objects := db.objects.insert (objectKeyBytes scope key) (objectValueBytes version value)
            quotas := db.quotas.insert (tenantKeyBytes scope.tenantId) (encodeCounters tenant)
            metadata := metadataRows revision global })
      else
        .ok (.conflict, db) := by
  unfold put Local.versionAt Local.sizeAt
  rw [encodeObjectKey_eq, ok_bind, encodeTenantKey_eq, ok_bind, value.u64TryFrom_length, okOr_some,
    ok_bind]
  simp only [getElem?_objects henc.objects, mapM_decodeObjectValue, ok_bind, Option.map_map,
    Option.isNone_map]
  simp only [readMetadata_eq henc, heldCounters_eq henc hacc, mapM_size, ok_bind, encodeObjectValue_eq]
  rw [henc.metadata]
  simp only [metadataRows_insert]
  rfl

theorem put_agree (scope : StorageScope) (key : ObjectKey) (value : ObjectValue)
    (condition : PutCondition) :
    Agree Encodes (Local.put limits s scope key value condition)
      (put limits db scope key value condition) := by
  obtain ⟨ht, hg⟩ := Local.sizeAt_le hacc scope key
  have hcongr : checkedPutCounters .corruptStore limits (Local.held s scope.tenantId) s.global
      (Local.sizeAt s scope key) value.size = checkedPutCounters .operationFailed limits
        (Local.held s scope.tenantId) s.global (Local.sizeAt s scope key) value.size :=
    checkedPutCounters_congr .operationFailed ht hg
  rw [Local.put_eq, put_eq hacc henc, hcongr]
  by_cases hc : condition.holds (Local.versionAt s scope key) = true
  · rw [if_pos hc, if_pos hc]
    cases okOr StorageError.revisionExhausted (checkedAdd s.revision 1) with
    | error e => rfl
    | ok revision =>
      rw [ok_bind, ok_bind]
      cases ObjectVersion.fromRevision revision with
      | error e => rfl
      | ok version =>
        rw [ok_bind, ok_bind]
        cases checkedPutCounters .operationFailed limits (Local.held s scope.tenantId) s.global
          (Local.sizeAt s scope key) value.size with
        | error e => rfl
        | ok counters =>
          exact ⟨rfl, henc.objects.insert Identity.encode_injective _ _,
            henc.quotas.insert tenantKeyBytes_injective _ _, rfl⟩
  · rw [if_neg hc, if_neg hc]
    exact ⟨rfl, henc⟩

theorem delete_agree (scope : StorageScope) (key : ObjectKey) (condition : DeleteCondition) :
    Agree Encodes (Local.delete s scope key condition) (delete db scope key condition) := by
  unfold delete
  rw [encodeObjectKey_eq, ok_bind, encodeTenantKey_eq, ok_bind]
  cases hcur : s.objects[Local.identity scope key]? with
  | none =>
    have hrow := getElem?_objects henc.objects scope key
    rw [hcur, Option.map_none] at hrow
    unfold Local.delete
    simp only [hcur, hrow]
    exact ⟨rfl, henc⟩
  | some current =>
    have hrow := getElem?_objects henc.objects scope key
    rw [hcur, Option.map_some] at hrow
    rw [Local.delete_eq condition hcur]
    simp only [hrow, decodeObjectValue_encode, ok_bind]
    by_cases hc : condition.holds current.version = true
    · obtain ⟨row, tenant, global, htrow, htenant, hglobal⟩ := Local.delete_counters hacc hcur
      have hz := Local.delete_tenant_zero hacc hcur htrow htenant
      have hquota := henc.quotas.lookup scope.tenantId
      rw [htrow, Option.map_some] at hquota
      have htenant' : checkedDeleteCounters .corruptStore row current.value.size = .ok tenant :=
        checkedDeleteCounters_ok.mpr (checkedDeleteCounters_ok.mp htenant)
      have hglobal' : checkedDeleteCounters .corruptStore s.global current.value.size =
          .ok global :=
        checkedDeleteCounters_ok.mpr (checkedDeleteCounters_ok.mp hglobal)
      have hdec : decodeCounters (encodeCounters row) true = .ok row :=
        decodeCounters_eq_ok.mpr ⟨rfl, fun _ => hacc.rows _ row htrow⟩
      have hn : ¬ (tenant.objects = 0 ∧ tenant.valueBytes ≠ 0) := fun h => h.2 (hz h.1)
      rw [if_pos hc, if_pos hc, htrow, okOr_some, ok_bind, htenant, ok_bind, hglobal, ok_bind,
        if_neg hn, readMetadata_eq henc, ok_bind, hquota, okOr_some, ok_bind, hdec, ok_bind,
        current.value.u64TryFrom_length, okOr_some, ok_bind, htenant', ok_bind, hglobal', ok_bind,
        if_neg hn]
      exact ⟨rfl, encodes_deleteState henc scope key tenant global⟩
    · rw [if_neg hc, if_neg hc]
      exact ⟨rfl, henc⟩

end Updates

/-! ## Pages -/

/-- The lower end of a page in the table. -/
def lowerBytes (scope : StorageScope) (afterKey : Option ObjectKey) : Bytes :=
  match afterKey with
  | none => scopeBytes scope
  | some key => objectKeyBytes scope key

theorem listLower_eq (scope : StorageScope) (afterKey : Option ObjectKey) :
    listLower scope (scopeBytes scope) afterKey = .ok (lowerBytes scope afterKey) := by
  cases afterKey with
  | none => rfl
  | some key => exact encodeObjectKey_eq scope key

/-- The stored keys between the two ends of a page are those of the scope after the given key. -/
theorem between_lowerBytes {scope : StorageScope} {afterKey : Option ObjectKey} {upper : Bytes}
    (hbetween : ∀ scope' key, (scopeBytes scope < objectKeyBytes scope' key ∧
      objectKeyBytes scope' key < upper) ↔ scope' = scope) (id : Identity) :
    (lowerBytes scope afterKey < id.encode ∧ id.encode < upper) ↔
      id.scope = scope ∧ ∀ k, afterKey = some k → k < id.key := by
  cases afterKey with
  | none =>
    show (scopeBytes scope < id.encode ∧ id.encode < upper) ↔ _
    rw [Identity.encode, hbetween]
    simp
  | some k =>
    show (objectKeyBytes scope k < id.encode ∧ id.encode < upper) ↔ _
    have hk := (hbetween scope k).mpr rfl
    constructor
    · rintro ⟨hlo, hup⟩
      have hs := (hbetween id.scope id.key).mp ⟨hk.1.trans hlo, hup⟩
      refine ⟨hs, ?_⟩
      rintro _ ⟨⟩
      rw [Identity.encode, hs] at hlo
      exact objectKeyBytes_lt_iff.mp hlo
    · rintro ⟨hs, hlt⟩
      refine ⟨?_, ((hbetween id.scope id.key).mpr hs).2⟩
      rw [Identity.encode, hs]
      exact objectKeyBytes_lt_iff.mpr (hlt k rfl)

/-- A row as it is stored. -/
def encodeRow (row : Identity × Local.Entry) : Bytes × Bytes := (row.1.encode, row.2.encode)

/-- The range scanned for a page holds the encodings of the local rows, in the same order. -/
theorem range_eq {s : Local.State} {db : Db} (hobjects : EncodesObjects s db) {scope : StorageScope}
    {afterKey : Option ObjectKey} {upper : Bytes}
    (hbetween : ∀ scope' key, (scopeBytes scope < objectKeyBytes scope' key ∧
      objectKeyBytes scope' key < upper) ↔ scope' = scope) :
    BTreeMap.range db.objects (.excluded (lowerBytes scope afterKey)) (.excluded upper) =
      (Local.scopeRows s scope afterKey).map encodeRow := by
  apply BTreeMap.eq_of_mem_iff (f := Prod.fst) (BTreeMap.ordered_range _ _ _)
  · rw [List.pairwise_map, List.pairwise_iff_forall_sublist]
    intro a b hab
    have hord : (Local.scopeRows s scope afterKey).Pairwise fun a b => a.1 < b.1 :=
      (BTreeMap.ordered_range _ _ _).filter _
    have hlt := List.pairwise_iff_forall_sublist.mp hord hab
    have ha := (Local.mem_scopeRows.mp (hab.subset List.mem_cons_self)).2.1
    have hb := (Local.mem_scopeRows.mp
      (hab.subset (List.mem_cons_of_mem _ List.mem_cons_self))).2.1
    show objectKeyBytes a.1.scope a.1.key < objectKeyBytes b.1.scope b.1.key
    rw [ha, hb]
    exact objectKeyBytes_lt_iff.mpr ((Identity.lt_iff_key (ha.trans hb.symm)).mp hlt)
  · rintro ⟨b, v⟩
    rw [BTreeMap.mem_range, hobjects.getElem?_eq_some, List.mem_map]
    simp only [BTreeMap.Bound.above, BTreeMap.Bound.below, decide_eq_true_eq]
    constructor
    · rintro ⟨⟨id, e, rfl, rfl, he⟩, hlo, hup⟩
      obtain ⟨hs, hk⟩ := (between_lowerBytes hbetween id).mp ⟨hlo, hup⟩
      exact ⟨(id, e), Local.mem_scopeRows.mpr ⟨he, hs, hk⟩, rfl⟩
    · rintro ⟨⟨id, e⟩, hmem, hrow⟩
      obtain ⟨he, hs, hk⟩ := Local.mem_scopeRows.mp hmem
      cases hrow
      exact ⟨⟨id, e, rfl, rfl, he⟩, (between_lowerBytes hbetween id).mpr ⟨hs, hk⟩⟩

theorem listLoop_map (scope : StorageScope) (limit : ℕ) {rows : List (Identity × Local.Entry)}
    (hrows : ∀ row ∈ rows, row.1.scope = scope) (objects : List ObjectMetadata) :
    listLoop scope limit (rows.map encodeRow) objects = Local.listLoop scope limit rows objects := by
  induction rows generalizing objects with
  | nil => rfl
  | cons row rows ih =>
    obtain ⟨id, e⟩ := row
    have hs : id.scope = scope := hrows _ List.mem_cons_self
    have hdec : decodeObjectKey id.encode = .ok (id.scope, id.key) := decodeObjectKey_eq_ok.mpr rfl
    have hu : u32TryFrom e.value.asBytes.length = some (UInt32.ofNat e.value.asBytes.length) := by
      unfold u32TryFrom; rw [if_pos e.value.length_lt]
    rw [List.map_cons]
    unfold encodeRow listLoop Local.listLoop
    rw [if_neg (fun h => Local.scope_ne_iff.mp h hs)]
    by_cases hfull : objects.length = limit
    · rw [if_pos hfull, if_pos hfull]
    · rw [if_neg hfull, if_neg hfull, hdec, ok_bind]
      dsimp only
      rw [if_neg (not_not.mpr hs), decodeObjectValue_encode, ok_bind, hu, okOr_some, ok_bind,
        okOr_some, ok_bind]
      exact ih (fun row h => hrows row (List.mem_cons_of_mem _ h)) _

theorem list_eq {s : Local.State} {db : Db} (hobjects : EncodesObjects s db) (scope : StorageScope)
    (request : ListRequest) : list db scope request = Local.list s scope request := by
  obtain ⟨upper, hupper, hbetween⟩ := between_iff scope
  rw [Local.list_eq]
  unfold list
  rw [encodeScopePrefix_eq, ok_bind, hupper, okOr_some, ok_bind, listLower_eq, ok_bind]
  show listLoop scope request.limit.get.toNat _ [] = _
  rw [range_eq hobjects hbetween]
  exact listLoop_map scope _ (fun row h => (Local.mem_scopeRows.mp h).2.1) []

/-! ## The simulation -/

/-- The local state is accounted for and the tables encode it. -/
def Refines (limits : StorageLimits) (db : Db) (s : Local.State) : Prop :=
  Local.Accounted limits s ∧ Encodes s db

theorem refines_initializeTables (limits : StorageLimits) :
    Refines limits initializeTables Local.State.new :=
  ⟨Local.accounted_new limits, encodes_initializeTables⟩

/-- Every call on related states is answered alike and leads to related states. -/
theorem step_simulates (limits : StorageLimits) (db : Db) (s : Local.State) (c : Call)
    (h : Refines limits db s) :
    ((store limits).step db c).1 = ((Local.store limits).step s c).1 ∧
      Refines limits ((store limits).step db c).2 ((Local.store limits).step s c).2 := by
  obtain ⟨hacc, henc⟩ := h
  have hacc' := Local.accounted_step hacc c
  suffices hstep : ((Local.store limits).step s c).1 = ((store limits).step db c).1 ∧
      Encodes ((Local.store limits).step s c).2 ((store limits).step db c).2 from
    ⟨hstep.1.symm, hacc', hstep.2⟩
  cases c with
  | get scope key =>
    refine ⟨?_, henc⟩
    show (Local.get s scope key).map Reply.got = (get db scope key).map Reply.got
    rw [get_eq henc.objects]
  | list scope request =>
    refine ⟨?_, henc⟩
    show (Local.list s scope request).map Reply.listed = (list db scope request).map Reply.listed
    rw [list_eq henc.objects]
  | put scope key value condition =>
    exact settle_agree henc .put (put_agree hacc henc scope key value condition)
  | delete scope key condition =>
    exact settle_agree henc .deleted (delete_agree hacc henc scope key condition)

/-- After any run of a fresh store, the tables encode the local state after the same run. -/
theorem refines_final (limits : StorageLimits) (calls : List Call) :
    Refines limits ((store limits).final initializeTables calls)
      ((Local.store limits).final Local.State.new calls) :=
  Machine.simulation_final (R := Refines limits) (step_simulates limits)
    (refines_initializeTables limits) calls

theorem answer_eq (limits : StorageLimits) (calls : List Call) (c : Call) :
    (store limits).answer initializeTables calls c =
      (Local.store limits).answer Local.State.new calls c :=
  Machine.answer_eq_of_simulation (R := Refines limits) (step_simulates limits)
    (refines_initializeTables limits) calls c

/-- **Equivalence of the adapters.** Started fresh with the same limits, both answer every sequence
of calls alike. -/
theorem outputs_eq_local (limits : StorageLimits) (calls : List Call) :
    (store limits).outputs initializeTables calls =
      (Local.store limits).outputs Local.State.new calls :=
  Machine.outputs_eq_of_simulation (R := Refines limits) (step_simulates limits)
    (refines_initializeTables limits) calls

end Redb

end RustFactory.Storage
