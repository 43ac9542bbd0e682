import RustFactory.Storage.Consistency

/-!
# Storage: the integrity check at open

`validateIntegrity` recomputes every total from the raw rows and compares them with the stored
counters.  It accepts exactly the `Consistent` tables (`validateIntegrity_eq_ok`), so every state the
store can leave is accepted, and nothing that is not accounted for is.
-/

namespace RustFactory.Storage

open RustFactory.Lib

namespace Redb

/-! ## The check -/

/-- What the scan over the object rows has computed so far. -/
structure Audit where
  recomputed : BTreeMap TenantId Counters
  global : Counters
  maximumVersion : UInt64

/-- The start of the scan. -/
def Audit.start : Audit := ⟨∅, default, 0⟩

/-- One more object of the given size. -/
def auditCounters (counters : Counters) (bytes : UInt64) : Except StorageError Counters := do
  let objects ← okOr .corruptStore (checkedAdd counters.objects 1)
  let valueBytes ← okOr .corruptStore (checkedAdd counters.valueBytes bytes)
  .ok ⟨objects, valueBytes⟩

/-- The body of the loop over the object rows. -/
def auditObject (limits : StorageLimits) (audit : Audit) (row : Bytes × Bytes) :
    Except StorageError Audit := do
  let (scope, objectKey) ← decodeObjectKey row.1
  let encoded ← encodeObjectKey scope objectKey
  if encoded ≠ row.1 then .error .corruptStore else do
  let (version, objectValue) ← decodeObjectValue row.2
  let bytes ← okOr .corruptStore (u64TryFrom objectValue.asBytes.length)
  let global ← auditCounters audit.global bytes
  if limits.maxObjectsGlobal < global.objects ∨ limits.maxValueBytesGlobal < global.valueBytes then
    .error .corruptStore
  else do
    let tenant ← auditCounters (audit.recomputed[scope.tenantId]?.getD default) bytes
    if limits.maxObjectsPerTenant < tenant.objects ∨
        limits.maxValueBytesPerTenant < tenant.valueBytes then
      .error .corruptStore
    else
      .ok ⟨audit.recomputed.insert scope.tenantId tenant, global,
        max audit.maximumVersion version.revision⟩

/-- The body of the loop over the quota rows: the number of rows seen and the recomputed counters
not yet met. -/
def auditQuota (limits : StorageLimits) (maximumQuotaRows : UInt64)
    (seen : UInt64 × BTreeMap TenantId Counters) (row : Bytes × Bytes) :
    Except StorageError (UInt64 × BTreeMap TenantId Counters) := do
  let quotaRows ← okOr .corruptStore (checkedAdd seen.1 1)
  if maximumQuotaRows < quotaRows then .error .corruptStore else do
  let tenant ← decodeTenantKey row.1
  let encoded ← encodeTenantKey tenant
  if encoded ≠ row.1 then .error .corruptStore else do
  let held ← decodeCounters row.2 true
  if limits.maxObjectsPerTenant < held.objects ∨ limits.maxValueBytesPerTenant < held.valueBytes ∨
      seen.2[tenant]? ≠ some held then
    .error .corruptStore
  else
    .ok (quotaRows, seen.2.erase tenant)

def validateIntegrity (limits : StorageLimits) (db : Db) : Except StorageError Unit := do
  let (revision, storedGlobal) ← readMetadata db.metadata
  let audit ← db.objects.toList.foldlM (auditObject limits) .start
  let maximumQuotaRows ← okOr .corruptStore (checkedAdd audit.global.objects 1)
  let (_, unmet) ← db.quotas.toList.foldlM (auditQuota limits maximumQuotaRows)
    (0, audit.recomputed)
  if !unmet.isEmpty ∨ audit.global ≠ storedGlobal ∨ (0 < audit.global.objects ∧ revision = 0) ∨
      revision < audit.maximumVersion then
    .error .corruptStore
  else
    .ok ()

/-- What `schema_state` finds at the path. -/
inductive File where
  | missing
  | noTables
  | otherTables
  | tables (db : Db)

/-- `RedbObjectStore::open`: the tables of the opened store. -/
def openStore (limits : StorageLimits) : File → Except StorageError Db
  | .missing => .ok initializeTables
  | .noTables => .error .corruptStore
  | .otherTables => .error .corruptStore
  | .tables db => do
    validateIntegrity limits db
    .ok db

/-! ## The scan over the object rows -/

/-- The number of rows of a tenant in a list of rows. -/
def countOf (t : TenantId) (rows : List (Identity × Local.Entry)) : ℕ :=
  (rows.map fun row => if row.1.tenantId = t then 1 else 0).sum

/-- The value size of a tenant's rows in a list of rows. -/
def bytesOf (t : TenantId) (rows : List (Identity × Local.Entry)) : ℕ :=
  (rows.map fun row => if row.1.tenantId = t then row.2.value.asBytes.length else 0).sum

/-- The value size of a list of rows. -/
def bytesOfAll (rows : List (Identity × Local.Entry)) : ℕ :=
  (rows.map fun row => row.2.value.asBytes.length).sum

/-- The scan has counted exactly the given rows. -/
structure Tallies (rows : List (Identity × Local.Entry)) (audit : Audit) : Prop where
  global : audit.global.Holds rows.length (bytesOfAll rows)
  tenants : ∀ t : TenantId,
    (audit.recomputed[t]?.getD default : Counters).Holds (countOf t rows) (bytesOf t rows)
  nonzero : ∀ (t : TenantId) (c : Counters), audit.recomputed[t]? = some c → c.objects ≠ 0
  size_le : audit.recomputed.size ≤ rows.length
  maximum : ∀ r : ℕ, audit.maximumVersion.toNat ≤ r ↔
    ∀ row ∈ rows, row.2.version.revision.toNat ≤ r

/-- The totals of the rows are within the limits. -/
structure Within (limits : StorageLimits) (rows : List (Identity × Local.Entry)) : Prop where
  tenant_objects_le : ∀ t, countOf t rows ≤ limits.maxObjectsPerTenant.toNat
  tenant_bytes_le : ∀ t, bytesOf t rows ≤ limits.maxValueBytesPerTenant.toNat
  global_objects_le : rows.length ≤ limits.maxObjectsGlobal.toNat
  global_bytes_le : bytesOfAll rows ≤ limits.maxValueBytesGlobal.toNat

theorem tallies_start : Tallies [] .start where
  global := ⟨rfl, rfl⟩
  tenants t := by
    show Counters.Holds ((∅ : BTreeMap TenantId Counters)[t]?.getD default) 0 0
    simpa using (⟨rfl, rfl⟩ : Counters.Holds default 0 0)
  nonzero t c h := by simp [Audit.start] at h
  size_le := Nat.le_refl _
  maximum r := by simp [Audit.start]

theorem within_nil (limits : StorageLimits) : Within limits [] where
  tenant_objects_le _ := Nat.zero_le _
  tenant_bytes_le _ := Nat.zero_le _
  global_objects_le := Nat.zero_le _
  global_bytes_le := Nat.zero_le _

theorem countOf_concat (t : TenantId) (rows : List (Identity × Local.Entry))
    (row : Identity × Local.Entry) :
    countOf t (rows ++ [row]) = countOf t rows + if row.1.tenantId = t then 1 else 0 := by
  unfold countOf; simp

theorem bytesOf_concat (t : TenantId) (rows : List (Identity × Local.Entry))
    (row : Identity × Local.Entry) :
    bytesOf t (rows ++ [row]) =
      bytesOf t rows + if row.1.tenantId = t then row.2.value.asBytes.length else 0 := by
  unfold bytesOf; simp

theorem bytesOfAll_concat (rows : List (Identity × Local.Entry)) (row : Identity × Local.Entry) :
    bytesOfAll (rows ++ [row]) = bytesOfAll rows + row.2.value.asBytes.length := by
  unfold bytesOfAll; simp

theorem Within.of_append {limits : StorageLimits} {rows more : List (Identity × Local.Entry)}
    (h : Within limits (rows ++ more)) : Within limits rows where
  tenant_objects_le t := by
    have := h.tenant_objects_le t
    unfold countOf at this ⊢
    rw [List.map_append, List.sum_append] at this
    omega
  tenant_bytes_le t := by
    have := h.tenant_bytes_le t
    unfold bytesOf at this ⊢
    rw [List.map_append, List.sum_append] at this
    omega
  global_objects_le := by
    have := h.global_objects_le
    rw [List.length_append] at this
    omega
  global_bytes_le := by
    have := h.global_bytes_le
    unfold bytesOfAll at this ⊢
    rw [List.map_append, List.sum_append] at this
    omega

theorem auditCounters_ok {c c' : Counters} {bytes : UInt64} :
    auditCounters c bytes = .ok c' ↔ c'.objects.toNat = c.objects.toNat + 1 ∧
      c'.valueBytes.toNat = c.valueBytes.toNat + bytes.toNat := by
  unfold auditCounters
  rw [bind_eq_ok]
  constructor
  · rintro ⟨a, ha, h⟩
    obtain ⟨b, hb, h⟩ := bind_eq_ok.mp h
    cases h
    rw [okOr_eq_ok, checkedAdd_eq_some] at ha hb
    exact ⟨ha, hb⟩
  · rintro ⟨ha, hb⟩
    refine ⟨c'.objects, ?_, ?_⟩
    · rw [okOr_eq_ok, checkedAdd_eq_some]; exact ha
    · rw [bind_eq_ok]
      refine ⟨c'.valueBytes, ?_, rfl⟩
      rw [okOr_eq_ok, checkedAdd_eq_some]; exact hb

/-- Counters that stay within two machine words can count one more object. -/
theorem auditCounters_isOk {c : Counters} {bytes a b : UInt64} (ho : c.objects.toNat + 1 ≤ a.toNat)
    (hb : c.valueBytes.toNat + bytes.toNat ≤ b.toNat) :
    ∃ c', auditCounters c bytes = .ok c' := by
  have ha' := a.toNat_lt
  have hb' := b.toNat_lt
  refine ⟨⟨UInt64.ofNat (c.objects.toNat + 1), UInt64.ofNat (c.valueBytes.toNat + bytes.toNat)⟩,
    auditCounters_ok.mpr ?_⟩
  rw [UInt64.toNat_ofNat', UInt64.toNat_ofNat', Nat.mod_eq_of_lt (by omega),
    Nat.mod_eq_of_lt (by omega)]
  exact ⟨rfl, rfl⟩

/-- The loop body on a canonical row. -/
theorem auditObject_encodeRow (limits : StorageLimits) (audit : Audit)
    (row : Identity × Local.Entry) :
    auditObject limits audit (encodeRow row) = (do
      let global ← auditCounters audit.global row.2.value.size
      if limits.maxObjectsGlobal < global.objects ∨
          limits.maxValueBytesGlobal < global.valueBytes then
        .error .corruptStore
      else do
        let tenant ← auditCounters (audit.recomputed[row.1.tenantId]?.getD default)
          row.2.value.size
        if limits.maxObjectsPerTenant < tenant.objects ∨
            limits.maxValueBytesPerTenant < tenant.valueBytes then
          .error .corruptStore
        else
          .ok ⟨audit.recomputed.insert row.1.tenantId tenant, global,
            max audit.maximumVersion row.2.version.revision⟩) := by
  obtain ⟨id, e⟩ := row
  unfold auditObject encodeRow
  dsimp only
  rw [show decodeObjectKey id.encode = .ok (id.scope, id.key) from decodeObjectKey_eq_ok.mpr rfl,
    ok_bind]
  dsimp only
  rw [encodeObjectKey_eq, ok_bind, if_neg fun h => h rfl, decodeObjectValue_encode, ok_bind]
  dsimp only
  rw [e.value.u64TryFrom_length, okOr_some, ok_bind]
  rfl

/-- A row that passes the loop body is canonical. -/
theorem canonical_of_auditObject {limits : StorageLimits} {audit audit' : Audit}
    {raw : Bytes × Bytes} (h : auditObject limits audit raw = .ok audit') :
    ∃ row, raw = encodeRow row := by
  unfold auditObject at h
  obtain ⟨⟨scope, key⟩, hk, h⟩ := bind_eq_ok.mp h
  obtain ⟨encoded, -, h⟩ := bind_eq_ok.mp h
  dsimp only at h
  split_ifs at h
  obtain ⟨⟨version, value⟩, hv, -⟩ := bind_eq_ok.mp h
  refine ⟨(⟨scope.tenantId, scope.namespace, key⟩, ⟨version, value⟩), ?_⟩
  rw [decodeObjectKey_eq_ok] at hk
  rw [decodeObjectValue_eq_ok] at hv
  exact Prod.ext hk hv

section ObjectScan

variable {limits : StorageLimits} {rows : List (Identity × Local.Entry)} {audit audit' : Audit}
  {row : Identity × Local.Entry}

theorem Tallies.concat (h : Tallies rows audit) {global tenant : Counters}
    (hglobal : auditCounters audit.global row.2.value.size = .ok global)
    (htenant : auditCounters (audit.recomputed[row.1.tenantId]?.getD default)
      row.2.value.size = .ok tenant) :
    Tallies (rows ++ [row]) ⟨audit.recomputed.insert row.1.tenantId tenant, global,
      max audit.maximumVersion row.2.version.revision⟩ := by
  obtain ⟨hg1, hg2⟩ := auditCounters_ok.mp hglobal
  obtain ⟨ht1, ht2⟩ := auditCounters_ok.mp htenant
  rw [ObjectValue.size_toNat] at hg2 ht2
  refine ⟨⟨?_, ?_⟩, ?_, ?_, ?_, ?_⟩
  · rw [hg1, h.global.objects_eq, List.length_append, List.length_singleton]
  · rw [hg2, h.global.bytes_eq, bytesOfAll_concat]
  · intro t
    have htally := h.tenants t
    rw [countOf_concat, bytesOf_concat]
    by_cases e : row.1.tenantId = t
    · subst e
      rw [if_pos rfl, if_pos rfl]
      refine ⟨?_, ?_⟩
      · simp only [Std.ExtTreeMap.getElem?_insert_self, Option.getD_some]
        rw [ht1, htally.objects_eq]
      · simp only [Std.ExtTreeMap.getElem?_insert_self, Option.getD_some]
        rw [ht2, htally.bytes_eq]
    · rw [if_neg e, if_neg e]
      simpa [Std.ExtTreeMap.getElem?_insert, e] using htally
  · intro t c hc
    by_cases e : row.1.tenantId = t
    · subst e
      simp only [Std.ExtTreeMap.getElem?_insert_self, Option.some.injEq] at hc
      subst hc
      intro h0
      rw [h0] at ht1
      simp at ht1
    · exact h.nonzero t c (by simpa [Std.ExtTreeMap.getElem?_insert, e] using hc)
  · have hle := Std.ExtTreeMap.size_insert_le (t := audit.recomputed) (k := row.1.tenantId)
      (v := tenant)
    have := h.size_le
    rw [List.length_append, List.length_singleton]
    show (audit.recomputed.insert row.1.tenantId tenant).size ≤ _
    omega
  · intro r
    show (if audit.maximumVersion ≤ row.2.version.revision then row.2.version.revision
      else audit.maximumVersion).toNat ≤ r ↔ _
    rw [List.forall_mem_append, List.forall_mem_singleton, ← h.maximum]
    split_ifs with hle
    · rw [UInt64.le_iff_toNat_le] at hle
      constructor
      · intro hr
        exact ⟨hle.trans hr, hr⟩
      · exact fun hr => hr.2
    · rw [UInt64.not_le, UInt64.lt_iff_toNat_lt] at hle
      constructor
      · intro hr
        exact ⟨hr, hle.le.trans hr⟩
      · exact fun hr => hr.1

theorem auditObject_ok (h : Tallies rows audit) (hw : Within limits rows)
    (hok : auditObject limits audit (encodeRow row) = .ok audit') :
    Tallies (rows ++ [row]) audit' ∧ Within limits (rows ++ [row]) := by
  rw [auditObject_encodeRow] at hok
  obtain ⟨global, hglobal, hok⟩ := bind_eq_ok.mp hok
  split_ifs at hok with hglim
  obtain ⟨tenant, htenant, hok⟩ := bind_eq_ok.mp hok
  split_ifs at hok with htlim
  cases hok
  have htally := h.concat hglobal htenant
  refine ⟨htally, ?_⟩
  simp only [not_or, UInt64.not_lt, UInt64.le_iff_toNat_le] at hglim htlim
  have hthis := htally.tenants row.1.tenantId
  simp only [Std.ExtTreeMap.getElem?_insert_self, Option.getD_some] at hthis
  have hother : ∀ t, row.1.tenantId ≠ t →
      countOf t (rows ++ [row]) = countOf t rows ∧ bytesOf t (rows ++ [row]) = bytesOf t rows := by
    intro t ht
    rw [countOf_concat, bytesOf_concat, if_neg ht, if_neg ht]
    exact ⟨rfl, rfl⟩
  refine ⟨?_, ?_, ?_, ?_⟩
  · intro t
    by_cases e : row.1.tenantId = t
    · subst e; rw [← hthis.objects_eq]; exact htlim.1
    · rw [(hother t e).1]; exact hw.tenant_objects_le t
  · intro t
    by_cases e : row.1.tenantId = t
    · subst e; rw [← hthis.bytes_eq]; exact htlim.2
    · rw [(hother t e).2]; exact hw.tenant_bytes_le t
  · rw [← htally.global.objects_eq]; exact hglim.1
  · rw [← htally.global.bytes_eq]; exact hglim.2

theorem auditObject_isOk (h : Tallies rows audit) (hw : Within limits (rows ++ [row])) :
    ∃ audit', auditObject limits audit (encodeRow row) = .ok audit' := by
  have hg1 := hw.global_objects_le
  have hg2 := hw.global_bytes_le
  have ht1 := hw.tenant_objects_le row.1.tenantId
  have ht2 := hw.tenant_bytes_le row.1.tenantId
  rw [List.length_append, List.length_singleton, ← h.global.objects_eq] at hg1
  rw [bytesOfAll_concat, ← h.global.bytes_eq, ← ObjectValue.size_toNat] at hg2
  rw [countOf_concat, if_pos rfl, ← (h.tenants row.1.tenantId).objects_eq] at ht1
  rw [bytesOf_concat, if_pos rfl, ← (h.tenants row.1.tenantId).bytes_eq,
    ← ObjectValue.size_toNat] at ht2
  obtain ⟨global, hglobal⟩ := auditCounters_isOk hg1 hg2
  obtain ⟨tenant, htenant⟩ := auditCounters_isOk ht1 ht2
  obtain ⟨hg3, hg4⟩ := auditCounters_ok.mp hglobal
  obtain ⟨ht3, ht4⟩ := auditCounters_ok.mp htenant
  rw [auditObject_encodeRow, hglobal, ok_bind, if_neg, htenant, ok_bind, if_neg]
  · exact ⟨_, rfl⟩
  · simp only [not_or, UInt64.not_lt, UInt64.le_iff_toNat_le]
    omega
  · simp only [not_or, UInt64.not_lt, UInt64.le_iff_toNat_le]
    omega

/-- The scan accepts exactly canonical rows within the limits: what acceptance gives. -/
theorem scanObjects_ok (h : Tallies rows audit) (hw : Within limits rows)
    {raw : List (Bytes × Bytes)} (hok : raw.foldlM (auditObject limits) audit = .ok audit') :
    ∃ more, raw = more.map encodeRow ∧ Tallies (rows ++ more) audit' ∧
      Within limits (rows ++ more) := by
  induction raw generalizing rows audit with
  | nil =>
    cases hok
    exact ⟨[], rfl, by rwa [List.append_nil], by rwa [List.append_nil]⟩
  | cons r raw ih =>
    rw [List.foldlM_cons] at hok
    obtain ⟨mid, hmid, hrest⟩ := bind_eq_ok.mp hok
    obtain ⟨row, rfl⟩ := canonical_of_auditObject hmid
    obtain ⟨hm, hwm⟩ := auditObject_ok h hw hmid
    obtain ⟨more, rfl, htally, hwithin⟩ := ih hm hwm hrest
    refine ⟨row :: more, rfl, ?_, ?_⟩
    · rwa [← List.singleton_append, ← List.append_assoc]
    · rwa [← List.singleton_append, ← List.append_assoc]

/-- The scan accepts every list of canonical rows within the limits, and counts them. -/
theorem scanObjects_isOk (h : Tallies rows audit) {more : List (Identity × Local.Entry)}
    (hw : Within limits (rows ++ more)) :
    ∃ audit', (more.map encodeRow).foldlM (auditObject limits) audit = .ok audit' ∧
      Tallies (rows ++ more) audit' := by
  induction more generalizing rows audit with
  | nil => exact ⟨audit, rfl, by rwa [List.append_nil]⟩
  | cons row more ih =>
    rw [← List.singleton_append, ← List.append_assoc] at hw ⊢
    obtain ⟨mid, hmid⟩ := auditObject_isOk h hw.of_append
    have hm := (auditObject_ok h hw.of_append.of_append hmid).1
    obtain ⟨audit', hok, htally⟩ := ih hm hw
    refine ⟨audit', ?_, htally⟩
    rw [List.singleton_append, List.map_cons, List.foldlM_cons, hmid, ok_bind, hok]

end ObjectScan

/-! ## The scan over the quota rows -/

/-- A quota row as it is stored. -/
def quotaRow (row : TenantId × Counters) : Bytes × Bytes :=
  (tenantKeyBytes row.1, encodeCounters row.2)

section QuotaScan

variable {limits : StorageLimits} {maximum : UInt64}
  {seen seen' : UInt64 × BTreeMap TenantId Counters}

/-- A quota row that passes is canonical, and its counters are the recomputed ones. -/
theorem auditQuota_ok {raw : Bytes × Bytes} (h : auditQuota limits maximum seen raw = .ok seen') :
    ∃ t c, raw = quotaRow (t, c) ∧ seen.2[t]? = some c ∧ seen'.2 = seen.2.erase t := by
  unfold auditQuota at h
  obtain ⟨n, -, h⟩ := bind_eq_ok.mp h
  split_ifs at h
  obtain ⟨t, ht, h⟩ := bind_eq_ok.mp h
  obtain ⟨encoded, -, h⟩ := bind_eq_ok.mp h
  split_ifs at h
  obtain ⟨c, hc, h⟩ := bind_eq_ok.mp h
  split_ifs at h with hlim
  simp only [not_or, not_not] at hlim
  cases h
  refine ⟨t, c, ?_, hlim.2.2, rfl⟩
  exact Prod.ext (decodeTenantKey_eq_ok.mp ht) (decodeCounters_eq_ok.mp hc).1

theorem auditQuota_isOk {t : TenantId} {c : Counters} (hn : seen.1.toNat + 1 ≤ maximum.toNat)
    (h0 : c.objects ≠ 0) (ho : c.objects.toNat ≤ limits.maxObjectsPerTenant.toNat)
    (hb : c.valueBytes.toNat ≤ limits.maxValueBytesPerTenant.toNat) (hc : seen.2[t]? = some c) :
    ∃ n : UInt64, n.toNat = seen.1.toNat + 1 ∧
      auditQuota limits maximum seen (quotaRow (t, c)) = .ok (n, seen.2.erase t) := by
  have hm := maximum.toNat_lt
  have hone : (1 : UInt64).toNat = 1 := rfl
  obtain ⟨n, hadd⟩ : ∃ n, checkedAdd seen.1 1 = some n := by
    unfold checkedAdd
    rw [if_pos (by omega)]
    exact ⟨_, rfl⟩
  have hnat := checkedAdd_eq_some.mp hadd
  rw [hone] at hnat
  refine ⟨n, hnat, ?_⟩
  unfold auditQuota quotaRow
  rw [hadd, okOr_some, ok_bind, if_neg, decodeTenantKey_eq_ok.mpr rfl, ok_bind, encodeTenantKey_eq,
    ok_bind, if_neg fun h => h rfl, decodeCounters_eq_ok.mpr ⟨rfl, fun _ => h0⟩, ok_bind, if_neg]
  · simp only [not_or, not_not, UInt64.not_lt, UInt64.le_iff_toNat_le]
    exact ⟨ho, hb, hc⟩
  · rw [UInt64.not_lt, UInt64.le_iff_toNat_le]
    omega

/-- What the scan leaves of the recomputed counters. -/
def Unmet (qs : List (TenantId × Counters)) (before after : BTreeMap TenantId Counters) : Prop :=
  ∀ t : TenantId, after[t]? = if t ∈ qs.map Prod.fst then none else before[t]?

theorem Unmet.cons {t : TenantId} {c : Counters} {qs : List (TenantId × Counters)}
    {before after : BTreeMap TenantId Counters} (h : Unmet qs (before.erase t) after) :
    Unmet ((t, c) :: qs) before after := by
  intro t'
  rw [h t', List.map_cons]
  by_cases hmem : t' ∈ qs.map Prod.fst
  · rw [if_pos hmem, if_pos (List.mem_cons_of_mem _ hmem)]
  · rw [if_neg hmem, Std.ExtTreeMap.getElem?_erase]
    by_cases e : t = t'
    · subst e; simp
    · rw [if_neg (by simpa using e), if_neg]
      rw [List.mem_cons]
      rintro (h' | h')
      · exact e h'.symm
      · exact hmem h'

theorem scanQuotas_ok {raw : List (Bytes × Bytes)}
    (h : raw.foldlM (auditQuota limits maximum) seen = .ok seen') :
    ∃ qs, raw = qs.map quotaRow ∧ (∀ q ∈ qs, seen.2[q.1]? = some q.2) ∧
      Unmet qs seen.2 seen'.2 := by
  induction raw generalizing seen with
  | nil =>
    cases h
    exact ⟨[], rfl, by simp, fun t => by simp⟩
  | cons r raw ih =>
    rw [List.foldlM_cons] at h
    obtain ⟨mid, hmid, hrest⟩ := bind_eq_ok.mp h
    obtain ⟨t, c, rfl, hc, herase⟩ := auditQuota_ok hmid
    obtain ⟨qs, rfl, hqs, hunmet⟩ := ih hrest
    rw [herase] at hqs hunmet
    refine ⟨(t, c) :: qs, rfl, ?_, hunmet.cons⟩
    intro q hq
    rcases List.mem_cons.mp hq with rfl | hq
    · exact hc
    · have hq' := hqs q hq
      rw [Std.ExtTreeMap.getElem?_erase] at hq'
      split_ifs at hq'
      exact hq'

theorem scanQuotas_isOk {qs : List (TenantId × Counters)} (hn : (qs.map Prod.fst).Nodup)
    (hlen : seen.1.toNat + qs.length ≤ maximum.toNat)
    (hqs : ∀ q ∈ qs, seen.2[q.1]? = some q.2 ∧ q.2.objects ≠ 0 ∧
      q.2.objects.toNat ≤ limits.maxObjectsPerTenant.toNat ∧
      q.2.valueBytes.toNat ≤ limits.maxValueBytesPerTenant.toNat) :
    ∃ seen', (qs.map quotaRow).foldlM (auditQuota limits maximum) seen = .ok seen' ∧
      Unmet qs seen.2 seen'.2 := by
  induction qs generalizing seen with
  | nil => exact ⟨seen, rfl, fun t => by simp⟩
  | cons q qs ih =>
    obtain ⟨t, c⟩ := q
    rw [List.length_cons] at hlen
    rw [List.map_cons, List.nodup_cons] at hn
    obtain ⟨hc, h0, ho, hb⟩ := hqs (t, c) List.mem_cons_self
    have hroom : seen.1.toNat + 1 ≤ maximum.toNat := by omega
    obtain ⟨n, hnat, hstep⟩ := auditQuota_isOk hroom h0 ho hb hc
    have hlen' : n.toNat + qs.length ≤ maximum.toNat := by omega
    have hqs' : ∀ q ∈ qs, (seen.2.erase t)[q.1]? = some q.2 ∧ q.2.objects ≠ 0 ∧
        q.2.objects.toNat ≤ limits.maxObjectsPerTenant.toNat ∧
        q.2.valueBytes.toNat ≤ limits.maxValueBytesPerTenant.toNat := by
      intro q hq
      obtain ⟨hq1, hq2⟩ := hqs q (List.mem_cons_of_mem _ hq)
      refine ⟨?_, hq2⟩
      rw [Std.ExtTreeMap.getElem?_erase, if_neg, hq1]
      intro e
      rw [compare_eq_iff_eq] at e
      have hmem : q.1 ∈ qs.map Prod.fst := List.mem_map_of_mem hq
      rw [← e] at hmem
      exact hn.1 hmem
    obtain ⟨seen', hok, hunmet⟩ := @ih (n, seen.2.erase t) hn.2 hlen' hqs'
    refine ⟨seen', ?_, hunmet.cons⟩
    rw [List.map_cons, List.foldlM_cons, hstep, ok_bind, hok]

end QuotaScan

/-! ## Acceptance -/

theorem maxObjectsGlobal_le (limits : StorageLimits) : limits.maxObjectsGlobal.toNat ≤ 1000000 := by
  have h := limits.valid
  unfold validateLimits at h
  split_ifs at h with hc
  simp only [not_or, UInt64.not_lt] at hc
  exact UInt64.le_iff_toNat_le.mp hc.2.2.2.2.2.1

section Rows

variable {objects : BTreeMap Bytes Bytes} {rows : List (Identity × Local.Entry)}
  (hrows : objects.toList = rows.map encodeRow)

include hrows

theorem tenantObjects_rows (t : TenantId) : tenantObjects t objects = countOf t rows := by
  unfold tenantObjects countOf BTreeMap.sumOver
  rw [hrows, List.map_map]
  congr 1
  apply List.map_congr_left
  rintro ⟨id, e⟩ -
  simp [encodeRow]

theorem tenantBytes_rows (t : TenantId) : tenantBytes t objects = bytesOf t rows := by
  unfold tenantBytes bytesOf BTreeMap.sumOver
  rw [hrows, List.map_map]
  congr 1
  apply List.map_congr_left
  rintro ⟨id, e⟩ -
  simp [encodeRow]

theorem globalObjects_rows : globalObjects objects = rows.length := by
  unfold globalObjects BTreeMap.sumOver
  rw [hrows, List.map_map]
  show (rows.map fun _ => 1).sum = rows.length
  simp

theorem globalBytes_rows : globalBytes objects = bytesOfAll rows := by
  unfold globalBytes bytesOfAll BTreeMap.sumOver
  rw [hrows, List.map_map]
  congr 1
  apply List.map_congr_left
  rintro ⟨id, e⟩ -
  simp [encodeRow]

theorem getElem?_rows {k v : Bytes} : objects[k]? = some v ↔ ∃ row ∈ rows, encodeRow row = (k, v) := by
  rw [← BTreeMap.mem_toList (e := (k, v)), hrows, List.mem_map]

end Rows

theorem exists_map_eq {α β : Type} {f : α → β} {l : List β} (h : ∀ b ∈ l, ∃ a, f a = b) :
    ∃ l' : List α, l'.map f = l := by
  have : l ∈ Set.range (List.map f) := by
    rw [Set.range_list_map]
    exact h
  exact this

theorem getElem?_quotas {quotas : BTreeMap Bytes Bytes} {qs : List (TenantId × Counters)}
    (hquotas : quotas.toList = qs.map quotaRow) {t : TenantId} {v : Bytes} :
    quotas[tenantKeyBytes t]? = some v ↔ ∃ c, (t, c) ∈ qs ∧ encodeCounters c = v := by
  rw [← BTreeMap.mem_toList (e := (tenantKeyBytes t, v)), hquotas, List.mem_map]
  constructor
  · rintro ⟨⟨t', c⟩, hmem, he⟩
    obtain ⟨ht, hc⟩ := Prod.mk.inj he
    obtain rfl := tenantKeyBytes_injective ht
    exact ⟨c, hmem, hc⟩
  · rintro ⟨c, hmem, rfl⟩
    exact ⟨(t, c), hmem, rfl⟩

/-- The quota table after a complete scan holds exactly the recomputed counters. -/
theorem heldCounters_of_scan {quotas : BTreeMap Bytes Bytes} {qs : List (TenantId × Counters)}
    {recomputed unmet : BTreeMap TenantId Counters} (hquotas : quotas.toList = qs.map quotaRow)
    (hqs : ∀ q ∈ qs, recomputed[q.1]? = some q.2) (hunmet : Unmet qs recomputed unmet)
    (hempty : unmet.isEmpty)
    (hnonzero : ∀ (t : TenantId) (c : Counters), recomputed[t]? = some c → c.objects ≠ 0)
    (t : TenantId) :
    heldCounters quotas[tenantKeyBytes t]? = .ok (recomputed[t]?.getD default) := by
  cases hrow : quotas[tenantKeyBytes t]? with
  | some v =>
    obtain ⟨c, hmem, rfl⟩ := (getElem?_quotas hquotas).mp hrow
    have hc := hqs (t, c) hmem
    rw [hc]
    exact decodeCounters_eq_ok.mpr ⟨rfl, fun _ => hnonzero t c hc⟩
  | none =>
    have hnot : t ∉ qs.map Prod.fst := by
      intro hmem
      obtain ⟨⟨t', c⟩, hq, rfl⟩ := List.mem_map.mp hmem
      rw [(getElem?_quotas hquotas).mpr ⟨c, hq, rfl⟩] at hrow
      cases hrow
    have h := hunmet t
    rw [if_neg hnot, Std.ExtTreeMap.isEmpty_iff.mp hempty, Std.ExtTreeMap.getElem?_empty] at h
    rw [← h]
    rfl

section Accept

variable {limits : StorageLimits} {db : Db}

theorem consistent_of_validateIntegrity (h : validateIntegrity limits db = .ok ()) :
    Consistent limits db := by
  unfold validateIntegrity at h
  obtain ⟨⟨revision, stored⟩, hmeta, h⟩ := bind_eq_ok.mp h
  obtain ⟨audit, hscan, h⟩ := bind_eq_ok.mp h
  obtain ⟨maximum, -, h⟩ := bind_eq_ok.mp h
  obtain ⟨⟨n, unmet⟩, hquota, h⟩ := bind_eq_ok.mp h
  dsimp only at h
  split_ifs at h with hc
  simp only [not_or, Bool.not_eq_true', Bool.not_eq_false, not_not, UInt64.not_lt] at hc
  obtain ⟨hempty, hglobal, -, hrev⟩ := hc
  obtain ⟨rows, hrows, htally, hwithin⟩ :=
    scanObjects_ok tallies_start (within_nil limits) hscan
  rw [List.nil_append] at htally hwithin
  obtain ⟨qs, hqrows, hqs, hunmet⟩ := scanQuotas_ok hquota
  have hversions := (htally.maximum revision.toNat).mp (UInt64.le_iff_toNat_le.mp hrev)
  refine ⟨?_, ?_, ?_, ⟨revision, stored, hmeta, ?_, ?_⟩, ?_, ?_, ?_, ?_⟩
  · intro k v hrow
    obtain ⟨row, -, he⟩ := (getElem?_rows hrows).mp hrow
    exact canonicalObject_iff.mpr ⟨row, he.symm⟩
  · intro k v hrow
    have hmem := BTreeMap.mem_toList (e := (k, v)) |>.mpr hrow
    rw [hqrows, List.mem_map] at hmem
    obtain ⟨⟨t, c⟩, hq, he⟩ := hmem
    cases he
    exact canonicalQuota_iff.mpr ⟨t, c, rfl, rfl, htally.nonzero t c (hqs (t, c) hq)⟩
  · intro t
    rw [tenantObjects_rows hrows, tenantBytes_rows hrows]
    exact ⟨_, heldCounters_of_scan hqrows hqs hunmet hempty htally.nonzero t, htally.tenants t⟩
  · rw [← hglobal, globalObjects_rows hrows, globalBytes_rows hrows]
    exact htally.global
  · intro k v version value hrow hv
    obtain ⟨⟨id, e⟩, hmem, he⟩ := (getElem?_rows hrows).mp hrow
    cases he
    rw [decodeObjectValue_encode] at hv
    cases hv
    exact hversions (id, e) hmem
  · intro t
    rw [tenantObjects_rows hrows]
    exact hwithin.tenant_objects_le t
  · intro t
    rw [tenantBytes_rows hrows]
    exact hwithin.tenant_bytes_le t
  · rw [globalObjects_rows hrows]
    exact hwithin.global_objects_le
  · rw [globalBytes_rows hrows]
    exact hwithin.global_bytes_le

theorem exists_rows_of_canonical {objects : BTreeMap Bytes Bytes}
    (h : ∀ k v : Bytes, objects[k]? = some v → CanonicalObject k v) :
    ∃ rows : List (Identity × Local.Entry), objects.toList = rows.map encodeRow := by
  have : ∀ b ∈ objects.toList, ∃ row, encodeRow row = b := by
    rintro ⟨k, v⟩ hmem
    obtain ⟨row, hrow⟩ := canonicalObject_iff.mp (h k v (BTreeMap.mem_toList.mp hmem))
    exact ⟨row, hrow.symm⟩
  obtain ⟨rows, hrows⟩ := exists_map_eq this
  exact ⟨rows, hrows.symm⟩

theorem Consistent.exists_rows (h : Consistent limits db) :
    ∃ rows : List (Identity × Local.Entry), db.objects.toList = rows.map encodeRow :=
  exists_rows_of_canonical h.objects

theorem Consistent.exists_quotas (h : Consistent limits db) :
    ∃ qs : List (TenantId × Counters), db.quotas.toList = qs.map quotaRow := by
  have : ∀ b ∈ db.quotas.toList, ∃ q, quotaRow q = b := by
    rintro ⟨k, v⟩ hmem
    obtain ⟨t, c, rfl, rfl, -⟩ := canonicalQuota_iff.mp (h.quotas k v (BTreeMap.mem_toList.mp hmem))
    exact ⟨(t, c), rfl⟩
  obtain ⟨qs, hqs⟩ := exists_map_eq this
  exact ⟨qs, hqs.symm⟩

theorem nodup_tenants {quotas : BTreeMap Bytes Bytes} {qs : List (TenantId × Counters)}
    (hquotas : quotas.toList = qs.map quotaRow) : (qs.map Prod.fst).Nodup := by
  have hord := BTreeMap.ordered_toList quotas
  rw [hquotas, List.pairwise_map] at hord
  refine List.pairwise_map.mpr (hord.imp ?_)
  intro a b hlt he
  exact absurd (congrArg tenantKeyBytes he) hlt.ne

/-- In consistent tables the recomputed counters of a tenant are those of its quota row. -/
theorem Consistent.recomputed_eq (h : Consistent limits db) {rows : List (Identity × Local.Entry)}
    {audit : Audit} (hrows : db.objects.toList = rows.map encodeRow) (htally : Tallies rows audit)
    (t : TenantId) :
    heldCounters db.quotas[tenantKeyBytes t]? = .ok (audit.recomputed[t]?.getD default) := by
  obtain ⟨c, hc, hholds⟩ := h.tenants t
  rw [tenantObjects_rows hrows, tenantBytes_rows hrows] at hholds
  rw [hc, hholds.unique (htally.tenants t)]

/-- Every quota row of consistent tables carries the recomputed counters. -/
theorem Consistent.quota_recomputed (h : Consistent limits db)
    {rows : List (Identity × Local.Entry)} {qs : List (TenantId × Counters)} {audit : Audit}
    (hrows : db.objects.toList = rows.map encodeRow) (hqs : db.quotas.toList = qs.map quotaRow)
    (htally : Tallies rows audit) {q : TenantId × Counters} (hq : q ∈ qs) :
    audit.recomputed[q.1]? = some q.2 ∧ q.2.objects ≠ 0 := by
  obtain ⟨t, c⟩ := q
  have hrow := (getElem?_quotas hqs).mpr ⟨c, hq, rfl⟩
  have hheld := h.recomputed_eq hrows htally t
  obtain ⟨-, c', -, he, h0⟩ := canonicalQuota_iff.mp (h.quotas _ _ hrow)
  obtain rfl := encodeCounters_injective he
  have hdec : decodeCounters (encodeCounters c) true = .ok c :=
    decodeCounters_eq_ok.mpr ⟨rfl, fun _ => h0⟩
  rw [hrow] at hheld
  have hc := hdec.symm.trans hheld
  refine ⟨?_, h0⟩
  show audit.recomputed[t]? = some c
  cases hrec : audit.recomputed[t]? with
  | none =>
    rw [hrec] at hc
    have hdef : c = default := Except.ok.inj hc
    rw [hdef] at h0
    exact absurd rfl h0
  | some d =>
    rw [hrec] at hc
    exact congrArg some (Except.ok.inj hc).symm

theorem Consistent.mem_quotas (h : Consistent limits db)
    {rows : List (Identity × Local.Entry)} {qs : List (TenantId × Counters)} {audit : Audit}
    (hrows : db.objects.toList = rows.map encodeRow) (hqs : db.quotas.toList = qs.map quotaRow)
    (htally : Tallies rows audit) {t : TenantId} {c : Counters}
    (hc : audit.recomputed[t]? = some c) : t ∈ qs.map Prod.fst := by
  have hheld := h.recomputed_eq hrows htally t
  cases hrow : db.quotas[tenantKeyBytes t]? with
  | none =>
    rw [hrow, hc] at hheld
    have hdef : default = c := Except.ok.inj hheld
    exact absurd (by rw [← hdef]; rfl) (htally.nonzero t c hc)
  | some v =>
    obtain ⟨c', hmem, -⟩ := (getElem?_quotas hqs).mp hrow
    exact List.mem_map_of_mem hmem

theorem Consistent.validateIntegrity_ok (h : Consistent limits db) :
    validateIntegrity limits db = .ok () := by
  obtain ⟨revision, stored, hmeta, hstored, hversions⟩ := h.metadata
  obtain ⟨rows, hrows⟩ := h.exists_rows
  obtain ⟨qs, hqs⟩ := h.exists_quotas
  have hwithin : Within limits ([] ++ rows) := by
    rw [List.nil_append]
    refine ⟨?_, ?_, ?_, ?_⟩
    · intro t; rw [← tenantObjects_rows hrows]; exact h.tenant_objects_le t
    · intro t; rw [← tenantBytes_rows hrows]; exact h.tenant_bytes_le t
    · rw [← globalObjects_rows hrows]; exact h.global_objects_le
    · rw [← globalBytes_rows hrows]; exact h.global_bytes_le
  obtain ⟨audit, hscan, htally⟩ := scanObjects_isOk tallies_start hwithin
  rw [List.nil_append] at htally hwithin
  have hglobal : audit.global = stored := by
    rw [globalObjects_rows hrows, globalBytes_rows hrows] at hstored
    exact htally.global.unique hstored
  have hquota : ∀ q ∈ qs, audit.recomputed[q.1]? = some q.2 ∧ q.2.objects ≠ 0 ∧
      q.2.objects.toNat ≤ limits.maxObjectsPerTenant.toNat ∧
      q.2.valueBytes.toNat ≤ limits.maxValueBytesPerTenant.toNat := by
    intro q hq
    obtain ⟨hrec, h0⟩ := h.quota_recomputed hrows hqs htally hq
    have hholds := htally.tenants q.1
    rw [hrec, Option.getD_some] at hholds
    rw [hholds.objects_eq, hholds.bytes_eq]
    exact ⟨hrec, h0, hwithin.tenant_objects_le q.1, hwithin.tenant_bytes_le q.1⟩
  -- there are at most as many quota rows as objects, so the row bound is never reached
  have hlen : qs.length ≤ rows.length := by
    have hsub : qs.map Prod.fst ⊆ audit.recomputed.keys := by
      intro t ht
      obtain ⟨q, hq, rfl⟩ := List.mem_map.mp ht
      rw [Std.ExtTreeMap.mem_keys, Std.ExtTreeMap.mem_iff_isSome_getElem?, (hquota q hq).1]
      rfl
    have := ((nodup_tenants hqs).subperm hsub).length_le
    rw [List.length_map, Std.ExtTreeMap.length_keys] at this
    exact this.trans htally.size_le
  have hobjects := htally.global.objects_eq
  have hsmall := maxObjectsGlobal_le limits
  have hbound := hwithin.global_objects_le
  obtain ⟨maximum, hmax⟩ : ∃ m, checkedAdd audit.global.objects 1 = some m := by
    unfold checkedAdd
    rw [if_pos (by simp only [UInt64.reduceToNat]; omega)]
    exact ⟨_, rfl⟩
  have hmaxNat : maximum.toNat = audit.global.objects.toNat + 1 := checkedAdd_eq_some.mp hmax
  have hroom : (0 : UInt64).toNat + qs.length ≤ maximum.toNat := by
    simp only [UInt64.reduceToNat]
    omega
  obtain ⟨⟨n, unmet⟩, hqscan, hunmet⟩ :=
    @scanQuotas_isOk limits maximum (0, audit.recomputed) qs (nodup_tenants hqs) hroom hquota
  have hempty : unmet.isEmpty := by
    rw [Std.ExtTreeMap.isEmpty_iff]
    apply Std.ExtTreeMap.ext_getElem?
    intro t
    rw [hunmet t, Std.ExtTreeMap.getElem?_empty]
    by_cases hmem : t ∈ qs.map Prod.fst
    · rw [if_pos hmem]
    · rw [if_neg hmem]
      cases hrec : audit.recomputed[t]? with
      | none => rfl
      | some c => exact absurd (h.mem_quotas hrows hqs htally hrec) hmem
  have hrevision : ∀ row ∈ rows, row.2.version.revision.toNat ≤ revision.toNat := by
    rintro ⟨id, e⟩ hmem
    have hrow := (getElem?_rows hrows).mpr ⟨(id, e), hmem, rfl⟩
    exact hversions _ _ _ _ hrow (decodeObjectValue_encode e)
  unfold validateIntegrity
  rw [hmeta, ok_bind]
  dsimp only
  rw [hrows, hscan, ok_bind, hmax, okOr_some, ok_bind, hqs, hqscan, ok_bind]
  dsimp only
  rw [if_neg]
  simp only [not_or, Bool.not_eq_true', Bool.not_eq_false, not_not, UInt64.not_lt]
  refine ⟨hempty, hglobal, ?_, ?_⟩
  · -- an object in the table has a version, which is not zero
    rintro ⟨hpos, h0⟩
    have hpos' : 0 < rows.length := by
      rw [← hobjects]; exact UInt64.lt_iff_toNat_lt.mp hpos
    obtain ⟨row, rest, rfl⟩ := List.exists_cons_of_length_pos hpos'
    have hle := hrevision row List.mem_cons_self
    rw [h0] at hle
    exact row.2.version.nonzero (UInt64.toNat_inj.mp (Nat.le_zero.mp hle))
  · exact UInt64.le_iff_toNat_le.mpr ((htally.maximum _).mpr hrevision)

/-- The check accepts exactly the consistent tables. -/
theorem validateIntegrity_eq_ok : validateIntegrity limits db = .ok () ↔ Consistent limits db :=
  ⟨consistent_of_validateIntegrity, Consistent.validateIntegrity_ok⟩

end Accept

/-! ## Reopening -/

/-- Every limit of the first is at most that of the second. -/
structure LimitsLe (limits limits' : StorageLimits) : Prop where
  objects_per_tenant : limits.maxObjectsPerTenant ≤ limits'.maxObjectsPerTenant
  bytes_per_tenant : limits.maxValueBytesPerTenant ≤ limits'.maxValueBytesPerTenant
  objects_global : limits.maxObjectsGlobal ≤ limits'.maxObjectsGlobal
  bytes_global : limits.maxValueBytesGlobal ≤ limits'.maxValueBytesGlobal

theorem Consistent.mono {limits limits' : StorageLimits} {db : Db} (h : Consistent limits db)
    (hle : LimitsLe limits limits') : Consistent limits' db :=
  { h with
    tenant_objects_le := fun t =>
      (h.tenant_objects_le t).trans (UInt64.le_iff_toNat_le.mp hle.objects_per_tenant)
    tenant_bytes_le := fun t =>
      (h.tenant_bytes_le t).trans (UInt64.le_iff_toNat_le.mp hle.bytes_per_tenant)
    global_objects_le := h.global_objects_le.trans (UInt64.le_iff_toNat_le.mp hle.objects_global)
    global_bytes_le := h.global_bytes_le.trans (UInt64.le_iff_toNat_le.mp hle.bytes_global) }

/-- The tables after any run of a fresh store are consistent. -/
theorem consistent_final (limits : StorageLimits) (calls : List Call) :
    Consistent limits ((store limits).final initializeTables calls) :=
  have h := refines_final limits calls
  consistent_of_encodes h.2 h.1

/-- **Integrity.** Tables left by any run reopen under the same or larger limits, with the same
contents and the same answers to reads; and whatever the check accepts is consistent. -/
theorem reopen_and_integrity :
    (∀ (limits limits' : StorageLimits) (calls : List Call), LimitsLe limits limits' →
      let db := (store limits).final initializeTables calls
      validateIntegrity limits' db = .ok () ∧
        ∃ reopened, openStore limits' (.tables db) = .ok reopened ∧
          (∀ scope key, ((store limits').step reopened (.get scope key)).1 =
            ((store limits).step db (.get scope key)).1) ∧
          ∀ scope request, ((store limits').step reopened (.list scope request)).1 =
            ((store limits).step db (.list scope request)).1) ∧
      ∀ (limits : StorageLimits) (db : Db), validateIntegrity limits db = .ok () →
        Consistent limits db := by
  constructor
  · intro limits limits' calls hle db
    have hok : validateIntegrity limits' db = .ok () :=
      validateIntegrity_eq_ok.mpr ((consistent_final limits calls).mono hle)
    refine ⟨hok, db, ?_, fun _ _ => rfl, fun _ _ => rfl⟩
    show (validateIntegrity limits' db >>= fun _ => .ok db) = .ok db
    rw [hok, ok_bind]
  · intro limits db h
    exact validateIntegrity_eq_ok.mp h

end Redb

end RustFactory.Storage
