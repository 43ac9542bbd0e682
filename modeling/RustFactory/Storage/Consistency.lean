import RustFactory.Storage.Refinement

/-!
# Storage: what the tables hold

The totals of the redb tables are recomputed from the raw rows.  `Consistent` says that every row is
canonical, that the stored counters equal these totals and stay within the limits, and that no
stored version exceeds the revision; every run of a fresh store leads to such tables.
-/

namespace RustFactory.Storage

open RustFactory.Lib

namespace Redb

/-! ## Totals of the raw rows -/

/-- The tenant of an object row, if its key decodes. -/
def rowTenant (key : Bytes) : Option TenantId :=
  match decodeObjectKey key with
  | .ok (scope, _) => some scope.tenantId
  | .error _ => none

/-- The value size of an object row. -/
def rowBytes (row : Bytes) : ℕ :=
  match decodeObjectValue row with
  | .ok (_, value) => value.asBytes.length
  | .error _ => 0

/-- The number of object rows of a tenant. -/
def tenantObjects (t : TenantId) (objects : BTreeMap Bytes Bytes) : ℕ :=
  BTreeMap.sumOver (fun k _ => if rowTenant k = some t then 1 else 0) objects

/-- The total value size of the object rows of a tenant. -/
def tenantBytes (t : TenantId) (objects : BTreeMap Bytes Bytes) : ℕ :=
  BTreeMap.sumOver (fun k v => if rowTenant k = some t then rowBytes v else 0) objects

/-- The number of object rows. -/
def globalObjects (objects : BTreeMap Bytes Bytes) : ℕ := BTreeMap.sumOver (fun _ _ => 1) objects

/-- The total value size of the object rows. -/
def globalBytes (objects : BTreeMap Bytes Bytes) : ℕ :=
  BTreeMap.sumOver (fun _ v => rowBytes v) objects

/-! ## Canonical rows -/

/-- An object row that decodes and is the encoding of what it decodes to. -/
def CanonicalObject (k v : Bytes) : Prop :=
  ∃ scope key version value, decodeObjectKey k = .ok (scope, key) ∧
    encodeObjectKey scope key = .ok k ∧ decodeObjectValue v = .ok (version, value) ∧
    encodeObjectValue version value = .ok v

/-- A quota row that decodes to a nonzero count and is the encoding of what it decodes to. -/
def CanonicalQuota (k v : Bytes) : Prop :=
  ∃ t c, decodeTenantKey k = .ok t ∧ encodeTenantKey t = .ok k ∧
    decodeCounters v true = .ok c ∧ encodeCounters c = v ∧ c.objects ≠ 0

/-- A row as it is stored is canonical, and no other row is. -/
theorem canonicalObject_iff {k v : Bytes} :
    CanonicalObject k v ↔ ∃ row, (k, v) = encodeRow row := by
  constructor
  · rintro ⟨scope, key, version, value, hk, -, hv, -⟩
    refine ⟨(⟨scope.tenantId, scope.namespace, key⟩, ⟨version, value⟩), ?_⟩
    rw [decodeObjectKey_eq_ok.mp hk, decodeObjectValue_eq_ok.mp hv]
    rfl
  · rintro ⟨⟨id, e⟩, he⟩
    cases he
    exact ⟨id.scope, id.key, e.version, e.value, decodeObjectKey_eq_ok.mpr rfl,
      encodeObjectKey_eq _ _, decodeObjectValue_eq_ok.mpr rfl, encodeObjectValue_eq _ _⟩

theorem canonicalQuota_iff {k v : Bytes} :
    CanonicalQuota k v ↔ ∃ t c, k = tenantKeyBytes t ∧ v = encodeCounters c ∧ c.objects ≠ 0 := by
  constructor
  · rintro ⟨t, c, hk, -, -, hc, h0⟩
    exact ⟨t, c, decodeTenantKey_eq_ok.mp hk, hc.symm, h0⟩
  · rintro ⟨t, c, rfl, rfl, h0⟩
    exact ⟨t, c, decodeTenantKey_eq_ok.mpr rfl, encodeTenantKey_eq t,
      decodeCounters_eq_ok.mpr ⟨rfl, fun _ => h0⟩, rfl, h0⟩

@[simp] theorem rowTenant_encode (id : Identity) : rowTenant id.encode = some id.tenantId := by
  unfold rowTenant
  rw [show decodeObjectKey id.encode = .ok (id.scope, id.key) from decodeObjectKey_eq_ok.mpr rfl]
  rfl

@[simp] theorem rowBytes_encode (e : Local.Entry) : rowBytes e.encode = e.value.asBytes.length := by
  unfold rowBytes
  rw [decodeObjectValue_encode]

/-! ## Consistent tables -/

/-- The contents of tables that hold a well-accounted store. -/
structure Consistent (limits : StorageLimits) (db : Db) : Prop where
  objects : ∀ k v : Bytes, db.objects[k]? = some v → CanonicalObject k v
  quotas : ∀ k v : Bytes, db.quotas[k]? = some v → CanonicalQuota k v
  tenants : ∀ t, ∃ c, heldCounters db.quotas[tenantKeyBytes t]? = .ok c ∧
    c.Holds (tenantObjects t db.objects) (tenantBytes t db.objects)
  metadata : ∃ revision global, readMetadata db.metadata = .ok (revision, global) ∧
    global.Holds (globalObjects db.objects) (globalBytes db.objects) ∧
    ∀ (k v : Bytes) (version : ObjectVersion) (value : ObjectValue), db.objects[k]? = some v →
      decodeObjectValue v = .ok (version, value) → version.revision.toNat ≤ revision.toNat
  tenant_objects_le : ∀ t, tenantObjects t db.objects ≤ limits.maxObjectsPerTenant.toNat
  tenant_bytes_le : ∀ t, tenantBytes t db.objects ≤ limits.maxValueBytesPerTenant.toNat
  global_objects_le : globalObjects db.objects ≤ limits.maxObjectsGlobal.toNat
  global_bytes_le : globalBytes db.objects ≤ limits.maxValueBytesGlobal.toNat

section Refined

variable {limits : StorageLimits} {s : Local.State} {db : Db} (henc : Encodes s db)

include henc

theorem tenantObjects_eq (t : TenantId) :
    tenantObjects t db.objects = Local.objectsOf (Local.ofTenant t) s.objects := by
  unfold tenantObjects Local.objectsOf Local.ofTenant
  rw [henc.objects.sumOver_eq Identity.encode_injective]
  simp

theorem tenantBytes_eq (t : TenantId) :
    tenantBytes t db.objects = Local.bytesOf (Local.ofTenant t) s.objects := by
  unfold tenantBytes Local.bytesOf Local.ofTenant
  rw [henc.objects.sumOver_eq Identity.encode_injective]
  simp

theorem globalObjects_eq : globalObjects db.objects = Local.objectsOf Local.ofAll s.objects := by
  unfold globalObjects Local.objectsOf Local.ofAll
  rw [henc.objects.sumOver_eq Identity.encode_injective]
  simp

theorem globalBytes_eq : globalBytes db.objects = Local.bytesOf Local.ofAll s.objects := by
  unfold globalBytes Local.bytesOf Local.ofAll
  rw [henc.objects.sumOver_eq Identity.encode_injective]
  simp

/-- The version of an object row is that of the entry it encodes. -/
theorem row_entry {k v : Bytes} {version : ObjectVersion} {value : ObjectValue}
    (hrow : db.objects[k]? = some v) (hv : decodeObjectValue v = .ok (version, value)) :
    ∃ (id : Identity) (e : Local.Entry), id.encode = k ∧ s.objects[id]? = some e ∧
      e.version = version ∧ e.value = value := by
  obtain ⟨id, e, hk, rfl, he⟩ := henc.objects.getElem?_eq_some.mp hrow
  rw [decodeObjectValue_encode] at hv
  cases hv
  exact ⟨id, e, hk, he, rfl, rfl⟩

theorem consistent_of_encodes (hacc : Local.Accounted limits s) : Consistent limits db where
  objects k v hrow := by
    obtain ⟨id, e, rfl, rfl, -⟩ := henc.objects.getElem?_eq_some.mp hrow
    exact canonicalObject_iff.mpr ⟨(id, e), rfl⟩
  quotas k v hrow := by
    obtain ⟨t, c, rfl, rfl, hc⟩ := henc.quotas.getElem?_eq_some.mp hrow
    exact canonicalQuota_iff.mpr ⟨t, c, rfl, rfl, hacc.rows t c hc⟩
  tenants t := by
    rw [tenantObjects_eq henc, tenantBytes_eq henc]
    exact ⟨_, heldCounters_eq henc hacc t, hacc.tenants t⟩
  metadata := by
    refine ⟨s.revision, s.global, readMetadata_eq henc, ?_, ?_⟩
    · rw [globalObjects_eq henc, globalBytes_eq henc]
      exact hacc.global
    · intro k v version value hrow hv
      obtain ⟨id, e, -, he, rfl, -⟩ := row_entry henc hrow hv
      exact hacc.version_le id e he
  tenant_objects_le t := by rw [tenantObjects_eq henc]; exact hacc.tenant_objects_le t
  tenant_bytes_le t := by rw [tenantBytes_eq henc]; exact hacc.tenant_bytes_le t
  global_objects_le := by rw [globalObjects_eq henc]; exact hacc.global_objects_le
  global_bytes_le := by rw [globalBytes_eq henc]; exact hacc.global_bytes_le

theorem version_inj_of_encodes (hacc : Local.Accounted limits s) {k₁ k₂ v₁ v₂ : Bytes}
    {version : ObjectVersion} {value₁ value₂ : ObjectValue} (h₁ : db.objects[k₁]? = some v₁)
    (h₂ : db.objects[k₂]? = some v₂) (hv₁ : decodeObjectValue v₁ = .ok (version, value₁))
    (hv₂ : decodeObjectValue v₂ = .ok (version, value₂)) : k₁ = k₂ := by
  obtain ⟨id₁, e₁, rfl, he₁, hver₁, -⟩ := row_entry henc h₁ hv₁
  obtain ⟨id₂, e₂, rfl, he₂, hver₂, -⟩ := row_entry henc h₂ hv₂
  rw [hacc.version_inj id₁ id₂ e₁ e₂ he₁ he₂ (hver₁.trans hver₂.symm)]

theorem put_error (hacc : Local.Accounted limits s) {scope : StorageScope} {key : ObjectKey}
    {value : ObjectValue} {condition : PutCondition} {e : StorageError}
    (h : put limits db scope key value condition = .error e) :
    e = .limitExceeded ∨ e = .revisionExhausted := by
  have hagree := put_agree hacc henc scope key value condition
  rw [h] at hagree
  cases hlocal : Local.put limits s scope key value condition with
  | ok r => rw [hlocal] at hagree; exact hagree.elim
  | error e' =>
    rw [hlocal] at hagree
    obtain rfl : e' = e := hagree
    exact Local.put_error hacc hlocal

theorem delete_isOk (hacc : Local.Accounted limits s) (scope : StorageScope) (key : ObjectKey)
    (condition : DeleteCondition) : ∃ r, delete db scope key condition = .ok r := by
  have hagree := delete_agree hacc henc scope key condition
  obtain ⟨r, hr⟩ := Local.delete_isOk hacc scope key condition
  rw [hr] at hagree
  cases h : delete db scope key condition with
  | ok r' => exact ⟨r', rfl⟩
  | error e => rw [h] at hagree; exact hagree.elim

end Refined

/-- No two object rows carry the same version. -/
def DistinctVersions (db : Db) : Prop :=
  ∀ (k₁ k₂ v₁ v₂ : Bytes) (version : ObjectVersion) (value₁ value₂ : ObjectValue),
    db.objects[k₁]? = some v₁ → db.objects[k₂]? = some v₂ →
    decodeObjectValue v₁ = .ok (version, value₁) → decodeObjectValue v₂ = .ok (version, value₂) →
    k₁ = k₂

/-- Every object row holds a value within the size limit of one object. -/
def ValuesBounded (db : Db) : Prop :=
  ∀ k v : Bytes, db.objects[k]? = some v → rowBytes v ≤ maxObjectValueBytes.toNat

end Redb

/-- The size limit of one object in the local store. -/
def Local.ValuesBounded (s : Local.State) : Prop :=
  ∀ (id : Identity) (e : Local.Entry), s.objects[id]? = some e →
    e.value.asBytes.length ≤ maxObjectValueBytes.toNat

theorem Redb.valuesBounded {s : Local.State} {db : Redb.Db} (henc : Redb.Encodes s db) :
    Redb.ValuesBounded db := by
  intro k v hrow
  obtain ⟨id, e, rfl, rfl, -⟩ := henc.objects.getElem?_eq_some.mp hrow
  rw [Redb.rowBytes_encode]
  exact e.value.length_le

/-- **Accounting of both adapters.** After any run of a fresh store the cached counters are the
recomputed totals, every limit is respected and versions are distinct; so a put fails only at a
limit or when the revisions are used up, and a delete never fails. -/
theorem accounting_of_both_adapters (limits : StorageLimits) (calls : List Call) :
    let s := (Local.store limits).final Local.State.new calls
    let db := (Redb.store limits).final Redb.initializeTables calls
    (Local.Accounted limits s ∧ Local.ValuesBounded s) ∧
      (Redb.Consistent limits db ∧ Redb.DistinctVersions db ∧ Redb.ValuesBounded db) ∧
      (∀ scope key value condition e,
        (Local.put limits s scope key value condition = .error e ∨
          Redb.put limits db scope key value condition = .error e) →
        e = .limitExceeded ∨ e = .revisionExhausted) ∧
      (∀ scope key condition, (∃ r, Local.delete s scope key condition = .ok r) ∧
        ∃ r, Redb.delete db scope key condition = .ok r) := by
  intro s db
  obtain ⟨hacc, henc⟩ : Redb.Refines limits db s := Redb.refines_final limits calls
  refine ⟨⟨hacc, fun id e _ => e.value.length_le⟩, ⟨Redb.consistent_of_encodes henc hacc, ?_,
    Redb.valuesBounded henc⟩, ?_, ?_⟩
  · intro k₁ k₂ v₁ v₂ version value₁ value₂ h₁ h₂ hv₁ hv₂
    exact Redb.version_inj_of_encodes henc hacc h₁ h₂ hv₁ hv₂
  · rintro scope key value condition e (h | h)
    · exact Local.put_error hacc h
    · exact Redb.put_error henc hacc h
  · intro scope key condition
    exact ⟨Local.delete_isOk hacc scope key condition, Redb.delete_isOk henc hacc scope key condition⟩

end RustFactory.Storage
