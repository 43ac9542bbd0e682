import RustFactory.Storage.Local

/-!
# Storage: accounting of the local adapter

The counters that put and delete update step by step always equal the totals recomputed from the
stored objects.  `Accounted` is the invariant; `put_ok` and `delete_ok` say everything a successful
update does, and `accounted_final` carries the invariant along every run.
-/

namespace RustFactory.Storage

open RustFactory.Lib

/-! ## Counter arithmetic -/

/-- The counters `c` hold the given totals. -/
structure Counters.Holds (c : Counters) (objects bytes : ℕ) : Prop where
  objects_eq : c.objects.toNat = objects
  bytes_eq : c.valueBytes.toNat = bytes

theorem Counters.Holds.unique {c c' : Counters} {objects bytes : ℕ} (h : c.Holds objects bytes)
    (h' : c'.Holds objects bytes) : c = c' := by
  have ho := UInt64.toNat_inj.mp (h.objects_eq.trans h'.objects_eq.symm)
  have hb := UInt64.toNat_inj.mp (h.bytes_eq.trans h'.bytes_eq.symm)
  cases c; cases c'; cases ho; cases hb
  rfl

section PutCounters

variable {underflow : StorageError} {limits : StorageLimits} {tenant global : Counters}
  {old : Option UInt64} {new : UInt64}

/-- One object more unless a value is replaced, the old size taken out and the new one put in. -/
structure Counters.Put (c : Counters) (old : Option UInt64) (new : UInt64) (c' : Counters) :
    Prop where
  objects_eq : c'.objects.toNat = c.objects.toNat + if old.isSome then 0 else 1
  bytes_eq : c'.valueBytes.toNat + (old.getD 0).toNat = c.valueBytes.toNat + new.toNat

/-- The counters of an admitted put, all within the limits. -/
structure Admitted (limits : StorageLimits) (tenant global : Counters) (old : Option UInt64)
    (new : UInt64) (tenant' global' : Counters) : Prop where
  tenant : tenant.Put old new tenant'
  global : global.Put old new global'
  tenant_objects_le : tenant'.objects.toNat ≤ limits.maxObjectsPerTenant.toNat
  tenant_bytes_le : tenant'.valueBytes.toNat ≤ limits.maxValueBytesPerTenant.toNat
  global_objects_le : global'.objects.toNat ≤ limits.maxObjectsGlobal.toNat
  global_bytes_le : global'.valueBytes.toNat ≤ limits.maxValueBytesGlobal.toNat

theorem checkedPutCounters_ok {tenant' global' : Counters}
    (h : checkedPutCounters underflow limits tenant global old new = .ok (tenant', global')) :
    Admitted limits tenant global old new tenant' global' := by
  unfold checkedPutCounters at h
  obtain ⟨⟨tObj, gObj⟩, hObj, h⟩ := bind_eq_ok.mp h
  obtain ⟨tRest, htRest, h⟩ := bind_eq_ok.mp h
  obtain ⟨tBytes, htBytes, h⟩ := bind_eq_ok.mp h
  obtain ⟨gRest, hgRest, h⟩ := bind_eq_ok.mp h
  obtain ⟨gBytes, hgBytes, h⟩ := bind_eq_ok.mp h
  rw [okOr_eq_ok, checkedSub_eq_some] at htRest hgRest
  rw [okOr_eq_ok, checkedAdd_eq_some] at htBytes hgBytes
  split_ifs at h with hlim
  cases h
  simp only [not_or, UInt64.lt_iff_toNat_lt] at hlim
  obtain ⟨h1, h2, h3, h4⟩ := hlim
  have hcount : tObj.toNat = tenant.objects.toNat + (if old.isSome then 0 else 1) ∧
      gObj.toNat = global.objects.toNat + (if old.isSome then 0 else 1) := by
    cases old with
    | some o => cases hObj; exact ⟨rfl, rfl⟩
    | none =>
      obtain ⟨t, ht, hObj⟩ := bind_eq_ok.mp hObj
      obtain ⟨g, hg, hObj⟩ := bind_eq_ok.mp hObj
      cases hObj
      rw [okOr_eq_ok, checkedAdd_eq_some] at ht hg
      exact ⟨ht, hg⟩
  exact ⟨⟨hcount.1, by simp only; omega⟩, ⟨hcount.2, by simp only; omega⟩,
    by simp only; omega, by simp only; omega, by simp only; omega, by simp only; omega⟩

/-- A counter that contains the replaced size never takes the underflow branch. -/
theorem checkedPutCounters_error {e : StorageError}
    (ht : (old.getD 0).toNat ≤ tenant.valueBytes.toNat)
    (hg : (old.getD 0).toNat ≤ global.valueBytes.toNat)
    (h : checkedPutCounters underflow limits tenant global old new = .error e) :
    e = .limitExceeded := by
  unfold checkedPutCounters at h
  rcases bind_eq_error.mp h with h | ⟨_, _, h⟩
  · cases old with
    | some o => cases h
    | none =>
      rcases bind_eq_error.mp h with h | ⟨_, _, h⟩
      · exact (okOr_eq_error.mp h).2.symm
      · rcases bind_eq_error.mp h with h | ⟨_, _, h⟩
        · exact (okOr_eq_error.mp h).2.symm
        · cases h
  rcases bind_eq_error.mp h with h | ⟨_, _, h⟩
  · rw [checkedSub_of_le ht] at h
    cases h
  rcases bind_eq_error.mp h with h | ⟨_, _, h⟩
  · exact (okOr_eq_error.mp h).2.symm
  rcases bind_eq_error.mp h with h | ⟨_, _, h⟩
  · rw [checkedSub_of_le hg] at h
    cases h
  rcases bind_eq_error.mp h with h | ⟨_, _, h⟩
  · exact (okOr_eq_error.mp h).2.symm
  · split_ifs at h
    cases h
    rfl

/-- Where the counters contain the replaced size, the error of an underflow does not matter. -/
theorem checkedPutCounters_congr (underflow' : StorageError)
    (ht : (old.getD 0).toNat ≤ tenant.valueBytes.toNat)
    (hg : (old.getD 0).toNat ≤ global.valueBytes.toNat) :
    checkedPutCounters underflow limits tenant global old new =
      checkedPutCounters underflow' limits tenant global old new := by
  unfold checkedPutCounters
  dsimp only
  rw [checkedSub_of_le ht, checkedSub_of_le hg]
  rfl

end PutCounters

theorem checkedDeleteCounters_ok {underflow : StorageError} {held c : Counters} {old : UInt64} :
    checkedDeleteCounters underflow held old = .ok c ↔
      c.objects.toNat + 1 = held.objects.toNat ∧
        c.valueBytes.toNat + old.toNat = held.valueBytes.toNat := by
  unfold checkedDeleteCounters
  rw [bind_eq_ok]
  constructor
  · rintro ⟨a, ha, h⟩
    obtain ⟨b, hb, h⟩ := bind_eq_ok.mp h
    cases h
    rw [okOr_eq_ok, checkedSub_eq_some] at ha hb
    exact ⟨ha, hb⟩
  · rintro ⟨ha, hb⟩
    refine ⟨c.objects, ?_, ?_⟩
    · rw [okOr_eq_ok, checkedSub_eq_some]; exact ha
    · rw [bind_eq_ok]
      refine ⟨c.valueBytes, ?_, rfl⟩
      rw [okOr_eq_ok, checkedSub_eq_some]; exact hb

namespace Local

theorem valueBytes_eq (v : ObjectValue) : valueBytes v = .ok v.size := by
  unfold valueBytes; rw [v.u64TryFrom_length]; rfl

theorem mapM_valueBytes (current : Option Entry) :
    (current.mapM fun entry => valueBytes entry.value) =
      .ok (current.map fun entry => entry.value.size) := by
  cases current with
  | none => rfl
  | some entry => simp only [Option.mapM_some, valueBytes_eq]; rfl

/-! ## Totals -/

/-- The number of stored objects whose identity satisfies `p`. -/
def objectsOf (p : Identity → Bool) (m : BTreeMap Identity Entry) : ℕ :=
  BTreeMap.sumOver (fun id _ => if p id then 1 else 0) m

/-- The total value size of the stored objects whose identity satisfies `p`. -/
def bytesOf (p : Identity → Bool) (m : BTreeMap Identity Entry) : ℕ :=
  BTreeMap.sumOver (fun id entry => if p id then entry.value.asBytes.length else 0) m

/-- The identities of a tenant. -/
def ofTenant (t : TenantId) (id : Identity) : Bool := id.tenantId = t

/-- Every identity. -/
def ofAll (_ : Identity) : Bool := true

section Totals

variable {p : Identity → Bool} {m : BTreeMap Identity Entry} {id : Identity} {c c' : Counters}

theorem objectsOf_insert_of_not (hp : p id = false) (e : Entry) :
    objectsOf p (m.insert id e) = objectsOf p m := by
  have h := BTreeMap.sumOver_insert_add (fun id _ => if p id then 1 else 0) m id e
  rw [hp] at h
  unfold objectsOf
  cases hm : m[id]? <;> rw [hm] at h <;> simpa using h

theorem bytesOf_insert_of_not (hp : p id = false) (e : Entry) :
    bytesOf p (m.insert id e) = bytesOf p m := by
  have h := BTreeMap.sumOver_insert_add
    (fun id (entry : Entry) => if p id then entry.value.asBytes.length else 0) m id e
  unfold bytesOf
  cases hm : m[id]? <;> rw [hm] at h <;> simpa [hp] using h

theorem objectsOf_erase_of_not (hp : p id = false) : objectsOf p (m.erase id) = objectsOf p m := by
  cases hm : m[id]? with
  | none => rw [BTreeMap.erase_of_getElem?_none hm]
  | some e =>
    have h := BTreeMap.sumOver_erase (fun id (_ : Entry) => if p id then 1 else 0) hm
    unfold objectsOf
    simpa [hp] using h.symm

theorem bytesOf_erase_of_not (hp : p id = false) : bytesOf p (m.erase id) = bytesOf p m := by
  cases hm : m[id]? with
  | none => rw [BTreeMap.erase_of_getElem?_none hm]
  | some e =>
    have h := BTreeMap.sumOver_erase
      (fun id (entry : Entry) => if p id then entry.value.asBytes.length else 0) hm
    unfold bytesOf
    simpa [hp] using h.symm

/-- A put keeps the counters of every group the object belongs to exact. -/
theorem Holds.put (hp : p id = true) (h : c.Holds (objectsOf p m) (bytesOf p m)) {e : Entry}
    (hput : c.Put (m[id]?.map fun entry => entry.value.size) e.value.size c') :
    c'.Holds (objectsOf p (m.insert id e)) (bytesOf p (m.insert id e)) := by
  have ho := BTreeMap.sumOver_insert_add (fun id (_ : Entry) => if p id then 1 else 0) m id e
  have hb := BTreeMap.sumOver_insert_add
    (fun id (entry : Entry) => if p id then entry.value.asBytes.length else 0) m id e
  obtain ⟨h1, h2⟩ := h
  obtain ⟨h3, h4⟩ := hput
  unfold objectsOf at h1
  unfold bytesOf at h2
  cases hm : m[id]? with
  | none =>
    rw [hm] at ho hb h3 h4
    simp only [hp, if_true, Option.elim_none, Option.map_none, Option.isSome_none,
      Option.getD_none, ObjectValue.size_toNat, Bool.false_eq_true, if_false] at ho hb h3 h4
    exact ⟨by unfold objectsOf; omega, by unfold bytesOf; simp at h4; omega⟩
  | some e' =>
    rw [hm] at ho hb h3 h4
    simp only [hp, if_true, Option.elim_some, Option.map_some, Option.isSome_some,
      Option.getD_some, ObjectValue.size_toNat] at ho hb h3 h4
    exact ⟨by unfold objectsOf; omega, by unfold bytesOf; omega⟩

/-- A delete keeps the counters of every group the object belongs to exact. -/
theorem Holds.delete (hp : p id = true) (h : c.Holds (objectsOf p m) (bytesOf p m)) {e : Entry}
    (hm : m[id]? = some e) (ho : c'.objects.toNat + 1 = c.objects.toNat)
    (hb : c'.valueBytes.toNat + e.value.size.toNat = c.valueBytes.toNat) :
    c'.Holds (objectsOf p (m.erase id)) (bytesOf p (m.erase id)) := by
  have h1 := BTreeMap.sumOver_erase (fun id (_ : Entry) => if p id then 1 else 0) hm
  have h2 := BTreeMap.sumOver_erase
    (fun id (entry : Entry) => if p id then entry.value.asBytes.length else 0) hm
  obtain ⟨h3, h4⟩ := h
  unfold objectsOf at h3
  unfold bytesOf at h4
  rw [ObjectValue.size_toNat] at hb
  simp only [hp, if_true] at h1 h2
  exact ⟨by unfold objectsOf; omega, by unfold bytesOf; omega⟩

/-- A stored object is counted in every group it belongs to. -/
theorem le_of_getElem? (hp : p id = true) {e : Entry} (hm : m[id]? = some e) :
    1 ≤ objectsOf p m ∧ e.value.asBytes.length ≤ bytesOf p m := by
  have h1 := BTreeMap.le_sumOver (fun id (_ : Entry) => if p id then 1 else 0) hm
  have h2 := BTreeMap.le_sumOver
    (fun id (entry : Entry) => if p id then entry.value.asBytes.length else 0) hm
  simp only [hp, if_true] at h1 h2
  exact ⟨h1, h2⟩

end Totals

/-! ## What put and delete do -/

/-- The state after an applied put. -/
def putState (s : State) (scope : StorageScope) (key : ObjectKey) (value : ObjectValue)
    (version : ObjectVersion) (tenant global : Counters) : State where
  objects := s.objects.insert (identity scope key) ⟨version, value⟩
  revision := version.revision
  tenants := s.tenants.insert scope.tenantId tenant
  global := global

/-- The state after an applied delete. -/
def deleteState (s : State) (scope : StorageScope) (key : ObjectKey) (tenant global : Counters) :
    State :=
  { s with
    objects := s.objects.erase (identity scope key)
    tenants := if tenant.objects = 0 then s.tenants.erase scope.tenantId
      else s.tenants.insert scope.tenantId tenant
    global }

/-- The counters held for a tenant, zero where there is no row. -/
def held (s : State) (t : TenantId) : Counters := s.tenants[t]?.getD default

/-- The version present under an identity. -/
def versionAt (s : State) (scope : StorageScope) (key : ObjectKey) : Option ObjectVersion :=
  s.objects[identity scope key]?.map Entry.version

/-- The size of the value present under an identity. -/
def sizeAt (s : State) (scope : StorageScope) (key : ObjectKey) : Option UInt64 :=
  s.objects[identity scope key]?.map fun entry => entry.value.size

section Updates

variable {limits : StorageLimits} {s : State} {scope : StorageScope} {key : ObjectKey}
  {value : ObjectValue}

theorem put_eq (condition : PutCondition) :
    put limits s scope key value condition =
      if condition.holds (versionAt s scope key) then do
        let revision ← okOr .revisionExhausted (checkedAdd s.revision 1)
        let version ← ObjectVersion.fromRevision revision
        let (tenant, global) ← checkedPutCounters .operationFailed limits (held s scope.tenantId)
          s.global (sizeAt s scope key) value.size
        .ok (if (versionAt s scope key).isNone then .created version else .replaced version,
          { objects := s.objects.insert (identity scope key) ⟨version, value⟩
            revision
            tenants := s.tenants.insert scope.tenantId tenant
            global })
      else
        .ok (.conflict, s) := by
  unfold put versionAt sizeAt held
  simp only [mapM_valueBytes]
  simp only [valueBytes_eq, ok_bind, Option.isNone_map]

theorem fromRevision_ok {revision : UInt64} {version : ObjectVersion}
    (h : ObjectVersion.fromRevision revision = .ok version) : version.revision = revision := by
  unfold ObjectVersion.fromRevision at h
  split_ifs at h
  cases h
  rfl

/-- A put that returns either conflicts and changes nothing, or takes the next revision as the
object's version and updates the counters. -/
theorem put_ok {condition : PutCondition} {o : PutOutcome} {s' : State}
    (h : put limits s scope key value condition = .ok (o, s')) :
    (condition.holds (versionAt s scope key) = false ∧ o = .conflict ∧ s' = s) ∨
      ∃ version tenant global, condition.holds (versionAt s scope key) = true ∧
        version.revision.toNat = s.revision.toNat + 1 ∧
        Admitted limits (held s scope.tenantId) s.global (sizeAt s scope key) value.size
          tenant global ∧
        o = (if (versionAt s scope key).isNone then .created version else .replaced version) ∧
        s' = putState s scope key value version tenant global := by
  rw [put_eq] at h
  by_cases hc : condition.holds (versionAt s scope key) = true
  · rw [if_pos hc] at h
    right
    obtain ⟨revision, hrev, h⟩ := bind_eq_ok.mp h
    obtain ⟨version, hver, h⟩ := bind_eq_ok.mp h
    obtain ⟨⟨tenant, global⟩, hcnt, h⟩ := bind_eq_ok.mp h
    rw [okOr_eq_ok, checkedAdd_eq_some] at hrev
    have hv := fromRevision_ok hver
    cases h
    refine ⟨version, tenant, global, hc, ?_, checkedPutCounters_ok hcnt, rfl, ?_⟩
    · rw [hv, hrev]; rfl
    · unfold putState; rw [hv]
  · rw [if_neg hc] at h
    left
    cases h
    exact ⟨by simpa using hc, rfl, rfl⟩

theorem delete_eq (condition : DeleteCondition) {current : Entry}
    (hcur : s.objects[identity scope key]? = some current) :
    delete s scope key condition =
      if condition.holds current.version then do
        let heldRow ← okOr .operationFailed s.tenants[scope.tenantId]?
        let tenant ← checkedDeleteCounters .operationFailed heldRow current.value.size
        let global ← checkedDeleteCounters .operationFailed s.global current.value.size
        if tenant.objects = 0 ∧ tenant.valueBytes ≠ 0 then
          .error .operationFailed
        else
          .ok (.deleted, deleteState s scope key tenant global)
      else
        .ok (.conflict, s) := by
  unfold delete
  simp only [hcur, valueBytes_eq, ok_bind]
  rfl

/-- A delete that returns either finds nothing, conflicts, or takes the object and its share of the
counters out. -/
theorem delete_ok {condition : DeleteCondition} {o : DeleteOutcome} {s' : State}
    (h : delete s scope key condition = .ok (o, s')) :
    (s.objects[identity scope key]? = none ∧ o = .notFound ∧ s' = s) ∨
      (∃ current, s.objects[identity scope key]? = some current ∧
        condition.holds current.version = false ∧ o = .conflict ∧ s' = s) ∨
      ∃ current row tenant global, s.objects[identity scope key]? = some current ∧
        condition.holds current.version = true ∧ s.tenants[scope.tenantId]? = some row ∧
        checkedDeleteCounters .operationFailed row current.value.size = .ok tenant ∧
        checkedDeleteCounters .operationFailed s.global current.value.size = .ok global ∧
        o = .deleted ∧ s' = deleteState s scope key tenant global := by
  cases hcur : s.objects[identity scope key]? with
  | none =>
    unfold delete at h
    simp only [hcur] at h
    cases h
    exact Or.inl ⟨rfl, rfl, rfl⟩
  | some current =>
    rw [delete_eq condition hcur] at h
    right
    by_cases hc : condition.holds current.version = true
    · rw [if_pos hc] at h
      right
      obtain ⟨row, hrow, h⟩ := bind_eq_ok.mp h
      obtain ⟨tenant, htenant, h⟩ := bind_eq_ok.mp h
      obtain ⟨global, hglobal, h⟩ := bind_eq_ok.mp h
      split_ifs at h
      cases h
      exact ⟨current, row, tenant, global, rfl, hc, okOr_eq_ok.mp hrow, htenant, hglobal, rfl, rfl⟩
    · rw [if_neg hc] at h
      left
      cases h
      exact ⟨current, rfl, by simpa using hc, rfl, rfl⟩

end Updates

/-! ## The invariant -/

/-- The accounting invariant of a state under its limits. -/
structure Accounted (limits : StorageLimits) (s : State) : Prop where
  tenants : ∀ t, (held s t).Holds (objectsOf (ofTenant t) s.objects) (bytesOf (ofTenant t) s.objects)
  rows : ∀ (t : TenantId) (c : Counters), s.tenants[t]? = some c → c.objects ≠ 0
  global : s.global.Holds (objectsOf ofAll s.objects) (bytesOf ofAll s.objects)
  tenant_objects_le : ∀ t, objectsOf (ofTenant t) s.objects ≤ limits.maxObjectsPerTenant.toNat
  tenant_bytes_le : ∀ t, bytesOf (ofTenant t) s.objects ≤ limits.maxValueBytesPerTenant.toNat
  global_objects_le : objectsOf ofAll s.objects ≤ limits.maxObjectsGlobal.toNat
  global_bytes_le : bytesOf ofAll s.objects ≤ limits.maxValueBytesGlobal.toNat
  version_le : ∀ (id : Identity) (e : Entry), s.objects[id]? = some e →
    e.version.revision.toNat ≤ s.revision.toNat
  version_inj : ∀ (id₁ id₂ : Identity) (e₁ e₂ : Entry), s.objects[id₁]? = some e₁ →
    s.objects[id₂]? = some e₂ → e₁.version = e₂.version → id₁ = id₂

theorem accounted_new (limits : StorageLimits) : Accounted limits State.new where
  tenants _ := ⟨rfl, rfl⟩
  rows t c h := by simp [State.new] at h
  global := ⟨rfl, rfl⟩
  tenant_objects_le _ := Nat.zero_le _
  tenant_bytes_le _ := Nat.zero_le _
  global_objects_le := Nat.zero_le _
  global_bytes_le := Nat.zero_le _
  version_le id e h := by simp [State.new] at h
  version_inj id₁ id₂ e₁ e₂ h := by simp [State.new] at h

section Preservation

variable {limits : StorageLimits} {s : State} {scope : StorageScope} {key : ObjectKey}
  {value : ObjectValue} {version : ObjectVersion} {tenant global : Counters}

theorem held_putState (t : TenantId) :
    held (putState s scope key value version tenant global) t =
      if scope.tenantId = t then tenant else held s t := by
  unfold held putState
  by_cases h : scope.tenantId = t <;> simp [Std.ExtTreeMap.getElem?_insert, h]

theorem ofTenant_identity (t : TenantId) :
    ofTenant t (identity scope key) = decide (scope.tenantId = t) := rfl

theorem getElem?_putState (id : Identity) :
    (putState s scope key value version tenant global).objects[id]? =
      if identity scope key = id then some ⟨version, value⟩ else s.objects[id]? := by
  unfold putState
  by_cases h : identity scope key = id <;> simp [Std.ExtTreeMap.getElem?_insert, h]

/-- The counters after an applied put are the totals of the new objects. -/
theorem putState_holds (hacc : Accounted limits s)
    (hadm : Admitted limits (held s scope.tenantId) s.global (sizeAt s scope key) value.size
      tenant global) (t : TenantId) :
    (held (putState s scope key value version tenant global) t).Holds
      (objectsOf (ofTenant t) (putState s scope key value version tenant global).objects)
      (bytesOf (ofTenant t) (putState s scope key value version tenant global).objects) := by
  rw [held_putState]
  show Counters.Holds _
    (objectsOf (ofTenant t) (s.objects.insert (identity scope key) ⟨version, value⟩))
    (bytesOf (ofTenant t) (s.objects.insert (identity scope key) ⟨version, value⟩))
  by_cases h : scope.tenantId = t
  · subst h
    rw [if_pos rfl]
    exact Holds.put (by simp [ofTenant_identity]) (hacc.tenants _) hadm.tenant
  · have hp : ofTenant t (identity scope key) = false := by simp [ofTenant_identity, h]
    rw [if_neg h, objectsOf_insert_of_not hp, bytesOf_insert_of_not hp]
    exact hacc.tenants t

theorem accounted_putState (hacc : Accounted limits s)
    (hver : version.revision.toNat = s.revision.toNat + 1)
    (hadm : Admitted limits (held s scope.tenantId) s.global (sizeAt s scope key) value.size
      tenant global) :
    Accounted limits (putState s scope key value version tenant global) := by
  have hten : ∀ t, (held (putState s scope key value version tenant global) t).Holds
      (objectsOf (ofTenant t) (putState s scope key value version tenant global).objects)
      (bytesOf (ofTenant t) (putState s scope key value version tenant global).objects) :=
    putState_holds hacc hadm
  have hglob : global.Holds
      (objectsOf ofAll (putState s scope key value version tenant global).objects)
      (bytesOf ofAll (putState s scope key value version tenant global).objects) :=
    Holds.put rfl hacc.global hadm.global
  have hself : (putState s scope key value version tenant global).objects[identity scope key]? =
      some ⟨version, value⟩ := by rw [getElem?_putState, if_pos rfl]
  have hold : ∀ (id : Identity) (e : Entry), identity scope key ≠ id →
      (putState s scope key value version tenant global).objects[id]? = some e →
        s.objects[id]? = some e := by
    intro id e hne he
    rwa [getElem?_putState, if_neg hne] at he
  have hlim : ∀ t, objectsOf (ofTenant t) (putState s scope key value version tenant global).objects
        ≤ limits.maxObjectsPerTenant.toNat ∧
      bytesOf (ofTenant t) (putState s scope key value version tenant global).objects
        ≤ limits.maxValueBytesPerTenant.toNat := by
    intro t
    have h := hten t
    rw [held_putState] at h
    by_cases e : scope.tenantId = t
    · rw [if_pos e] at h
      rw [← h.objects_eq, ← h.bytes_eq]
      exact ⟨hadm.tenant_objects_le, hadm.tenant_bytes_le⟩
    · rw [if_neg e] at h
      have h0 := hacc.tenants t
      rw [← h.objects_eq, ← h.bytes_eq, h0.objects_eq, h0.bytes_eq]
      exact ⟨hacc.tenant_objects_le t, hacc.tenant_bytes_le t⟩
  refine ⟨hten, ?_, hglob, fun t => (hlim t).1, fun t => (hlim t).2, ?_, ?_, ?_, ?_⟩
  · intro t c hc
    have hrow : held (putState s scope key value version tenant global) t = c := by
      unfold held; rw [hc]; rfl
    by_cases e : scope.tenantId = t
    · have h := hten t
      have h1 := (le_of_getElem? (p := ofTenant t) (by simp [ofTenant_identity, e]) hself).1
      rw [hrow] at h
      intro h0
      have := h.objects_eq
      rw [h0] at this
      simp at this
      omega
    · apply hacc.rows t c
      unfold putState at hc
      simpa [Std.ExtTreeMap.getElem?_insert, e] using hc
  · rw [← hglob.objects_eq]; exact hadm.global_objects_le
  · rw [← hglob.bytes_eq]; exact hadm.global_bytes_le
  · intro id e he
    show e.version.revision.toNat ≤ version.revision.toNat
    by_cases h : identity scope key = id
    · subst h
      rw [hself] at he
      cases he
      exact le_rfl
    · have := hacc.version_le id e (hold id e h he)
      omega
  · intro id₁ id₂ e₁ e₂ he₁ he₂ hv
    have hnew : ∀ (id : Identity) (e : Entry), identity scope key ≠ id →
        (putState s scope key value version tenant global).objects[id]? = some e →
          e.version ≠ version := by
      intro id e h he hev
      have := hacc.version_le id e (hold id e h he)
      rw [hev] at this
      omega
    by_cases h₁ : identity scope key = id₁ <;> by_cases h₂ : identity scope key = id₂
    · rw [← h₁, ← h₂]
    · subst h₁
      rw [hself] at he₁
      cases he₁
      exact absurd hv.symm (hnew id₂ e₂ h₂ he₂)
    · subst h₂
      rw [hself] at he₂
      cases he₂
      exact absurd hv (hnew id₁ e₁ h₁ he₁)
    · exact hacc.version_inj id₁ id₂ e₁ e₂ (hold _ _ h₁ he₁) (hold _ _ h₂ he₂) hv

theorem held_deleteState (htb : tenant.objects = 0 → tenant.valueBytes = 0) (t : TenantId) :
    held (deleteState s scope key tenant global) t =
      if scope.tenantId = t then tenant else held s t := by
  unfold held deleteState
  by_cases h0 : tenant.objects = 0
  · by_cases h : scope.tenantId = t
    · have : tenant = default := by
        cases tenant; cases h0; cases htb rfl; rfl
      simp [h, this]
    · simp [h0, h, Std.ExtTreeMap.getElem?_erase]
  · by_cases h : scope.tenantId = t <;> simp [h0, h, Std.ExtTreeMap.getElem?_insert]

theorem getElem?_deleteState {id : Identity} {e : Entry}
    (h : (deleteState s scope key tenant global).objects[id]? = some e) :
    s.objects[id]? = some e := by
  unfold deleteState at h
  by_cases hid : identity scope key = id
  · subst hid; simp at h
  · simpa [Std.ExtTreeMap.getElem?_erase, hid] using h

theorem delete_counters (hacc : Accounted limits s) {current : Entry}
    (hcur : s.objects[identity scope key]? = some current) :
    ∃ row tenant global, s.tenants[scope.tenantId]? = some row ∧
      checkedDeleteCounters .operationFailed row current.value.size = .ok tenant ∧
      checkedDeleteCounters .operationFailed s.global current.value.size = .ok global := by
  have hsub : ∀ {c : Counters} {objects bytes : ℕ}, c.Holds objects bytes → 1 ≤ objects →
      current.value.asBytes.length ≤ bytes →
        ∃ c', checkedDeleteCounters .operationFailed c current.value.size = .ok c' := by
    intro c objects bytes hc h1 h2
    have ho := hc.objects_eq
    have hb := hc.bytes_eq
    refine ⟨⟨c.objects - 1, c.valueBytes - current.value.size⟩, checkedDeleteCounters_ok.mpr ?_⟩
    have hle : (1 : UInt64) ≤ c.objects := by rw [UInt64.le_iff_toNat_le]; simp; omega
    have hle' : current.value.size ≤ c.valueBytes := by
      rw [UInt64.le_iff_toNat_le, ObjectValue.size_toNat]; omega
    simp only [UInt64.toNat_sub_of_le _ _ hle, UInt64.toNat_sub_of_le _ _ hle',
      ObjectValue.size_toNat]
    simp
    omega
  have ht := le_of_getElem? (p := ofTenant scope.tenantId) (by simp [ofTenant_identity]) hcur
  have hg := le_of_getElem? (p := ofAll) rfl hcur
  have hten := hacc.tenants scope.tenantId
  cases hrow : s.tenants[scope.tenantId]? with
  | none =>
    have := hten.objects_eq
    unfold held at this
    rw [hrow] at this
    simp at this
    omega
  | some row =>
    have hheld : held s scope.tenantId = row := by unfold held; rw [hrow]; rfl
    rw [hheld] at hten
    obtain ⟨tenant, htenant⟩ := hsub hten ht.1 ht.2
    obtain ⟨global, hglobal⟩ := hsub hacc.global hg.1 hg.2
    exact ⟨row, tenant, global, rfl, htenant, hglobal⟩

/-- The tenant's counters after a delete are the totals of the objects left. -/
theorem delete_tenant_holds (hacc : Accounted limits s) {current : Entry} {row : Counters}
    (hcur : s.objects[identity scope key]? = some current)
    (hrow : s.tenants[scope.tenantId]? = some row)
    (htenant : checkedDeleteCounters .operationFailed row current.value.size = .ok tenant) :
    tenant.Holds (objectsOf (ofTenant scope.tenantId) (s.objects.erase (identity scope key)))
      (bytesOf (ofTenant scope.tenantId) (s.objects.erase (identity scope key))) := by
  have hheld : held s scope.tenantId = row := by unfold held; rw [hrow]; rfl
  have hten := hacc.tenants scope.tenantId
  rw [hheld] at hten
  obtain ⟨h1, h2⟩ := checkedDeleteCounters_ok.mp htenant
  exact Holds.delete (by simp [ofTenant_identity]) hten hcur h1 h2

theorem bytesOf_eq_zero {p : Identity → Bool} {m : BTreeMap Identity Entry}
    (h : objectsOf p m = 0) : bytesOf p m = 0 := by
  unfold bytesOf
  rw [BTreeMap.sumOver_congr (g := fun _ _ => 0)]
  · unfold BTreeMap.sumOver; simp
  · intro id e he
    by_cases hp : p id = true
    · have := (le_of_getElem? hp he).1
      omega
    · rw [if_neg hp]

theorem delete_tenant_zero (hacc : Accounted limits s) {current : Entry} {row : Counters}
    (hcur : s.objects[identity scope key]? = some current)
    (hrow : s.tenants[scope.tenantId]? = some row)
    (htenant : checkedDeleteCounters .operationFailed row current.value.size = .ok tenant)
    (h0 : tenant.objects = 0) : tenant.valueBytes = 0 := by
  have h := delete_tenant_holds hacc hcur hrow htenant
  have hobj := h.objects_eq
  rw [h0] at hobj
  have hbytes := h.bytes_eq
  rw [bytesOf_eq_zero hobj.symm] at hbytes
  exact UInt64.toNat_inj.mp hbytes

theorem accounted_deleteState (hacc : Accounted limits s) {current : Entry} {row : Counters}
    (hcur : s.objects[identity scope key]? = some current)
    (hrow : s.tenants[scope.tenantId]? = some row)
    (htenant : checkedDeleteCounters .operationFailed row current.value.size = .ok tenant)
    (hglobal : checkedDeleteCounters .operationFailed s.global current.value.size = .ok global) :
    Accounted limits (deleteState s scope key tenant global) := by
  have hthis := delete_tenant_holds hacc hcur hrow htenant
  obtain ⟨hg1, hg2⟩ := checkedDeleteCounters_ok.mp hglobal
  have hglob : global.Holds (objectsOf ofAll (s.objects.erase (identity scope key)))
      (bytesOf ofAll (s.objects.erase (identity scope key))) :=
    Holds.delete rfl hacc.global hcur hg1 hg2
  have hle : ∀ p : Identity → Bool,
      objectsOf p (s.objects.erase (identity scope key)) ≤ objectsOf p s.objects ∧
        bytesOf p (s.objects.erase (identity scope key)) ≤ bytesOf p s.objects := by
    intro p
    unfold objectsOf bytesOf
    rw [BTreeMap.sumOver_erase _ hcur, BTreeMap.sumOver_erase (fun id (entry : Entry) =>
      if p id then entry.value.asBytes.length else 0) hcur]
    exact ⟨Nat.le_add_left _ _, Nat.le_add_left _ _⟩
  refine ⟨?_, ?_, hglob, ?_, ?_, ?_, ?_, ?_, ?_⟩
  · intro t
    rw [held_deleteState (delete_tenant_zero hacc hcur hrow htenant)]
    show Counters.Holds _ (objectsOf (ofTenant t) (s.objects.erase (identity scope key)))
      (bytesOf (ofTenant t) (s.objects.erase (identity scope key)))
    by_cases h : scope.tenantId = t
    · subst h
      rw [if_pos rfl]
      exact hthis
    · have hp : ofTenant t (identity scope key) = false := by simp [ofTenant_identity, h]
      rw [if_neg h, objectsOf_erase_of_not hp, bytesOf_erase_of_not hp]
      exact hacc.tenants t
  · intro t c hc
    unfold deleteState at hc
    by_cases h : scope.tenantId = t <;> by_cases h0 : tenant.objects = 0
    · simp [h0, h] at hc
    · simp only [h0, h, if_false, Std.ExtTreeMap.getElem?_insert_self, Option.some.injEq] at hc
      rw [← hc]; exact h0
    · exact hacc.rows t c (by simpa [h0, h, Std.ExtTreeMap.getElem?_erase] using hc)
    · exact hacc.rows t c (by simpa [h0, h, Std.ExtTreeMap.getElem?_insert] using hc)
  · exact fun t => (hle (ofTenant t)).1.trans (hacc.tenant_objects_le t)
  · exact fun t => (hle (ofTenant t)).2.trans (hacc.tenant_bytes_le t)
  · exact (hle ofAll).1.trans hacc.global_objects_le
  · exact (hle ofAll).2.trans hacc.global_bytes_le
  · exact fun id e he => hacc.version_le id e (getElem?_deleteState he)
  · exact fun id₁ id₂ e₁ e₂ he₁ he₂ =>
      hacc.version_inj id₁ id₂ e₁ e₂ (getElem?_deleteState he₁) (getElem?_deleteState he₂)

end Preservation

/-! ## Runs -/

section Runs

variable {limits : StorageLimits} {s : State}

theorem sizeAt_le (hacc : Accounted limits s) (scope : StorageScope) (key : ObjectKey) :
    ((sizeAt s scope key).getD 0).toNat ≤ (held s scope.tenantId).valueBytes.toNat ∧
      ((sizeAt s scope key).getD 0).toNat ≤ s.global.valueBytes.toNat := by
  rw [(hacc.tenants scope.tenantId).bytes_eq, hacc.global.bytes_eq]
  unfold sizeAt
  cases hcur : s.objects[identity scope key]? with
  | none => exact ⟨Nat.zero_le _, Nat.zero_le _⟩
  | some current =>
    rw [Option.map_some, Option.getD_some, ObjectValue.size_toNat]
    exact ⟨(le_of_getElem? (by simp [ofTenant_identity]) hcur).2, (le_of_getElem? rfl hcur).2⟩

theorem put_error (hacc : Accounted limits s) {scope : StorageScope} {key : ObjectKey}
    {value : ObjectValue} {condition : PutCondition} {e : StorageError}
    (h : put limits s scope key value condition = .error e) :
    e = .limitExceeded ∨ e = .revisionExhausted := by
  rw [put_eq] at h
  by_cases hc : condition.holds (versionAt s scope key) = true
  · rw [if_pos hc] at h
    rcases bind_eq_error.mp h with h | ⟨revision, hrev, h⟩
    · exact Or.inr (okOr_eq_error.mp h).2.symm
    rw [okOr_eq_ok, checkedAdd_eq_some] at hrev
    rcases bind_eq_error.mp h with h | ⟨version, _, h⟩
    · unfold ObjectVersion.fromRevision at h
      split_ifs at h with h0
      simp only [ne_eq, not_not] at h0
      rw [h0] at hrev
      simp at hrev
    rcases bind_eq_error.mp h with h | ⟨⟨tenant, global⟩, _, h⟩
    · left
      obtain ⟨ht, hg⟩ := sizeAt_le hacc scope key
      exact checkedPutCounters_error ht hg h
    · cases h
  · rw [if_neg hc] at h
    cases h

theorem delete_isOk (hacc : Accounted limits s) (scope : StorageScope) (key : ObjectKey)
    (condition : DeleteCondition) : ∃ r, delete s scope key condition = .ok r := by
  cases hcur : s.objects[identity scope key]? with
  | none =>
    refine ⟨(.notFound, s), ?_⟩
    unfold delete
    simp only [hcur]
  | some current =>
    rw [delete_eq condition hcur]
    by_cases hc : condition.holds current.version = true
    · obtain ⟨row, tenant, global, hrow, htenant, hglobal⟩ := delete_counters hacc hcur
      have hz := delete_tenant_zero hacc hcur hrow htenant
      rw [if_pos hc, hrow, okOr_some, ok_bind, htenant, ok_bind, hglobal, ok_bind, if_neg]
      · exact ⟨_, rfl⟩
      · rintro ⟨h0, h1⟩
        exact h1 (hz h0)
    · rw [if_neg hc]
      exact ⟨_, rfl⟩

theorem accounted_step (hacc : Accounted limits s) (c : Call) :
    Accounted limits ((store limits).step s c).2 := by
  cases c with
  | get scope key => exact hacc
  | list scope request => exact hacc
  | put scope key value condition =>
    show Accounted limits (settle s .put (put limits s scope key value condition)).2
    cases h : put limits s scope key value condition with
    | error e => exact hacc
    | ok r =>
      obtain ⟨o, s'⟩ := r
      rcases put_ok h with ⟨-, -, rfl⟩ | ⟨version, tenant, global, -, hver, hadm, -, rfl⟩
      · exact hacc
      · exact accounted_putState hacc hver hadm
  | delete scope key condition =>
    show Accounted limits (settle s .deleted (delete s scope key condition)).2
    cases h : delete s scope key condition with
    | error e => exact hacc
    | ok r =>
      obtain ⟨o, s'⟩ := r
      rcases delete_ok h with ⟨-, -, rfl⟩ | ⟨_, -, -, -, rfl⟩ |
        ⟨current, row, tenant, global, hcur, -, hrow, htenant, hglobal, -, rfl⟩
      · exact hacc
      · exact hacc
      · exact accounted_deleteState hacc hcur hrow htenant hglobal

/-- **Accounting.** The invariant holds after every run of a fresh store. -/
theorem accounted_final (limits : StorageLimits) (calls : List Call) :
    Accounted limits ((store limits).final State.new calls) :=
  Machine.invariant_final (P := Accounted limits) (fun _ c h => accounted_step h c)
    (accounted_new limits) calls

end Runs

end Local

end RustFactory.Storage
