import RustFactory.Storage.Model

/-!
# Storage: the byte encodings of the redb adapter

Keys, values and counters are stored as byte strings.  Every decoder accepts exactly the strings
its encoder produces: `decodeObjectKey_eq_ok`, `decodeObjectValue_eq_ok`, `decodeTenantKey_eq_ok`,
`decodeRevision_eq_ok` and `decodeCounters_eq_ok` state this as an equivalence, from which both
round trips and injectivity follow.  Within one scope the encoding keeps the order of the keys, and
the half-open range above the scope's bytes holds the scope's keys and no others (`between_iff`).
-/

namespace RustFactory.Storage

open RustFactory.Lib

/-- The schema byte that starts every stored key and value. -/
def schema : UInt8 := 1

/-! ## Encoders -/

-- The capacity sums of the source cannot overflow once both lengths fit in 16 bits.

/-- What the keys of a scope begin with: the schema, and tenant and namespace with their lengths. -/
def encodeScopePrefix (scope : StorageScope) : Except StorageError Bytes := do
  let tenant := utf8 scope.tenantId.asStr
  let namespaceBytes := utf8 scope.namespace.asStr
  let tenantLen ← okOr .operationFailed (u16TryFrom tenant.length)
  let namespaceLen ← okOr .operationFailed (u16TryFrom namespaceBytes.length)
  .ok ([schema] ++ toBe 2 tenantLen.toNat ++ tenant ++ toBe 2 namespaceLen.toNat ++ namespaceBytes)

def encodeObjectKey (scope : StorageScope) (key : ObjectKey) : Except StorageError Bytes := do
  let encoded ← encodeScopePrefix scope
  .ok (encoded ++ key.asBytes)

/-- The value of an object's row: the schema, the version and the bytes. -/
def encodeObjectValue (version : ObjectVersion) (value : ObjectValue) : Except StorageError Bytes :=
  .ok ([schema] ++ toBe 8 version.revision.toNat ++ value.asBytes)

def encodeTenantKey (tenant : TenantId) : Except StorageError Bytes := do
  let bytes := utf8 tenant.asStr
  let length ← okOr .operationFailed (u16TryFrom bytes.length)
  .ok ([schema] ++ toBe 2 length.toNat ++ bytes)

def encodeRevision (revision : UInt64) : Bytes := [schema] ++ toBe 8 revision.toNat

def encodeCounters (counters : Counters) : Bytes :=
  [schema] ++ toBe 8 counters.objects.toNat ++ toBe 8 counters.valueBytes.toNat

/-! ## Decoders -/

/-- The bytes from `start` up to `stop`, if both lie inside. -/
def slice (b : Bytes) (start stop : ℕ) : Option Bytes :=
  if start ≤ stop ∧ stop ≤ b.length then some ((b.drop start).take (stop - start)) else none

/-- Reads a length, and where to go on. -/
def readU16 (encoded : Bytes) (offset : ℕ) : Except StorageError (UInt16 × ℕ) := do
  let bytes ← okOr .corruptStore (slice encoded offset (offset + 2))
  .ok (UInt16.ofNat (fromBe bytes), offset + 2)

/-- Reads so many bytes, and where to go on. -/
def readComponent (encoded : Bytes) (offset length : ℕ) : Except StorageError (Bytes × ℕ) := do
  let value ← okOr .corruptStore (slice encoded offset (offset + length))
  .ok (value, offset + length)

/-- Every error of a validated constructor is a corrupt store here. -/
def orCorrupt {α : Type} : Except StorageError α → Except StorageError α
  | .ok a => .ok a
  | .error _ => .error .corruptStore

def decodeObjectKey (encoded : Bytes) : Except StorageError (StorageScope × ObjectKey) :=
  if encoded.head? ≠ some schema then .error .corruptStore else do
  let (tenantLength, offset) ← readU16 encoded 1
  if tenantLength = 0 ∨ maxTenantIdBytes < tenantLength then .error .corruptStore else do
  let (tenant, offset) ← readComponent encoded offset tenantLength.toNat
  let (namespaceLength, offset) ← readU16 encoded offset
  if namespaceLength = 0 ∨ maxNamespaceBytes < namespaceLength then .error .corruptStore else do
  let (namespaceBytes, offset) ← readComponent encoded offset namespaceLength.toNat
  let key ← okOr .corruptStore (slice encoded offset encoded.length)
  if key.isEmpty ∨ maxObjectKeyBytes.toNat < key.length then .error .corruptStore else do
  let tenant ← okOr .corruptStore (fromUtf8 tenant)
  let namespaceStr ← okOr .corruptStore (fromUtf8 namespaceBytes)
  let tenantId ← orCorrupt (TenantId.new tenant)
  let namespaceId ← orCorrupt (Namespace.new namespaceStr)
  let objectKey ← orCorrupt (ObjectKey.new key)
  .ok (⟨tenantId, namespaceId⟩, objectKey)

/-- The version and the value of a row. -/
def decodeObjectValue (encoded : Bytes) : Except StorageError (ObjectVersion × ObjectValue) :=
  if encoded.length < 9 ∨ encoded.head? ≠ some schema ∨
      maxObjectValueBytes.toNat < encoded.length - 9 then
    .error .corruptStore
  else do
    let revision := UInt64.ofNat (fromBe ((encoded.drop 1).take 8))
    let version ← ObjectVersion.fromRevision revision
    let value ← orCorrupt (ObjectValue.new (encoded.drop 9))
    .ok (version, value)

def decodeTenantKey (encoded : Bytes) : Except StorageError TenantId :=
  if encoded.head? ≠ some schema then .error .corruptStore else do
  let (length, offset) ← readU16 encoded 1
  if length = 0 ∨ maxTenantIdBytes < length ∨ encoded.length ≠ 3 + length.toNat then
    .error .corruptStore
  else do
    let value ← okOr .corruptStore (fromUtf8 (encoded.drop offset))
    orCorrupt (TenantId.new value)

def decodeRevision (encoded : Bytes) : Except StorageError UInt64 :=
  if encoded.length ≠ 9 ∨ encoded.head? ≠ some schema then
    .error .corruptStore
  else
    .ok (UInt64.ofNat (fromBe (encoded.drop 1)))

/-- The counters of a row; those of a tenant must not be zero. -/
def decodeCounters (encoded : Bytes) (requireNonzero : Bool) : Except StorageError Counters :=
  if encoded.length ≠ 17 ∨ encoded.head? ≠ some schema then
    .error .corruptStore
  else
    let counters : Counters :=
      ⟨UInt64.ofNat (fromBe ((encoded.drop 1).take 8)),
        UInt64.ofNat (fromBe ((encoded.drop 9).take 8))⟩
    if requireNonzero ∧ counters.objects = 0 then .error .corruptStore else .ok counters

/-- The reversed bytes plus one: the carry runs to the first byte that is not `255`. -/
def successorRev : Bytes → Option Bytes
  | [] => none
  | b :: bs => if b ≠ 255 then some ((b + 1) :: bs) else (successorRev bs).map (0 :: ·)

/-- The least text above all that begin with the given bytes. -/
def prefixSuccessor (bytes : Bytes) : Option Bytes :=
  (successorRev bytes.reverse).map List.reverse

/-! ## Validated identifiers -/

theorem validateLogicalId_isOk {value : String} {maximum : UInt16} {error : StorageError} :
    (validateLogicalId value maximum error).isOk ↔
      (utf8 value).length < 2 ^ 16 ∧ 0 < (utf8 value).length ∧
        (utf8 value).length ≤ maximum.toNat ∧
        isAsciiAlphanumeric ((utf8 value).headD 0) ∧ (utf8 value).all isLogicalIdByte := by
  unfold validateLogicalId u16TryFrom
  dsimp only
  by_cases hlt : (utf8 value).length < 2 ^ 16
  · rw [if_pos hlt]
    simp only [okOr_some, ok_bind]
    have h0 : UInt16.ofNat (utf8 value).length = 0 ↔ (utf8 value).length = 0 := by
      rw [← UInt16.toNat_inj, UInt16.toNat_ofNat', Nat.mod_eq_of_lt hlt]; rfl
    have h1 : maximum < UInt16.ofNat (utf8 value).length ↔ maximum.toNat < (utf8 value).length := by
      rw [UInt16.lt_iff_toNat_lt, UInt16.toNat_ofNat', Nat.mod_eq_of_lt hlt]
    split_ifs with h
    · rw [h0, h1] at h
      simp only [Except.isOk, Except.toBool, Bool.false_eq_true, false_iff]
      rintro ⟨-, h2, h3, h4, h5⟩
      rcases h with h | h | h | h
      · omega
      · omega
      · rw [h4] at h; cases h
      · rw [h5] at h; cases h
    · rw [h0, h1] at h
      simp only [not_or, Bool.not_eq_true, Bool.not_eq_false'] at h
      simp only [Except.isOk, Except.toBool, true_iff]
      exact ⟨hlt, by omega, by omega, h.2.2.1, h.2.2.2⟩
  · rw [if_neg hlt]
    constructor
    · intro h; cases h
    · intro h; exact absurd h.1 hlt

theorem TenantId.length_bounds (t : TenantId) :
    0 < (utf8 t.asStr).length ∧ (utf8 t.asStr).length ≤ 128 := by
  have h := validateLogicalId_isOk.mp t.valid
  exact ⟨h.2.1, h.2.2.1⟩

theorem Namespace.length_bounds (n : Namespace) :
    0 < (utf8 n.asStr).length ∧ (utf8 n.asStr).length ≤ 128 := by
  have h := validateLogicalId_isOk.mp n.valid
  exact ⟨h.2.1, h.2.2.1⟩

theorem ObjectKey.length_bounds (k : ObjectKey) :
    0 < k.asBytes.length ∧ k.asBytes.length ≤ 1024 := by
  have h := k.valid
  unfold validateKey u16TryFrom at h
  by_cases hlt : k.asBytes.length < 2 ^ 16
  · rw [if_pos hlt, okOr_some, ok_bind] at h
    split_ifs at h with hc
    · cases h
    · simp only [not_or, UInt16.not_lt] at hc
      rw [← UInt16.toNat_inj, UInt16.le_iff_toNat_le, UInt16.toNat_ofNat',
        Nat.mod_eq_of_lt hlt] at hc
      have h1 : ¬ k.asBytes.length = 0 := hc.1
      have h2 : k.asBytes.length ≤ 1024 := hc.2
      omega
  · rw [if_neg hlt] at h
    cases h

theorem orCorrupt_eq_ok {α : Type} {x : Except StorageError α} {a : α} :
    orCorrupt x = .ok a ↔ x = .ok a := by
  cases x <;> simp [orCorrupt]

theorem TenantId.new_eq_ok {s : String} {x : TenantId} : TenantId.new s = .ok x ↔ x.asStr = s := by
  unfold TenantId.new
  rw [ifOk_eq_ok]
  constructor
  · rintro ⟨h, rfl⟩; rfl
  · rintro rfl; exact ⟨x.valid, rfl⟩

theorem Namespace.new_eq_ok {s : String} {x : Namespace} : Namespace.new s = .ok x ↔ x.asStr = s := by
  unfold Namespace.new
  rw [ifOk_eq_ok]
  constructor
  · rintro ⟨h, rfl⟩; rfl
  · rintro rfl; exact ⟨x.valid, rfl⟩

theorem ObjectKey.new_eq_ok {b : Bytes} {x : ObjectKey} : ObjectKey.new b = .ok x ↔ x.asBytes = b := by
  unfold ObjectKey.new
  rw [ifOk_eq_ok]
  constructor
  · rintro ⟨h, rfl⟩; rfl
  · rintro rfl; exact ⟨x.valid, rfl⟩

theorem ObjectValue.new_eq_ok {b : Bytes} {x : ObjectValue} : ObjectValue.new b = .ok x ↔ x.asBytes = b := by
  unfold ObjectValue.new
  rw [ifOk_eq_ok]
  constructor
  · rintro ⟨h, rfl⟩; rfl
  · rintro rfl; exact ⟨x.valid, rfl⟩

/-! ## Total encodings -/

/-- The bytes a scope's keys start with. -/
def scopeBytes (scope : StorageScope) : Bytes :=
  [schema] ++ toBe 2 (utf8 scope.tenantId.asStr).length ++ utf8 scope.tenantId.asStr ++
    toBe 2 (utf8 scope.namespace.asStr).length ++ utf8 scope.namespace.asStr

/-- The stored key of an object. -/
def objectKeyBytes (scope : StorageScope) (key : ObjectKey) : Bytes :=
  scopeBytes scope ++ key.asBytes

/-- The stored value of an object. -/
def objectValueBytes (version : ObjectVersion) (value : ObjectValue) : Bytes :=
  [schema] ++ toBe 8 version.revision.toNat ++ value.asBytes

/-- The stored key of a tenant's counters. -/
def tenantKeyBytes (tenant : TenantId) : Bytes :=
  [schema] ++ toBe 2 (utf8 tenant.asStr).length ++ utf8 tenant.asStr

theorem u16TryFrom_of_lt {n : ℕ} (h : n < 2 ^ 16) :
    ∃ w : UInt16, u16TryFrom n = some w ∧ w.toNat = n := by
  refine ⟨UInt16.ofNat n, by unfold u16TryFrom; rw [if_pos h], ?_⟩
  rw [UInt16.toNat_ofNat', Nat.mod_eq_of_lt h]

theorem encodeScopePrefix_eq (scope : StorageScope) :
    encodeScopePrefix scope = .ok (scopeBytes scope) := by
  have ht := scope.tenantId.length_bounds
  have hn := scope.namespace.length_bounds
  obtain ⟨w, hw, hwn⟩ := u16TryFrom_of_lt (n := (utf8 scope.tenantId.asStr).length) (by omega)
  obtain ⟨v, hv, hvn⟩ := u16TryFrom_of_lt (n := (utf8 scope.namespace.asStr).length) (by omega)
  unfold encodeScopePrefix scopeBytes
  dsimp only
  rw [hw, hv, okOr_some, ok_bind, okOr_some, ok_bind, hwn, hvn]

theorem encodeObjectKey_eq (scope : StorageScope) (key : ObjectKey) :
    encodeObjectKey scope key = .ok (objectKeyBytes scope key) := by
  unfold encodeObjectKey; rw [encodeScopePrefix_eq]; rfl

theorem encodeObjectValue_eq (version : ObjectVersion) (value : ObjectValue) :
    encodeObjectValue version value = .ok (objectValueBytes version value) := rfl

theorem encodeTenantKey_eq (tenant : TenantId) :
    encodeTenantKey tenant = .ok (tenantKeyBytes tenant) := by
  have ht := tenant.length_bounds
  obtain ⟨w, hw, hwn⟩ := u16TryFrom_of_lt (n := (utf8 tenant.asStr).length) (by omega)
  unfold encodeTenantKey tenantKeyBytes
  dsimp only
  rw [hw, okOr_some, ok_bind, hwn]

/-! ## Reading at an offset -/

theorem slice_eq_some {b x : Bytes} {start stop : ℕ} :
    slice b start stop = some x ↔
      start ≤ stop ∧ stop ≤ b.length ∧ x.length = stop - start ∧ b.drop start = x ++ b.drop stop := by
  unfold slice
  constructor
  · intro h
    split_ifs at h with hc
    cases h
    refine ⟨hc.1, hc.2, ?_, ?_⟩
    · rw [List.length_take, List.length_drop]; omega
    · have hd : b.drop stop = (b.drop start).drop (stop - start) := by
        rw [List.drop_drop]; congr 1; omega
      rw [hd, List.take_append_drop]
  · rintro ⟨h1, h2, h3, h4⟩
    rw [if_pos ⟨h1, h2⟩, h4, ← h3, List.take_left]

theorem slice_of_drop {b x rest : Bytes} {start : ℕ} (hs : start ≤ b.length)
    (h : b.drop start = x ++ rest) :
    slice b start (start + x.length) = some x ∧ b.drop (start + x.length) = rest ∧
      start + x.length ≤ b.length := by
  have hlen : (b.drop start).length = x.length + rest.length := by rw [h, List.length_append]
  rw [List.length_drop] at hlen
  have hd : b.drop (start + x.length) = rest := by
    rw [← List.drop_drop, h, List.drop_left]
  refine ⟨slice_eq_some.mpr ⟨Nat.le_add_right _ _, by omega, by omega, ?_⟩, hd, by omega⟩
  rw [hd, h]

theorem readComponent_of_drop {b x rest : Bytes} {start : ℕ} (hs : start ≤ b.length)
    (h : b.drop start = x ++ rest) :
    readComponent b start x.length = .ok (x, start + x.length) := by
  unfold readComponent; rw [(slice_of_drop hs h).1]; rfl

theorem readU16_of_drop {b rest : Bytes} {start n : ℕ} (hs : start ≤ b.length) (hn : n < 2 ^ 16)
    (h : b.drop start = toBe 2 n ++ rest) :
    readU16 b start = .ok (UInt16.ofNat n, start + 2) := by
  have h' := (slice_of_drop hs h).1
  rw [length_toBe] at h'
  unfold readU16
  rw [h', okOr_some, ok_bind, fromBe_toBe (by omega)]

theorem readComponent_eq_ok {b x : Bytes} {start n stop : ℕ}
    (h : readComponent b start n = .ok (x, stop)) :
    x.length = n ∧ stop = start + n ∧ stop ≤ b.length ∧ b.drop start = x ++ b.drop stop := by
  unfold readComponent at h
  obtain ⟨v, hv, h⟩ := bind_eq_ok.mp h
  cases h
  obtain ⟨h1, h2, h3, h4⟩ := slice_eq_some.mp (okOr_eq_ok.mp hv)
  exact ⟨by omega, rfl, h2, h4⟩

theorem readU16_eq_ok {b : Bytes} {w : UInt16} {start stop : ℕ}
    (h : readU16 b start = .ok (w, stop)) :
    stop = start + 2 ∧ stop ≤ b.length ∧ b.drop start = toBe 2 w.toNat ++ b.drop stop := by
  unfold readU16 at h
  obtain ⟨v, hv, h⟩ := bind_eq_ok.mp h
  cases h
  obtain ⟨h1, h2, h3, h4⟩ := slice_eq_some.mp (okOr_eq_ok.mp hv)
  have hl : v.length = 2 := by omega
  have hlt := fromBe_lt v
  rw [hl] at hlt
  refine ⟨rfl, h2, ?_⟩
  rw [UInt16.toNat_ofNat', Nat.mod_eq_of_lt (by omega), ← hl, toBe_fromBe, h4, hl]

theorem head?_eq_schema {b : Bytes} : b.head? = some schema ↔ b = [schema] ++ b.drop 1 := by
  cases b with
  | nil => simp
  | cons a b => simp

/-! ## Decoding is the inverse of encoding -/

theorem uInt64_ofNat_toBe (x : UInt64) : UInt64.ofNat (fromBe (toBe 8 x.toNat)) = x := by
  have hx := x.toNat_lt
  rw [fromBe_toBe (by omega)]
  exact UInt64.ofNat_toNat

theorem toBe_uInt64_ofNat {b : Bytes} (h : b.length = 8) :
    toBe 8 (UInt64.ofNat (fromBe b)).toNat = b := by
  have hlt := fromBe_lt b
  rw [h] at hlt
  rw [UInt64.toNat_ofNat', Nat.mod_eq_of_lt (by omega), ← h, toBe_fromBe]

/-- A component length within its maximum `m` passes the length check of the decoder. -/
theorem componentLength_ok {n : ℕ} {m : UInt16} (h0 : 0 < n) (h : n ≤ m.toNat) :
    ¬ (UInt16.ofNat n = 0 ∨ m < UInt16.ofNat n) ∧ (UInt16.ofNat n).toNat = n := by
  have hm := m.toNat_lt
  have hn : (UInt16.ofNat n).toNat = n := by rw [UInt16.toNat_ofNat', Nat.mod_eq_of_lt (by omega)]
  refine ⟨?_, hn⟩
  rw [← UInt16.toNat_inj, UInt16.lt_iff_toNat_lt, hn]
  simp only [UInt16.reduceToNat]
  omega

theorem orCorrupt_of_ok {α : Type} {x : Except StorageError α} {a : α} (h : x = .ok a) :
    orCorrupt x = .ok a := orCorrupt_eq_ok.mpr h

theorem decodeObjectKey_objectKeyBytes (scope : StorageScope) (key : ObjectKey) :
    decodeObjectKey (objectKeyBytes scope key) = .ok (scope, key) := by
  have ht := scope.tenantId.length_bounds
  have hn := scope.namespace.length_bounds
  have hk := key.length_bounds
  obtain ⟨htc, htn⟩ := componentLength_ok (m := maxTenantIdBytes) ht.1 ht.2
  obtain ⟨hnc, hnn⟩ := componentLength_ok (m := maxNamespaceBytes) hn.1 hn.2
  generalize hb : objectKeyBytes scope key = b
  -- the parts of the encoding, each at its offset
  have h0 : b = [schema] ++ (toBe 2 (utf8 scope.tenantId.asStr).length ++
      (utf8 scope.tenantId.asStr ++ (toBe 2 (utf8 scope.namespace.asStr).length ++
        (utf8 scope.namespace.asStr ++ key.asBytes)))) := by
    rw [← hb]; unfold objectKeyBytes scopeBytes; simp only [List.append_assoc]
  have hlen : b.length = 1 + (2 + ((utf8 scope.tenantId.asStr).length +
      (2 + ((utf8 scope.namespace.asStr).length + key.asBytes.length)))) := by
    rw [h0]; simp only [List.length_append, length_toBe, List.length_singleton]
  obtain ⟨-, h1, -⟩ := slice_of_drop (Nat.zero_le _) ((List.drop_zero (l := b)).trans h0)
  rw [List.length_singleton] at h1
  obtain ⟨-, h3, -⟩ := slice_of_drop (by omega) h1
  rw [length_toBe] at h3
  obtain ⟨-, h4, -⟩ := slice_of_drop (by omega) h3
  obtain ⟨-, h5, -⟩ := slice_of_drop (by omega) h4
  rw [length_toBe] at h5
  obtain ⟨-, h6, -⟩ := slice_of_drop (by omega) h5
  rw [← List.append_nil key.asBytes] at h6
  have h7 := (slice_of_drop (by omega) h6).1
  rw [show 0 + 1 + 2 + (utf8 scope.tenantId.asStr).length + 2 + (utf8 scope.namespace.asStr).length +
    key.asBytes.length = b.length by omega] at h7
  have hkc : ¬ (key.asBytes.isEmpty = true ∨ maxObjectKeyBytes.toNat < key.asBytes.length) := by
    rw [List.isEmpty_iff_length_eq_zero]
    show ¬ (_ ∨ 1024 < _)
    omega
  unfold decodeObjectKey
  rw [if_neg (by rw [h0]; simp), readU16_of_drop (by omega) (by omega) h1, ok_bind]
  dsimp only
  rw [if_neg htc, htn, readComponent_of_drop (by omega) h3, ok_bind]
  dsimp only
  rw [readU16_of_drop (by omega) (by omega) h4, ok_bind]
  dsimp only
  rw [if_neg hnc, hnn, readComponent_of_drop (by omega) h5, ok_bind]
  dsimp only
  rw [h7, okOr_some, ok_bind, if_neg hkc, fromUtf8_utf8, okOr_some, ok_bind, fromUtf8_utf8,
    okOr_some, ok_bind, orCorrupt_of_ok (TenantId.new_eq_ok.mpr rfl), ok_bind,
    orCorrupt_of_ok (Namespace.new_eq_ok.mpr rfl), ok_bind,
    orCorrupt_of_ok (ObjectKey.new_eq_ok.mpr rfl), ok_bind]

/-- The key decoder accepts exactly the encodings, and returns what was encoded. -/
theorem decodeObjectKey_eq_ok {b : Bytes} {scope : StorageScope} {key : ObjectKey} :
    decodeObjectKey b = .ok (scope, key) ↔ b = objectKeyBytes scope key := by
  constructor
  · intro h
    unfold decodeObjectKey at h
    split_ifs at h with hs
    rw [not_not, head?_eq_schema] at hs
    obtain ⟨⟨w, o1⟩, hw, h⟩ := bind_eq_ok.mp h
    dsimp only at h
    split_ifs at h with hw0
    obtain ⟨⟨x, o2⟩, hx, h⟩ := bind_eq_ok.mp h
    obtain ⟨⟨w', o3⟩, hw', h⟩ := bind_eq_ok.mp h
    dsimp only at h
    split_ifs at h with hw0'
    obtain ⟨⟨y, o4⟩, hy, h⟩ := bind_eq_ok.mp h
    obtain ⟨k, hk, h⟩ := bind_eq_ok.mp h
    dsimp only at h
    split_ifs at h with hk0
    obtain ⟨t, ht, h⟩ := bind_eq_ok.mp h
    obtain ⟨n, hn, h⟩ := bind_eq_ok.mp h
    obtain ⟨tenantId, htid, h⟩ := bind_eq_ok.mp h
    obtain ⟨namespaceId, hnid, h⟩ := bind_eq_ok.mp h
    obtain ⟨objectKey, hkid, h⟩ := bind_eq_ok.mp h
    cases h
    obtain ⟨rfl, -, e1⟩ := readU16_eq_ok hw
    obtain ⟨hxl, rfl, -, e2⟩ := readComponent_eq_ok hx
    obtain ⟨rfl, -, e3⟩ := readU16_eq_ok hw'
    obtain ⟨hyl, rfl, -, e4⟩ := readComponent_eq_ok hy
    obtain ⟨-, -, -, e5⟩ := slice_eq_some.mp (okOr_eq_ok.mp hk)
    rw [List.drop_length, List.append_nil] at e5
    have ex := utf8_of_fromUtf8 (okOr_eq_ok.mp ht)
    have ey := utf8_of_fromUtf8 (okOr_eq_ok.mp hn)
    have et := TenantId.new_eq_ok.mp (orCorrupt_eq_ok.mp htid)
    have en := Namespace.new_eq_ok.mp (orCorrupt_eq_ok.mp hnid)
    have ek := ObjectKey.new_eq_ok.mp (orCorrupt_eq_ok.mp hkid)
    unfold objectKeyBytes scopeBytes
    dsimp only
    rw [et, en, ek, ex, ey, hxl, hyl, hs, e1, e2, e3, e4, e5]
    simp only [List.append_assoc]
  · rintro rfl
    exact decodeObjectKey_objectKeyBytes scope key

/-- The value decoder accepts exactly the encodings. -/
theorem decodeObjectValue_eq_ok {b : Bytes} {version : ObjectVersion} {value : ObjectValue} :
    decodeObjectValue b = .ok (version, value) ↔ b = objectValueBytes version value := by
  constructor
  · intro h
    unfold decodeObjectValue at h
    split_ifs at h with hc
    simp only [not_or, not_not] at hc
    obtain ⟨hlen, hs, -⟩ := hc
    obtain ⟨v, hv, h⟩ := bind_eq_ok.mp h
    obtain ⟨x, hx, h⟩ := bind_eq_ok.mp h
    cases h
    have hrev : version.revision = UInt64.ofNat (fromBe ((b.drop 1).take 8)) := by
      unfold ObjectVersion.fromRevision at hv
      split_ifs at hv
      cases hv
      rfl
    have hval := ObjectValue.new_eq_ok.mp (orCorrupt_eq_ok.mp hx)
    have hl : ((b.drop 1).take 8).length = 8 := by
      rw [List.length_take, List.length_drop]; omega
    unfold objectValueBytes
    rw [hrev, toBe_uInt64_ofNat hl, hval, List.append_assoc, show b.drop 9 = (b.drop 1).drop 8 by
      rw [List.drop_drop], List.take_append_drop]
    exact head?_eq_schema.mp hs
  · rintro rfl
    have h1 : (objectValueBytes version value).drop 1 =
        toBe 8 version.revision.toNat ++ value.asBytes := rfl
    have h9 : (objectValueBytes version value).drop 9 = value.asBytes := by
      rw [show 9 = 1 + 8 by rfl, ← List.drop_drop, h1]
      exact List.drop_left' (length_toBe _ _)
    have hlen : (objectValueBytes version value).length = 9 + value.asBytes.length := by
      unfold objectValueBytes
      rw [List.length_append, List.length_append, length_toBe, List.length_singleton]
    have hv := value.length_le
    unfold decodeObjectValue
    rw [if_neg, h1, h9, List.take_left' (length_toBe _ _), uInt64_ofNat_toBe]
    · unfold ObjectVersion.fromRevision
      dsimp only
      rw [dif_pos version.nonzero, ok_bind, orCorrupt_of_ok (ObjectValue.new_eq_ok.mpr rfl), ok_bind]
    · rw [hlen]
      simp only [not_or, not_not]
      exact ⟨by omega, rfl, by omega⟩

theorem decodeTenantKey_eq_ok {b : Bytes} {t : TenantId} :
    decodeTenantKey b = .ok t ↔ b = tenantKeyBytes t := by
  constructor
  · intro h
    unfold decodeTenantKey at h
    split_ifs at h with hs
    rw [not_not, head?_eq_schema] at hs
    obtain ⟨⟨w, o⟩, hw, h⟩ := bind_eq_ok.mp h
    dsimp only at h
    split_ifs at h with hc
    simp only [not_or, not_not] at hc
    obtain ⟨x, hx, hnew⟩ := bind_eq_ok.mp h
    obtain ⟨rfl, -, e1⟩ := readU16_eq_ok hw
    have ex := utf8_of_fromUtf8 (okOr_eq_ok.mp hx)
    have et := TenantId.new_eq_ok.mp (orCorrupt_eq_ok.mp hnew)
    have hl : (utf8 x).length = w.toNat := by
      rw [ex, List.length_drop, hc.2.2]; omega
    unfold tenantKeyBytes
    rw [et, hl, ex, List.append_assoc, ← e1]
    exact hs
  · rintro rfl
    have ht := t.length_bounds
    obtain ⟨hc, hn⟩ := componentLength_ok (m := maxTenantIdBytes) ht.1 ht.2
    have h1 : (tenantKeyBytes t).drop 1 = toBe 2 (utf8 t.asStr).length ++ utf8 t.asStr := rfl
    have hlen : (tenantKeyBytes t).length = 3 + (utf8 t.asStr).length := by
      unfold tenantKeyBytes
      rw [List.length_append, List.length_append, length_toBe, List.length_singleton]
    have h3 : (tenantKeyBytes t).drop (1 + 2) = utf8 t.asStr := by
      rw [← List.drop_drop, h1]
      exact List.drop_left' (length_toBe _ _)
    unfold decodeTenantKey
    rw [if_neg (by simp [tenantKeyBytes]), readU16_of_drop (by omega) (by omega) h1, ok_bind]
    dsimp only
    rw [if_neg, h3, fromUtf8_utf8, okOr_some, ok_bind]
    · exact orCorrupt_of_ok (TenantId.new_eq_ok.mpr rfl)
    · rw [hn, hlen]
      rintro (h | h | h)
      · exact hc (Or.inl h)
      · exact hc (Or.inr h)
      · exact h rfl

theorem decodeRevision_eq_ok {b : Bytes} {r : UInt64} :
    decodeRevision b = .ok r ↔ b = encodeRevision r := by
  unfold decodeRevision encodeRevision
  constructor
  · intro h
    split_ifs at h with hc
    simp only [not_or, not_not] at hc
    cases h
    rw [toBe_uInt64_ofNat (by rw [List.length_drop, hc.1])]
    exact head?_eq_schema.mp hc.2
  · rintro rfl
    have hx : UInt64.ofNat (fromBe (toBe 8 r.toNat)) = r := uInt64_ofNat_toBe r
    rw [if_neg]
    · exact congrArg Except.ok hx
    · simp

/-- The counter decoder accepts exactly the encodings, except a zero row where that is refused. -/
theorem decodeCounters_eq_ok {b : Bytes} {z : Bool} {c : Counters} :
    decodeCounters b z = .ok c ↔ b = encodeCounters c ∧ (z = true → c.objects ≠ 0) := by
  unfold decodeCounters
  constructor
  · intro h
    split_ifs at h with hc
    dsimp only at h
    split_ifs at h with h0
    simp only [not_or, not_not] at hc
    cases h
    have h8 : ((b.drop 1).take 8).length = 8 := by simp [hc.1]
    have h9 : (b.drop 9).take 8 = (b.drop 1).drop 8 := by
      rw [List.drop_drop]; exact List.take_of_length_le (by simp [hc.1])
    have h9' : ((b.drop 1).drop 8).length = 8 := by simp [hc.1]
    refine ⟨?_, fun hz e => h0 ⟨hz, e⟩⟩
    unfold encodeCounters
    dsimp only
    rw [h9, toBe_uInt64_ofNat h8, toBe_uInt64_ofNat h9', List.append_assoc, List.take_append_drop]
    exact head?_eq_schema.mp hc.2
  · rintro ⟨rfl, hz⟩
    have h1 : ((encodeCounters c).drop 1).take 8 = toBe 8 c.objects.toNat :=
      List.take_left' (length_toBe _ _)
    have h9 : ((encodeCounters c).drop 9).take 8 = toBe 8 c.valueBytes.toNat := by
      have hd : (encodeCounters c).drop 9 = toBe 8 c.valueBytes.toNat := by
        rw [show 9 = 1 + 8 by rfl, ← List.drop_drop]
        exact List.drop_left' (length_toBe _ _)
      rw [hd]
      exact List.take_of_length_le (by rw [length_toBe])
    rw [h1, h9, uInt64_ofNat_toBe, uInt64_ofNat_toBe, if_neg (by simp [encodeCounters])]
    dsimp only
    rw [if_neg fun h => hz h.1 h.2]

/-! ## Order and scope ranges -/

theorem tenantKeyBytes_injective : Function.Injective tenantKeyBytes := by
  intro t₁ t₂ h
  have h₁ := decodeTenantKey_eq_ok.mpr (rfl : tenantKeyBytes t₁ = _)
  have h₂ := decodeTenantKey_eq_ok.mpr h
  exact Except.ok.inj (h₁.symm.trans h₂)

theorem encodeCounters_injective : Function.Injective encodeCounters := by
  intro c₁ c₂ h
  have h₁ : decodeCounters (encodeCounters c₁) false = .ok c₁ :=
    decodeCounters_eq_ok.mpr ⟨rfl, nofun⟩
  have h₂ : decodeCounters (encodeCounters c₁) false = .ok c₂ :=
    decodeCounters_eq_ok.mpr ⟨h, nofun⟩
  exact Except.ok.inj (h₁.symm.trans h₂)

theorem objectKeyBytes_inj {scope scope' : StorageScope} {key key' : ObjectKey} :
    objectKeyBytes scope key = objectKeyBytes scope' key' ↔ scope = scope' ∧ key = key' := by
  constructor
  · intro h
    have h' := decodeObjectKey_eq_ok.mpr h
    rw [decodeObjectKey_objectKeyBytes] at h'
    cases h'
    exact ⟨rfl, rfl⟩
  · rintro ⟨rfl, rfl⟩
    rfl

theorem objectKeyBytes_lt_iff {scope : StorageScope} {key key' : ObjectKey} :
    objectKeyBytes scope key < objectKeyBytes scope key' ↔ key < key' := by
  unfold objectKeyBytes
  rw [append_lt_append_iff, ObjectKey.lt_iff]

/-- A length-delimited part at the front of a string is determined by the string. -/
theorem component_inj {x x' rest rest' : Bytes} (hx : x.length ≤ 128) (hx' : x'.length ≤ 128)
    (h : toBe 2 x.length ++ (x ++ rest) = toBe 2 x'.length ++ (x' ++ rest')) :
    x = x' ∧ rest = rest' := by
  obtain ⟨hl, hr⟩ := List.append_inj h (by rw [length_toBe, length_toBe])
  have hlen : x.length = x'.length := by
    rw [← fromBe_toBe (k := 2) (x := x.length) (by omega), hl, fromBe_toBe (by omega)]
  exact List.append_inj hr hlen

/-- No scope's bytes continue into another scope's keys. -/
theorem scopeBytes_append_inj {scope scope' : StorageScope} {x x' : Bytes}
    (h : scopeBytes scope ++ x = scopeBytes scope' ++ x') : scope = scope' ∧ x = x' := by
  unfold scopeBytes at h
  simp only [List.append_assoc] at h
  obtain ⟨-, h⟩ := List.append_inj h rfl
  obtain ⟨ht, h⟩ := component_inj scope.tenantId.length_bounds.2 scope'.tenantId.length_bounds.2 h
  obtain ⟨hn, hx⟩ := component_inj scope.namespace.length_bounds.2 scope'.namespace.length_bounds.2 h
  refine ⟨?_, hx⟩
  have h₁ := TenantId.new_eq_ok.mpr (utf8_injective ht)
  have h₂ := TenantId.new_eq_ok.mpr (rfl : scope'.tenantId.asStr = _)
  have h₃ := Namespace.new_eq_ok.mpr (utf8_injective hn)
  have h₄ := Namespace.new_eq_ok.mpr (rfl : scope'.namespace.asStr = _)
  rw [h₁] at h₂
  rw [h₃] at h₄
  cases scope; cases scope'; cases h₂; cases h₄
  rfl

theorem ne_max_of_isLogicalIdByte {b : UInt8} (h : isLogicalIdByte b = true) : b ≠ 255 := by
  rintro rfl
  revert h
  decide

/-- The scope's bytes end in a byte of the namespace, which has a successor. -/
theorem scopeBytes_concat (scope : StorageScope) :
    ∃ p b, scopeBytes scope = p ++ [b] ∧ b ≠ 255 := by
  have hn := validateLogicalId_isOk.mp scope.namespace.valid
  obtain ⟨q, b, hq⟩ : ∃ q b, utf8 scope.namespace.asStr = q ++ [b] := by
    rcases List.eq_nil_or_concat' (utf8 scope.namespace.asStr) with h | h
    · have := hn.2.1
      rw [h] at this
      exact absurd this (lt_irrefl _)
    · exact h
  refine ⟨[schema] ++ toBe 2 (utf8 scope.tenantId.asStr).length ++ utf8 scope.tenantId.asStr ++
    toBe 2 (utf8 scope.namespace.asStr).length ++ q, b, ?_, ?_⟩
  · unfold scopeBytes
    rw [List.append_assoc _ q, ← hq]
  · have hall := List.all_eq_true.mp hn.2.2.2.2 b (by rw [hq]; simp)
    exact ne_max_of_isLogicalIdByte hall

theorem prefixSuccessor_concat {p : Bytes} {b : UInt8} (hb : b ≠ 255) :
    prefixSuccessor (p ++ [b]) = some (p ++ [b + 1]) := by
  unfold prefixSuccessor
  rw [List.reverse_append, List.reverse_singleton, List.singleton_append]
  unfold successorRev
  rw [if_pos hb, Option.map_some, List.reverse_cons, List.reverse_reverse]

/-- The upper end of a scope's range exists, and between the scope's bytes and it lie exactly the
stored keys of the scope. -/
theorem between_iff (scope : StorageScope) :
    ∃ upper, prefixSuccessor (scopeBytes scope) = some upper ∧
      ∀ scope' key, (scopeBytes scope < objectKeyBytes scope' key ∧
        objectKeyBytes scope' key < upper) ↔ scope' = scope := by
  obtain ⟨p, b, hp, hb⟩ := scopeBytes_concat scope
  refine ⟨p ++ [b + 1], by rw [hp]; exact prefixSuccessor_concat hb, ?_⟩
  intro scope' key
  rw [hp, between_iff_extends hb, ← hp]
  constructor
  · rintro ⟨t, -, ht⟩
    exact (scopeBytes_append_inj ht).1
  · rintro rfl
    have hk := key.length_bounds
    refine ⟨key.asBytes, ?_, rfl⟩
    intro h
    rw [h] at hk
    exact absurd hk.1 (lt_irrefl _)

theorem scopeBytes_ne_objectKeyBytes (scope scope' : StorageScope) (key : ObjectKey) :
    scopeBytes scope ≠ objectKeyBytes scope' key := by
  intro h
  have hk := key.length_bounds.1
  unfold objectKeyBytes at h
  rw [← List.append_nil (scopeBytes scope)] at h
  rw [← (scopeBytes_append_inj h).2] at hk
  exact absurd hk (lt_irrefl _)

/-- The codec of object keys: total and injective, decoding and encoding are inverse to each other,
the order of keys is kept within a scope, and the half-open range above a scope's bytes holds the
keys of that scope and of no other. -/
theorem objectKeyCodec_faithful :
    (∀ scope key, ∃ b, encodeObjectKey scope key = .ok b) ∧
    (∀ scope key scope' key', encodeObjectKey scope key = encodeObjectKey scope' key' →
      scope = scope' ∧ key = key') ∧
    (∀ scope key b, encodeObjectKey scope key = .ok b → decodeObjectKey b = .ok (scope, key)) ∧
    (∀ b scope key, decodeObjectKey b = .ok (scope, key) → encodeObjectKey scope key = .ok b) ∧
    (∀ scope key key' b b', encodeObjectKey scope key = .ok b →
      encodeObjectKey scope key' = .ok b' → (b < b' ↔ key.asBytes < key'.asBytes)) ∧
    ∀ scope, ∃ lower upper, encodeScopePrefix scope = .ok lower ∧
      prefixSuccessor lower = some upper ∧
      ∀ scope' key b, encodeObjectKey scope' key = .ok b →
        (lower ≤ b ∧ b < upper ↔ scope' = scope) := by
  simp only [encodeObjectKey_eq, encodeScopePrefix_eq, Except.ok.injEq]
  refine ⟨fun scope key => ⟨_, rfl⟩, fun scope key scope' key' h => objectKeyBytes_inj.mp h, ?_, ?_,
    ?_, fun scope => ?_⟩
  · rintro scope key _ rfl
    exact decodeObjectKey_objectKeyBytes scope key
  · intro b scope key h
    exact (decodeObjectKey_eq_ok.mp h).symm
  · rintro scope key key' _ _ rfl rfl
    rw [objectKeyBytes_lt_iff, ObjectKey.lt_iff]
  · obtain ⟨upper, hupper, hbetween⟩ := between_iff scope
    refine ⟨scopeBytes scope, upper, rfl, hupper, ?_⟩
    rintro scope' key _ rfl
    rw [← hbetween scope' key]
    constructor
    · rintro ⟨hle, hlt⟩
      exact ⟨lt_of_le_of_ne hle (scopeBytes_ne_objectKeyBytes scope scope' key), hlt⟩
    · rintro ⟨hlower, hlt⟩
      exact ⟨hlower.le, hlt⟩

end RustFactory.Storage
