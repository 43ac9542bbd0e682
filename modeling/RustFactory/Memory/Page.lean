import RustFactory.Lib.JsonSize
import RustFactory.Memory.Mcp

/-!
# Memory: pages of records

A search puts the records of a page into three lists: those that fit what is left of the budget, those
that would fit a page of their own, and those too large for any page.  The budget leaves room for the
keys of the last two, and a response within the first ceiling is within the second as well, since
escaping at most doubles a text without control characters.
-/

namespace RustFactory.Memory

open Lib JsonText

def maxMcpRecordProjectionBytes : ℕ :=
  maxMcpContentBytes + maxMcpTags * (maxMcpTagBytes + 3) + 2 * maxIdBytes + 256

theorem pageBudget_le : maxMcpQueryLimit * maxMcpRecordProjectionBytes + deferralReserveBytes ≤
    maxMcpSerializedResultBytes := by
  decide

/-- The bytes that a page may spend on records. -/
def pageBudget : ℕ := maxMcpSerializedResultBytes - deferralReserveBytes

/-- What a record takes of the budget, with the comma after it. -/
def recordSize (record : MemoryRecord) : ℕ := byteLen (object (recordOutput record)) + 1

def projected (record : MemoryRecord) : String := objectValue (recordOutput record)

/-! ## The three lists -/

/-- A page that has sorted the records into its three lists. -/
structure Page.Sorts (page : Page) (records kept deferred oversized : List MemoryRecord) : Prop where
  outputs : page.outputs = kept.map projected
  used : page.used = (kept.map recordSize).sum
  deferredKeys : page.deferred = deferred.map (·.key.asStr)
  oversizedKeys : page.oversized = oversized.map (·.key.asStr)
  within : page.used ≤ pageBudget
  perm : (kept ++ deferred ++ oversized).Perm records
  keptOrder : kept.Sublist records
  deferredOrder : deferred.Sublist records
  oversizedOrder : oversized.Sublist records
  fits : ∀ record ∈ deferred, recordSize record ≤ pageBudget
  full : deferred ≠ [] → pageBudget < (records.map recordSize).sum
  large : ∀ record ∈ oversized, pageBudget < recordSize record

theorem Page.sorts_empty : Page.Sorts ⟨[], 0, [], []⟩ [] [] [] [] where
  outputs := rfl
  used := rfl
  deferredKeys := rfl
  oversizedKeys := rfl
  within := Nat.zero_le _
  perm := .refl _
  keptOrder := .refl _
  deferredOrder := .refl _
  oversizedOrder := .refl _
  fits := nofun
  full := absurd rfl
  large := nofun

theorem Page.add_eq (page : Page) (record : MemoryRecord) :
    page.add record =
      if pageBudget < recordSize record then
        { page with oversized := page.oversized ++ [record.key.asStr] }
      else if pageBudget < page.used + recordSize record then
        { page with deferred := page.deferred ++ [record.key.asStr] }
      else { page with
        used := page.used + recordSize record, outputs := page.outputs ++ [projected record] } := rfl

theorem sum_recordSize_concat (records : List MemoryRecord) (record : MemoryRecord) :
    ((records ++ [record]).map recordSize).sum =
      (records.map recordSize).sum + recordSize record := by
  rw [List.map_append, List.sum_append, List.map_singleton, List.sum_singleton]

section Add

variable {page : Page} {records kept deferred oversized : List MemoryRecord}
  (h : page.Sorts records kept deferred oversized) (record : MemoryRecord)

include h

theorem Page.Sorts.full_concat (hne : deferred ≠ []) :
    pageBudget < ((records ++ [record]).map recordSize).sum := by
  rw [sum_recordSize_concat]
  exact Nat.lt_add_right _ (h.full hne)

theorem Page.Sorts.sum_kept_le : (kept.map recordSize).sum ≤ (records.map recordSize).sum :=
  (h.keptOrder.map _).sum_le_sum fun _ _ => Nat.zero_le _

theorem Page.Sorts.add_oversized (hlarge : pageBudget < recordSize record) :
    (page.add record).Sorts (records ++ [record]) kept deferred (oversized ++ [record]) := by
  rw [Page.add_eq, if_pos hlarge]
  exact {
    h with
    oversizedKeys := by rw [h.oversizedKeys, List.map_append, List.map_singleton]
    perm := by
      rw [← List.append_assoc]
      exact h.perm.append_right _
    keptOrder := h.keptOrder.trans (List.sublist_append_left _ _)
    deferredOrder := h.deferredOrder.trans (List.sublist_append_left _ _)
    oversizedOrder := h.oversizedOrder.append (.refl _)
    full := h.full_concat record
    large := List.forall_mem_append.mpr ⟨h.large, List.forall_mem_singleton.mpr hlarge⟩ }

theorem Page.Sorts.add_deferred (hsmall : recordSize record ≤ pageBudget)
    (hover : pageBudget < page.used + recordSize record) :
    (page.add record).Sorts (records ++ [record]) kept (deferred ++ [record]) oversized := by
  rw [Page.add_eq, if_neg (Nat.not_lt.mpr hsmall), if_pos hover]
  have hkept := h.sum_kept_le
  have hused := h.used
  exact {
    h with
    deferredKeys := by rw [h.deferredKeys, List.map_append, List.map_singleton]
    perm := by
      rw [← List.append_assoc, List.append_assoc]
      refine (List.perm_append_comm.append_left _).trans ?_
      rw [← List.append_assoc]
      exact h.perm.append_right _
    keptOrder := h.keptOrder.trans (List.sublist_append_left _ _)
    deferredOrder := h.deferredOrder.append (.refl _)
    oversizedOrder := h.oversizedOrder.trans (List.sublist_append_left _ _)
    fits := List.forall_mem_append.mpr ⟨h.fits, List.forall_mem_singleton.mpr hsmall⟩
    full := by
      intro _
      rw [sum_recordSize_concat]
      omega }

theorem Page.Sorts.add_kept (hsmall : recordSize record ≤ pageBudget)
    (hroom : page.used + recordSize record ≤ pageBudget) :
    (page.add record).Sorts (records ++ [record]) (kept ++ [record]) deferred oversized := by
  rw [Page.add_eq, if_neg (Nat.not_lt.mpr hsmall), if_neg (Nat.not_lt.mpr hroom)]
  exact {
    h with
    outputs := by rw [h.outputs, List.map_append, List.map_singleton]
    used := by rw [h.used, sum_recordSize_concat]
    within := hroom
    perm := by
      rw [List.append_assoc, List.append_assoc]
      refine (List.perm_append_comm.append_left _).trans ?_
      rw [← List.append_assoc, ← List.append_assoc]
      exact h.perm.append_right _
    keptOrder := h.keptOrder.append (.refl _)
    deferredOrder := h.deferredOrder.trans (List.sublist_append_left _ _)
    oversizedOrder := h.oversizedOrder.trans (List.sublist_append_left _ _)
    full := h.full_concat record }

theorem Page.Sorts.add : ∃ kept' deferred' oversized',
    (page.add record).Sorts (records ++ [record]) kept' deferred' oversized' := by
  rcases Nat.lt_or_ge pageBudget (recordSize record) with hlarge | hsmall
  · exact ⟨_, _, _, h.add_oversized record hlarge⟩
  · rcases Nat.lt_or_ge pageBudget (page.used + recordSize record) with hover | hroom
    · exact ⟨_, _, _, h.add_deferred record hsmall hover⟩
    · exact ⟨_, _, _, h.add_kept record hsmall hroom⟩

end Add

/-- The page that a search builds. -/
def pageOf (records : List MemoryRecord) : Page := records.foldl Page.add ⟨[], 0, [], []⟩

theorem exists_sorts (records : List MemoryRecord) :
    ∃ kept deferred oversized, (pageOf records).Sorts records kept deferred oversized := by
  induction records using List.reverseRecOn with
  | nil => exact ⟨[], [], [], Page.sorts_empty⟩
  | append_singleton records record ih =>
    obtain ⟨kept, deferred, oversized, h⟩ := ih
    unfold pageOf
    rw [List.foldl_concat]
    exact h.add record

/-! ## The response -/

/-- The response with the records that it carries and those that it names. -/
def pageText (kept deferred oversized : List MemoryRecord) : String :=
  objectValue [("records", array (kept.map projected)),
    ("deferred_keys", array (deferred.map fun record => quoted record.key.asStr)),
    ("oversized_keys", array (oversized.map fun record => quoted record.key.asStr))]

theorem Page.Sorts.serializeSearch_eq {records kept deferred oversized : List MemoryRecord}
    (h : (pageOf records).Sorts records kept deferred oversized) :
    serializeSearch records = serialize (pageText kept deferred oversized) := by
  unfold serializeSearch pageText
  dsimp only
  change serialize (objectValue [("records", array (pageOf records).outputs),
    ("deferred_keys", array ((pageOf records).deferred.map quoted)),
    ("oversized_keys", array ((pageOf records).oversized.map quoted))]) = _
  rw [h.outputs, h.deferredKeys, h.oversizedKeys, List.map_map, List.map_map]
  rfl

/-! ## Sizes -/

theorem bodyLen_asStr {kind : IdKind} (id : LogicalId kind) : bodyLen id.asStr = byteLen id.asStr := by
  refine bodyLen_of_bytes fun b hb => ?_
  have hall : ∀ b : UInt8, isIdByte b → escapeGrowth b = 0 := by decide +kernel
  have hid := id.valid
  unfold isLogicalId at hid
  cases hbytes : utf8 id.asStr with
  | nil =>
    rw [hbytes] at hb
    cases hb
  | cons first rest =>
    rw [hbytes] at hid hb
    simp only [Bool.and_eq_true] at hid
    exact hall b (List.all_eq_true.mp hid.2 b hb)

example : bodyLen "team-a.notes_1" = 14 ∧ bodyLen "team\na" = 7 := by decide +kernel

theorem byteLen_quoted_asStr {kind : IdKind} (id : LogicalId kind) :
    byteLen (quoted id.asStr) ≤ maxIdBytes + 2 := by
  have hid := id.valid
  rw [byteLen_quoted, bodyLen_asStr]
  unfold isLogicalId at hid
  cases hbytes : utf8 id.asStr with
  | nil =>
    rw [hbytes] at hid
    cases hid
  | cons first rest =>
    rw [hbytes] at hid
    simp only [Bool.and_eq_true, decide_eq_true_eq] at hid
    exact Nat.add_le_add_right hid.1.1.1 2

theorem byteLen_objectValue (members : List (String × String)) :
    byteLen (objectValue members) = byteLen (object members) :=
  additive_byteLen.objectValue_eq members

theorem byteLen_projected (record : MemoryRecord) :
    byteLen (projected record) + 1 = recordSize record :=
  congrArg (· + 1) (byteLen_objectValue _)

theorem byteLen_keys_le (records : List MemoryRecord) :
    byteLen (",".intercalate (records.map fun record => quoted record.key.asStr)) ≤
      (maxIdBytes + 3) * records.length := by
  have hcomma : byteLen "," = 1 := byteLen_punctuation.2.1
  refine (additive_byteLen.intercalate_le _ _).trans ?_
  rw [List.map_map]
  induction records with
  | nil => exact Nat.zero_le _
  | cons record records ih =>
    have := byteLen_quoted_asStr record.key
    simp only [List.map_cons, List.sum_cons, Function.comp_apply, hcomma, List.length_cons,
      Nat.mul_succ] at ih ⊢
    omega

theorem byteLen_records_le (records : List MemoryRecord) :
    byteLen (",".intercalate (records.map projected)) ≤ (records.map recordSize).sum := by
  have hcomma : byteLen "," = 1 := byteLen_punctuation.2.1
  have hsize : ((fun piece => byteLen piece + byteLen ",") ∘ projected) = recordSize := by
    funext record
    rw [Function.comp_apply, hcomma, byteLen_projected]
  refine (additive_byteLen.intercalate_le _ _).trans ?_
  rw [List.map_map, hsize]

theorem printable_projected (record : MemoryRecord) : Printable (projected record) := by
  have hnull : Printable "null" := by decide +kernel
  refine printable_objectValue fun member hmember => ?_
  simp only [recordOutput, List.mem_cons, List.not_mem_nil, or_false] at hmember
  rcases hmember with rfl | rfl | rfl | rfl | rfl | rfl
  · exact printable_quoted _
  · exact printable_quoted _
  · exact printable_quoted _
  · exact printable_quoted _
  · exact printable_array (List.forall_mem_map.mpr fun tag _ => printable_quoted tag)
  · cases record.provenance with
    | none => exact hnull
    | some provenance => exact printable_decimal _

theorem printable_pageText (kept deferred oversized : List MemoryRecord) :
    Printable (pageText kept deferred oversized) := by
  have hkeys : ∀ records : List MemoryRecord,
      Printable (array (records.map fun record => quoted record.key.asStr)) := fun records =>
    printable_array (List.forall_mem_map.mpr fun record _ => printable_quoted _)
  refine printable_objectValue fun member hmember => ?_
  simp only [List.mem_cons, List.not_mem_nil, or_false] at hmember
  rcases hmember with rfl | rfl | rfl
  · exact printable_array (List.forall_mem_map.mpr fun record _ => printable_projected record)
  · exact hkeys deferred
  · exact hkeys oversized

/-- The names and the punctuation of a response take 53 bytes, its lists the rest. -/
theorem byteLen_pageText (kept deferred oversized : List MemoryRecord) :
    byteLen (pageText kept deferred oversized) ≤
      53 + (kept.map recordSize).sum + (maxIdBytes + 3) * (deferred.length + oversized.length) := by
  have hnames : byteLen (quoted "records") = 9 ∧ byteLen (quoted "deferred_keys") = 15 ∧
      byteLen (quoted "oversized_keys") = 16 := by
    decide +kernel
  have hobject := additive_byteLen.object_eq [("records", array (kept.map projected)),
    ("deferred_keys", array (deferred.map fun record => quoted record.key.asStr)),
    ("oversized_keys", array (oversized.map fun record => quoted record.key.asStr))]
  have hrecords := byteLen_records_le kept
  have hdeferred := byteLen_keys_le deferred
  have hoversized := byteLen_keys_le oversized
  simp only [List.map_cons, List.map_nil, List.sum_cons, List.sum_nil, reduceCtorEq, if_false,
    additive_byteLen.array_eq, byteLen_punctuation, hnames] at hobject
  unfold pageText
  rw [byteLen_objectValue, Nat.mul_add]
  omega

/-- A text without control characters that is below the first ceiling is sent. -/
theorem serialize_of_printable {value : String} (hprintable : Printable value)
    (h : byteLen value < maxMcpSerializedResultBytes) :
    serialize value = .ok value ∧ framedLen value ≤ maxMcpEscapedToolTextBytes := by
  have hframed : framedLen value ≤ maxMcpEscapedToolTextBytes := by
    have hbody := bodyLen_le_of_printable hprintable
    have hceilings : maxMcpEscapedToolTextBytes = 2 * maxMcpSerializedResultBytes := by decide
    unfold framedLen
    rw [byteLen_quoted]
    omega
  refine ⟨?_, hframed⟩
  unfold serialize
  rw [if_neg (Nat.not_lt.mpr h.le), if_pos hframed]

/-! ## Records within the ceilings -/

/-- The input that writes a record. -/
def rememberInput (record : MemoryRecord) : RememberInput where
  «namespace» := record.namespace.asStr
  key := record.key.asStr
  kind := record.kind
  content := record.content
  tags := record.tags
  runId := record.provenance.map (·.runId.asStr)

theorem validateMcpRecord_eq_ok {input : RememberInput} (h : validateMcpRecord input = .ok ()) :
    serializedLen input.content ≤ maxMcpContentBytes ∧ input.tags.length ≤ maxMcpTags ∧
      ∀ tag ∈ input.tags, serializedLen tag ≤ maxMcpTagBytes := by
  unfold validateMcpRecord at h
  split at h
  · cases h
  · split at h
    · cases h
    · split at h
      · cases h
      · rename_i hcontent hcount htags
        refine ⟨Nat.not_lt.mp hcontent, Nat.not_lt.mp hcount, fun tag htag => ?_⟩
        by_contra hlong
        exact htags (List.any_eq_true.mpr ⟨tag, htag, decide_eq_true (Nat.not_le.mp hlong)⟩)

theorem byteLen_tags_le {tags : List String} (h : ∀ tag ∈ tags, serializedLen tag ≤ maxMcpTagBytes) :
    byteLen (array (tags.map quoted)) ≤ 2 + (maxMcpTagBytes + 1) * tags.length := by
  obtain ⟨-, hcomma, -, hopen, hclose, -⟩ := byteLen_punctuation
  have hsum : (tags.map fun tag => byteLen (quoted tag) + 1).sum ≤
      (maxMcpTagBytes + 1) * tags.length := by
    induction tags with
    | nil => exact Nat.zero_le _
    | cons tag tags ih =>
      rw [List.forall_mem_cons] at h
      have htag : byteLen (quoted tag) ≤ maxMcpTagBytes := h.1
      have := ih h.2
      rw [List.map_cons, List.sum_cons, List.length_cons, Nat.mul_succ]
      omega
  have hjoined := additive_byteLen.intercalate_le "," (tags.map quoted)
  rw [List.map_map, hcomma] at hjoined
  rw [additive_byteLen.array_eq, hopen, hclose]
  have := hjoined.trans hsum
  omega

/-- A record that was written through the surface takes no more than its share of a page. -/
theorem recordSize_le {record : MemoryRecord}
    (h : validateMcpRecord (rememberInput record) = .ok ())
    (htime : ∀ provenance ∈ record.provenance, provenance.recordedAt < 2 ^ 64) :
    recordSize record ≤ maxMcpRecordProjectionBytes := by
  obtain ⟨hcontent, hcount, htags⟩ := validateMcpRecord_eq_ok h
  have hnames : byteLen (quoted "namespace") = 11 ∧ byteLen (quoted "key") = 5 ∧
      byteLen (quoted "kind") = 6 ∧ byteLen (quoted "content") = 9 ∧
      byteLen (quoted "tags") = 6 ∧ byteLen (quoted "recorded_at_micros") = 20 := by
    decide +kernel
  have hscope := byteLen_quoted_asStr record.namespace
  have hkey := byteLen_quoted_asStr record.key
  have hkind : byteLen (quoted record.kind.asStr) ≤ 12 := by
    cases record.kind with
    | factual => decide +kernel
    | preference => decide +kernel
    | procedural => decide +kernel
    | episodic => decide +kernel
  have htext : byteLen (quoted record.content) ≤ maxMcpContentBytes := hcontent
  have htagText : byteLen (array (record.tags.map quoted)) ≤ 2 + (maxMcpTagBytes + 1) * maxMcpTags :=
    (byteLen_tags_le htags).trans (Nat.add_le_add_left (Nat.mul_le_mul_left _ hcount) 2)
  have hrecorded : byteLen (nullable (fun provenance : Provenance => decimal provenance.recordedAt)
      record.provenance) ≤ 20 := by
    cases hprovenance : record.provenance with
    | none =>
      show byteLen "null" ≤ 20
      decide +kernel
    | some provenance =>
      refine byteLen_decimal_le (by omega) ((htime provenance hprovenance).trans ?_)
      decide
  have hobject := additive_byteLen.object_eq (recordOutput record)
  unfold recordOutput at hobject
  simp only [List.map_cons, List.map_nil, List.sum_cons, List.sum_nil, reduceCtorEq, if_false,
    byteLen_punctuation, hnames] at hobject
  have hbudget : maxMcpRecordProjectionBytes = 3608 ∧ maxMcpContentBytes = 2048 ∧ maxIdBytes = 128 ∧
      2 + (maxMcpTagBytes + 1) * maxMcpTags = 1034 := by
    decide
  unfold recordSize recordOutput
  omega

/-! ## Searching and recalling -/

/-- Whoever asks for the record by its key, and is shown it, gets its whole projection. -/
def RecalledInFull (record : MemoryRecord) : Prop :=
  ∀ {σ : Type} (mcp : MemoryMcp σ) (input : RecordAddressInput) (context : MemoryContext)
    (scope : Namespace) (key : RecordKey) (s s' : Logged σ),
    validateRequest input = .ok () → mcp.gate .memoryRecall = .ok context →
    input.intoCore = .ok (scope, key) →
    mcp.service.«recall» context scope key s = (.ok (some record), s') →
    mcp.recallJson input s = (.ok (object [("record", projected record)]), s')

theorem recalledInFull_of_le {record : MemoryRecord} (h : recordSize record ≤ pageBudget) :
    RecalledInFull record := by
  intro σ mcp input context scope key s s' hrequest hgate hinput hrecall
  have hname : byteLen (quoted "record") = 8 := by decide +kernel
  have hbudget : pageBudget = 27752 ∧ maxMcpSerializedResultBytes = 28672 := by decide
  have hobject := additive_byteLen.object_eq [("record", projected record)]
  have hsize := byteLen_projected record
  simp only [List.map_cons, List.map_nil, List.sum_cons, List.sum_nil, reduceCtorEq, if_false,
    byteLen_punctuation, hname] at hobject
  have hprintable : Printable (object [("record", projected record)]) :=
    printable_object (List.forall_mem_singleton.mpr (printable_projected record))
  have hserialize := (serialize_of_printable hprintable (by omega)).1
  unfold MemoryMcp.recallJson
  rw [hrequest, ok_bind, hgate, ok_bind, hinput, ok_bind]
  unfold MemoryMcp.checked
  dsimp only
  rw [hrecall]
  exact congrArg (·, s') hserialize

theorem Page.Sorts.nil_of_sum_le {page : Page} {records kept deferred oversized : List MemoryRecord}
    (h : page.Sorts records kept deferred oversized)
    (hsum : (records.map recordSize).sum ≤ pageBudget) : deferred = [] ∧ oversized = [] := by
  constructor
  · by_contra hne
    exact absurd (h.full hne) (Nat.not_lt.mpr hsum)
  · refine List.eq_nil_iff_forall_not_mem.mpr fun record hrecord => ?_
    have hmem := h.oversizedOrder.mem hrecord
    have hle : recordSize record ≤ (records.map recordSize).sum :=
      List.le_sum_of_mem (List.mem_map_of_mem hmem)
    exact absurd (h.large record hrecord) (Nat.not_lt.mpr (hle.trans hsum))

theorem Page.Sorts.serialize_pageText {records kept deferred oversized : List MemoryRecord}
    (h : (pageOf records).Sorts records kept deferred oversized)
    (hlimit : records.length ≤ maxMcpQueryLimit) :
    serializeSearch records = .ok (pageText kept deferred oversized) ∧
      byteLen (pageText kept deferred oversized) ≤ maxMcpSerializedResultBytes ∧
      framedLen (pageText kept deferred oversized) ≤ maxMcpEscapedToolTextBytes := by
  have hbudget : pageBudget = 27752 ∧ maxMcpSerializedResultBytes = 28672 ∧
      maxMcpQueryLimit = 6 ∧ maxIdBytes = 128 := by
    decide
  have hused := h.used
  have hwithin := h.within
  have hlength := h.perm.length_eq
  rw [List.length_append, List.length_append] at hlength
  have hlt : byteLen (pageText kept deferred oversized) < maxMcpSerializedResultBytes := by
    have hle := byteLen_pageText kept deferred oversized
    rw [hbudget.2.2.2] at hle
    omega
  obtain ⟨hserialize, hframed⟩ := serialize_of_printable (printable_pageText _ _ _) hlt
  exact ⟨h.serializeSearch_eq.trans hserialize, hlt.le, hframed⟩

/-- A record that fits an empty page is the whole page when it is alone. -/
theorem serializeSearch_singleton {record : MemoryRecord} (h : recordSize record ≤ pageBudget) :
    serializeSearch [record] = .ok (pageText [record] [] []) := by
  have hroom : 0 + recordSize record ≤ pageBudget := by rwa [Nat.zero_add]
  have hsorts : (pageOf [record]).Sorts [record] [record] [] [] := by
    unfold pageOf
    rw [List.foldl_cons, List.foldl_nil]
    exact Page.sorts_empty.add_kept record h hroom
  have hlimit : [record].length ≤ maxMcpQueryLimit := by
    rw [List.length_singleton]
    decide
  exact (hsorts.serialize_pageText hlimit).1

/-- **A page names every record once.**  A search over no more records than a caller may ask for
succeeds, within both ceilings.  Each record is carried, or named as deferred, or named as oversized,
in the order of the page.  A deferred record is carried in full when it is alone and when it is
recalled; and records within the ceilings on writing, with the times of a machine word, are all
carried. -/
theorem serializeSearch_partition (records : List MemoryRecord)
    (hlimit : records.length ≤ maxMcpQueryLimit) :
    ∃ kept deferred oversized, (kept ++ deferred ++ oversized).Perm records ∧
      kept.Sublist records ∧ deferred.Sublist records ∧ oversized.Sublist records ∧
      serializeSearch records = .ok (pageText kept deferred oversized) ∧
      byteLen (pageText kept deferred oversized) ≤ maxMcpSerializedResultBytes ∧
      framedLen (pageText kept deferred oversized) ≤ maxMcpEscapedToolTextBytes ∧
      (∀ record ∈ deferred,
        serializeSearch [record] = .ok (pageText [record] [] []) ∧ RecalledInFull record) ∧
      ((∀ record ∈ records, validateMcpRecord (rememberInput record) = .ok () ∧
          ∀ provenance ∈ record.provenance, provenance.recordedAt < 2 ^ 64) →
        deferred = [] ∧ oversized = []) := by
  obtain ⟨kept, deferred, oversized, h⟩ := exists_sorts records
  obtain ⟨hserialize, hraw, hframed⟩ := h.serialize_pageText hlimit
  refine ⟨kept, deferred, oversized, h.perm, h.keptOrder, h.deferredOrder, h.oversizedOrder,
    hserialize, hraw, hframed, ?_, ?_⟩
  · intro record hrecord
    have hfits := h.fits record hrecord
    exact ⟨serializeSearch_singleton hfits, recalledInFull_of_le hfits⟩
  · intro hceilings
    refine h.nil_of_sum_le ?_
    have hsum : (records.map recordSize).sum ≤ records.length * maxMcpRecordProjectionBytes := by
      rw [← List.length_map (f := recordSize)]
      refine List.sum_le_card_nsmul _ _ ?_
      rintro size hsize
      obtain ⟨record, hrecord, rfl⟩ := List.mem_map.mp hsize
      exact recordSize_le (hceilings record hrecord).1 (hceilings record hrecord).2
    have hpage := Nat.mul_le_mul_right maxMcpRecordProjectionBytes hlimit
    have hbudget := pageBudget_le
    unfold pageBudget
    omega

def noteRecord : MemoryRecord :=
  plainRecord ⟨"tenant", .refl true⟩ ⟨"notes", .refl true⟩ "a note"

/-- A record within the ceilings is carried. -/
theorem serializeSearch_partition_sample :
    serializeSearch [noteRecord, noteRecord] =
      .ok (pageText [noteRecord, noteRecord] [] []) := by
  obtain ⟨kept, deferred, oversized, hperm, -, -, -, hserialize, -, -, -, hcarried⟩ :=
    serializeSearch_partition [noteRecord, noteRecord] (by decide)
  have hceilings : validateMcpRecord (rememberInput noteRecord) = .ok () ∧
      ∀ provenance ∈ noteRecord.provenance, provenance.recordedAt < 2 ^ 64 :=
    ⟨by decide +kernel, nofun⟩
  obtain ⟨rfl, rfl⟩ := hcarried (List.forall_mem_cons.mpr
    ⟨hceilings, List.forall_mem_singleton.mpr hceilings⟩)
  rw [List.append_nil, List.append_nil] at hperm
  have hkept : kept = [noteRecord, noteRecord] :=
    (List.perm_replicate (n := 2)).mp hperm
  rw [hserialize, hkept]

end RustFactory.Memory
