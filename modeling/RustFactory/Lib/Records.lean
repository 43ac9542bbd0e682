import RustFactory.Lib.BTreeMap

/-!
# Maps built from records

A map is filled from a list by inserting its records one after the other.  Where a repeated key is
accepted the last record with it counts (`getElem?_insertAll`); where it is refused the map holds
each record of the list, and the order of the list does not matter (`Indexes.unique`).
-/

namespace RustFactory.Lib.BTreeMap

universe u v w

variable {κ : Type u} {ν : Type v} [LinearOrder κ]

/-! ## The last record counts -/

/-- The map after the entries, each replacing what its key held before. -/
def insertAll (entries : List (κ × ν)) (m : BTreeMap κ ν) : BTreeMap κ ν :=
  entries.foldl (fun m entry => m.insert entry.1 entry.2) m

/-- The value of the last entry with the key. -/
def lastValue (entries : List (κ × ν)) (key : κ) : Option ν :=
  ((entries.filter fun entry => entry.1 = key).getLast?).map Prod.snd

theorem insertAll_cons (entry : κ × ν) (entries : List (κ × ν)) (m : BTreeMap κ ν) :
    insertAll (entry :: entries) m = insertAll entries (m.insert entry.1 entry.2) := rfl

theorem insertAll_concat (entries : List (κ × ν)) (entry : κ × ν) (m : BTreeMap κ ν) :
    insertAll (entries ++ [entry]) m = (insertAll entries m).insert entry.1 entry.2 := by
  unfold insertAll
  rw [List.foldl_concat]

theorem size_le_insertAll (entries : List (κ × ν)) (m : BTreeMap κ ν) :
    m.size ≤ (insertAll entries m).size := by
  induction entries using List.reverseRecOn with
  | nil => exact le_rfl
  | append_singleton entries entry ih =>
    rw [insertAll_concat]
    exact ih.trans Std.ExtTreeMap.size_le_size_insert

theorem mem_insertAll {entries : List (κ × ν)} {key : κ} :
    key ∈ insertAll entries ∅ ↔ key ∈ entries.map Prod.fst := by
  induction entries using List.reverseRecOn with
  | nil => exact iff_of_false Std.ExtTreeMap.not_mem_empty List.not_mem_nil
  | append_singleton entries entry ih =>
    rw [insertAll_concat, Std.ExtTreeMap.mem_insert, ih, compare_eq_iff_eq, List.map_append,
      List.mem_append, List.map_singleton, List.mem_singleton, or_comm, eq_comm]

theorem size_insertAll (entries : List (κ × ν)) :
    (insertAll entries ∅).size = (distinct (entries.map Prod.fst)).length := by
  have hkeys : (insertAll entries ∅).keys = distinct (entries.map Prod.fst) := by
    refine eq_of_mem_iff (f := id) (ordered_keys _) (ordered_distinct _) fun key => ?_
    rw [Std.ExtTreeMap.mem_keys, mem_insertAll, mem_distinct]
  rw [← hkeys, Std.ExtTreeMap.length_keys]

theorem lastValue_concat (entries : List (κ × ν)) (entry : κ × ν) (key : κ) :
    lastValue (entries ++ [entry]) key =
      if entry.1 = key then some entry.2 else lastValue entries key := by
  unfold lastValue
  rw [List.filter_append]
  by_cases hkey : entry.1 = key
  · rw [if_pos hkey, List.filter_cons_of_pos (by simpa using hkey), List.filter_nil,
      List.getLast?_concat]
    rfl
  · rw [if_neg hkey, List.filter_cons_of_neg (by simpa using hkey), List.filter_nil,
      List.append_nil]

theorem getElem?_insertAll (entries : List (κ × ν)) (key : κ) :
    (insertAll entries ∅)[key]? = lastValue entries key := by
  induction entries using List.reverseRecOn with
  | nil => exact Std.ExtTreeMap.getElem?_empty
  | append_singleton entries entry ih =>
    rw [insertAll_concat, lastValue_concat, Std.ExtTreeMap.getElem?_insert, ih]
    by_cases hkey : entry.1 = key
    · rw [if_pos hkey, if_pos (compare_eq_iff_eq.mpr hkey)]
    · rw [if_neg hkey, if_neg (fun h => hkey (compare_eq_iff_eq.mp h))]

/-! ## Records with different keys -/

section Indexes

variable {ρ : Type w} {key : ρ → κ} {value : ρ → ν} {records : List ρ} {m m' : BTreeMap κ ν}

/-- The map holds the value of each record under its key, and nothing else. -/
structure Indexes (key : ρ → κ) (value : ρ → ν) (records : List ρ) (m : BTreeMap κ ν) : Prop where
  size : m.size = records.length
  lookup : ∀ k v, m[k]? = some v ↔ ∃ record ∈ records, key record = k ∧ v = value record

theorem Indexes.empty : Indexes key value [] ∅ where
  size := Std.ExtTreeMap.size_empty
  lookup k v := by
    rw [Std.ExtTreeMap.getElem?_empty]
    exact iff_of_false nofun nofun

theorem Indexes.contains_iff (h : Indexes key value records m) (k : κ) :
    m.contains k ↔ k ∈ records.map key := by
  rw [Std.ExtTreeMap.contains_eq_isSome_getElem?, Option.isSome_iff_exists, List.mem_map]
  simp only [h.lookup]
  constructor
  · rintro ⟨v, record, hmem, hkey, -⟩
    exact ⟨record, hmem, hkey⟩
  · rintro ⟨record, hmem, hkey⟩
    exact ⟨_, record, hmem, hkey, rfl⟩

theorem Indexes.insert (h : Indexes key value records m) {record : ρ}
    (hfresh : key record ∉ records.map key) :
    Indexes key value (records ++ [record]) (m.insert (key record) (value record)) where
  size := by
    have hnot : ¬m.contains (key record) := fun hmem => hfresh ((h.contains_iff _).mp hmem)
    rw [Std.ExtTreeMap.size_insert, if_neg hnot, h.size, List.length_append,
      List.length_singleton]
  lookup k v := by
    simp only [Std.ExtTreeMap.getElem?_insert, List.mem_append, List.mem_singleton, or_and_right,
      exists_or, exists_eq_left]
    by_cases hkey : key record = k
    · rw [if_pos (compare_eq_iff_eq.mpr hkey), Option.some.injEq, eq_comm, or_iff_right]
      · exact (and_iff_right hkey).symm
      · rintro ⟨other, hmem, hother, -⟩
        exact hfresh (List.mem_map.mpr ⟨other, hmem, hother.trans hkey.symm⟩)
    · rw [if_neg (fun h => hkey (compare_eq_iff_eq.mp h)), h.lookup]
      exact (or_iff_left fun hlast => hkey hlast.1).symm

theorem Indexes.unique (h : Indexes key value records m) (h' : Indexes key value records m') :
    m = m' := by
  ext k v
  rw [h.lookup, h'.lookup]

theorem exists_indexes (key : ρ → κ) (value : ρ → ν) {records : List ρ}
    (h : (records.map key).Nodup) : ∃ m, Indexes key value records m := by
  induction records using List.reverseRecOn with
  | nil => exact ⟨∅, Indexes.empty⟩
  | append_singleton records record ih =>
    rw [List.map_append, List.map_singleton, ← List.concat_eq_append, List.nodup_concat] at h
    obtain ⟨m, hm⟩ := ih h.2
    exact ⟨_, hm.insert h.1⟩

/-- Inserting a record with a new key is what leads from the index of a list to that of the list
with the record at its end. -/
theorem indexes_concat_iff {record : ρ} (hnodup : (records.map key).Nodup) :
    (key record ∉ records.map key ∧ Indexes key value (records ++ [record]) m') ↔
      ∃ m, Indexes key value records m ∧ m.contains (key record) = false ∧
        m' = m.insert (key record) (value record) := by
  constructor
  · rintro ⟨hfresh, h⟩
    obtain ⟨m, hm⟩ := exists_indexes key value hnodup
    refine ⟨m, hm, ?_, h.unique (hm.insert hfresh)⟩
    rw [← Bool.not_eq_true, hm.contains_iff]
    exact hfresh
  · rintro ⟨m, hm, hcontains, rfl⟩
    have hfresh : key record ∉ records.map key := by
      rw [← hm.contains_iff, hcontains]
      exact Bool.false_ne_true
    exact ⟨hfresh, hm.insert hfresh⟩

end Indexes

end RustFactory.Lib.BTreeMap
