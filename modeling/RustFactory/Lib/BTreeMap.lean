import Mathlib

/-!
# Ordered maps

`BTreeMap κ ν` is the standard library's extensional tree map over a linear order: a finite map
whose entries are listed in ascending key order.  Added here are ranges between two bounds
(`range`), maps that hold another map's entries in encoded form (`Image`), sums over all entries
(`sumOver`) with their change under `insert` and `erase`, maps related key by key (`Related`) and
properties of every entry (`Forall`).
-/

namespace RustFactory.Lib

universe u v

instance instLawfulEqCmpCompare {κ : Type u} [LinearOrder κ] :
    Std.LawfulEqCmp (compare : κ → κ → Ordering) where
  eq_of_compare := compare_eq_iff_eq.mp
  compare_self := compare_eq_iff_eq.mpr rfl

instance instTransCmpCompare {κ : Type u} [LinearOrder κ] :
    Std.TransCmp (compare : κ → κ → Ordering) :=
  inferInstance

/-- A finite map listed in ascending key order. -/
abbrev BTreeMap (κ : Type u) (ν : Type v) [LinearOrder κ] := Std.ExtTreeMap κ ν compare

namespace BTreeMap

variable {κ : Type u} {ν : Type v} [LinearOrder κ]

theorem mem_toList {m : BTreeMap κ ν} {e : κ × ν} : e ∈ m.toList ↔ m[e.1]? = some e.2 :=
  Std.ExtTreeMap.mem_toList_iff_getElem?_eq_some

theorem ordered_toList (m : BTreeMap κ ν) : m.toList.Pairwise fun a b => a.1 < b.1 :=
  Std.ExtTreeMap.ordered_keys_toList.imp fun h => compare_lt_iff_lt.mp h

theorem nodup_toList (m : BTreeMap κ ν) : m.toList.Nodup :=
  (ordered_toList m).imp fun h e => absurd (congrArg Prod.fst e) h.ne

theorem ordered_keys (m : BTreeMap κ ν) : m.keys.Pairwise (· < ·) :=
  Std.ExtTreeMap.ordered_keys.imp fun h => compare_lt_iff_lt.mp h

theorem eq_of_mem_iff {α : Type v} {f : α → κ} {l₁ l₂ : List α}
    (h₁ : l₁.Pairwise fun a b => f a < f b) (h₂ : l₂.Pairwise fun a b => f a < f b)
    (h : ∀ a, a ∈ l₁ ↔ a ∈ l₂) : l₁ = l₂ := by
  have hn : ∀ {l : List α}, (l.Pairwise fun a b => f a < f b) → l.Nodup := fun hl =>
    hl.imp fun hlt e => absurd (congrArg f e) hlt.ne
  refine List.Perm.eq_of_pairwise ?_ h₁ h₂ ((List.perm_ext_iff_of_nodup (hn h₁) (hn h₂)).mpr h)
  intro a b _ _ hab hba
  exact absurd hab hba.asymm

/-- Sorting by a key that no two elements share puts the keys in ascending order. -/
theorem pairwise_mergeSort_of_ne {α : Type*} {f : α → κ} {l : List α}
    (h : l.Pairwise fun a b => f a ≠ f b) :
    (l.mergeSort fun a b => f a ≤ f b).Pairwise fun a b => f a < f b := by
  have hle : (l.mergeSort fun a b => f a ≤ f b).Pairwise fun a b => decide (f a ≤ f b) := by
    refine List.pairwise_mergeSort (fun a b c hab hbc => ?_) (fun a b => ?_) l
    · rw [decide_eq_true_eq] at hab hbc ⊢
      exact hab.trans hbc
    · rw [Bool.or_eq_true, decide_eq_true_eq, decide_eq_true_eq]
      exact le_total _ _
  have hne := h.perm (List.mergeSort_perm l fun a b => decide (f a ≤ f b)).symm fun h => h.symm
  exact (hle.and hne).imp fun h => lt_of_le_of_ne (of_decide_eq_true h.1) h.2

/-- A map built from entries with distinct keys holds exactly these. -/
theorem getElem?_ofList {entries : List (κ × ν)} (h : entries.Pairwise fun a b => a.1 ≠ b.1)
    {k : κ} {v : ν} : (Std.ExtTreeMap.ofList entries compare)[k]? = some v ↔ (k, v) ∈ entries := by
  have hdistinct : entries.Pairwise fun a b => ¬compare a.1 b.1 = .eq :=
    h.imp fun hne => by rwa [compare_eq_iff_eq]
  have hmem : ∀ {v}, (k, v) ∈ entries →
      (Std.ExtTreeMap.ofList entries compare)[k]? = some v := fun hentry =>
    Std.ExtTreeMap.getElem?_ofList_of_mem (compare_eq_iff_eq.mpr rfl) hdistinct hentry
  refine ⟨fun hk => ?_, hmem⟩
  have hkey : k ∈ entries.map Prod.fst := by
    have : k ∈ Std.ExtTreeMap.ofList entries compare :=
      Std.ExtTreeMap.mem_iff_isSome_getElem?.mpr (by rw [hk]; rfl)
    rwa [Std.ExtTreeMap.mem_ofList, List.contains_iff_mem] at this
  obtain ⟨⟨k', v'⟩, hentry, rfl⟩ := List.mem_map.mp hkey
  rw [hmem hentry] at hk
  rwa [← Option.some.inj hk]

theorem ofList_toList (m : BTreeMap κ ν) : Std.ExtTreeMap.ofList m.toList compare = m := by
  ext k v
  rw [getElem?_ofList ((ordered_toList m).imp fun h => h.ne), mem_toList]

/-- Inserting the entries of a map one by one, each with its value changed, changes the map. -/
theorem foldl_insert_toList {ν' : Type v} (f : ν → ν') (m : BTreeMap κ ν) :
    m.toList.foldl (fun acc e => acc.insert e.1 (f e.2)) (∅ : BTreeMap κ ν') =
      m.map fun _ => f := by
  rw [← ofList_toList (m.map fun _ => f), Std.ExtTreeMap.ofList_eq_foldl,
    Std.ExtTreeMap.toList_map, List.foldl_map]

theorem values_eq_map_toList (m : BTreeMap κ ν) :
    m.values = m.toList.map Prod.snd := by
  obtain ⟨inner⟩ := m
  induction inner using Std.ExtDTreeMap.inductionOn with
  | mk t =>
    change t.inner.values = (Std.DTreeMap.Internal.Impl.Const.toList t.inner).map Prod.snd
    rw [Std.DTreeMap.Internal.Impl.values_eq_map_snd,
      Std.DTreeMap.Internal.Impl.Const.toList_eq_toListModel_map, List.map_map]
    rfl

theorem mem_values {m : BTreeMap κ ν} {v : ν} :
    v ∈ m.values ↔ ∃ k : κ, m[k]? = some v := by
  rw [values_eq_map_toList, List.mem_map]
  constructor
  · rintro ⟨entry, hentry, rfl⟩
    exact ⟨entry.1, mem_toList.mp hentry⟩
  · rintro ⟨k, hget⟩
    exact ⟨(k, v), mem_toList.mpr hget, rfl⟩

/-! ## Sets -/

/-- A finite set listed in ascending order. -/
abbrev BTreeSet (κ : Type u) [LinearOrder κ] := Std.ExtTreeSet κ compare

/-- The distinct members of a list, in ascending order. -/
def distinct (values : List κ) : List κ := (Std.ExtTreeSet.ofList values : BTreeSet κ).toList

@[simp] theorem mem_distinct {values : List κ} {value : κ} :
    value ∈ distinct values ↔ value ∈ values := by
  unfold distinct
  rw [Std.ExtTreeSet.mem_toList, Std.ExtTreeSet.mem_ofList, List.contains_iff_mem]

theorem ordered_distinct (values : List κ) : (distinct values).Pairwise (· < ·) :=
  Std.ExtTreeSet.ordered_toList.imp fun h => compare_lt_iff_lt.mp h

theorem nodup_distinct (values : List κ) : (distinct values).Nodup :=
  (ordered_distinct values).imp fun h => h.ne

theorem length_distinct_le (values : List κ) : (distinct values).length ≤ values.length :=
  ((nodup_distinct values).subperm fun _ h => mem_distinct.mp h).length_le

theorem distinct_eq_iff {values values' : List κ} :
    distinct values = distinct values' ↔ ∀ value, value ∈ values ↔ value ∈ values' := by
  constructor
  · intro h value
    rw [← mem_distinct, h, mem_distinct]
  · intro h
    refine eq_of_mem_iff (f := id) (ordered_distinct values) (ordered_distinct values') ?_
    intro value
    rw [mem_distinct, mem_distinct, h]

/-! ## Ranges -/

/-- An end point of a range. -/
inductive Bound (κ : Type u) where
  | included (k : κ)
  | excluded (k : κ)
  | unbounded
  deriving DecidableEq

/-- The keys above a lower end point. -/
def Bound.above : Bound κ → κ → Bool
  | .included l, k => l ≤ k
  | .excluded l, k => l < k
  | .unbounded, _ => true

/-- The keys below an upper end point. -/
def Bound.below : Bound κ → κ → Bool
  | .included u, k => k ≤ u
  | .excluded u, k => k < u
  | .unbounded, _ => true

/-- The entries between two end points, in ascending order. -/
def range (m : BTreeMap κ ν) (lower upper : Bound κ) : List (κ × ν) :=
  m.toList.filter fun e => lower.above e.1 && upper.below e.1

theorem mem_range {m : BTreeMap κ ν} {lower upper : Bound κ} {e : κ × ν} :
    e ∈ range m lower upper ↔ m[e.1]? = some e.2 ∧ lower.above e.1 ∧ upper.below e.1 := by
  unfold range
  rw [List.mem_filter, mem_toList, Bool.and_eq_true]

theorem ordered_range (m : BTreeMap κ ν) (lower upper : Bound κ) :
    (range m lower upper).Pairwise fun a b => a.1 < b.1 :=
  (ordered_toList m).filter _

/-! ## Encoded maps -/

section Image

universe u' v'

variable {κ' : Type u'} {ν' : Type v'} [LinearOrder κ'] {f : κ → κ'} {g : ν → ν'}
  {m : BTreeMap κ ν} {m' : BTreeMap κ' ν'}

/-- `m'` holds the entries of `m`, with keys encoded by `f` and values by `g`, and nothing else. -/
structure Image (f : κ → κ') (g : ν → ν') (m : BTreeMap κ ν) (m' : BTreeMap κ' ν') : Prop where
  lookup : ∀ k, m'[f k]? = m[k]?.map g
  covered : ∀ (k' : κ') (v' : ν'), m'[k']? = some v' → ∃ k, f k = k'

theorem Image.empty : Image f g (∅ : BTreeMap κ ν) (∅ : BTreeMap κ' ν') where
  lookup k := by simp
  covered k' v' h := by simp at h

theorem Image.insert (hf : Function.Injective f) (h : Image f g m m') (k : κ) (v : ν) :
    Image f g (m.insert k v) (m'.insert (f k) (g v)) where
  lookup k₁ := by
    by_cases e : k = k₁
    · subst e; simp
    · simp [Std.ExtTreeMap.getElem?_insert, e, hf.ne e, h.lookup]
  covered k' v' h' := by
    by_cases e : f k = k'
    · exact ⟨k, e⟩
    · exact h.covered k' v' (by simpa [Std.ExtTreeMap.getElem?_insert, e] using h')

theorem Image.erase (hf : Function.Injective f) (h : Image f g m m') (k : κ) :
    Image f g (m.erase k) (m'.erase (f k)) where
  lookup k₁ := by
    by_cases e : k = k₁
    · subst e; simp
    · simp [Std.ExtTreeMap.getElem?_erase, e, hf.ne e, h.lookup]
  covered k' v' h' := by
    by_cases e : f k = k'
    · exact ⟨k, e⟩
    · exact h.covered k' v' (by simpa [Std.ExtTreeMap.getElem?_erase, e] using h')

theorem Image.getElem?_eq_some (h : Image f g m m') {k' : κ'} {v' : ν'} :
    m'[k']? = some v' ↔ ∃ k v, f k = k' ∧ g v = v' ∧ m[k]? = some v := by
  constructor
  · intro h'
    obtain ⟨k, rfl⟩ := h.covered k' v' h'
    rw [h.lookup] at h'
    obtain ⟨v, hv, rfl⟩ := Option.map_eq_some_iff.mp h'
    exact ⟨k, v, rfl, rfl, hv⟩
  · rintro ⟨k, v, rfl, rfl, hv⟩
    rw [h.lookup, hv, Option.map_some]

/-- Encoding the keys injectively permutes the listing at most. -/
theorem Image.toList_perm (hf : Function.Injective f) (h : Image f g m m') :
    m'.toList.Perm (m.toList.map fun e => (f e.1, g e.2)) := by
  have hn : (m.toList.map fun e => (f e.1, g e.2)).Nodup := by
    refine List.pairwise_map.mpr ((ordered_toList m).imp ?_)
    intro a b hlt he
    exact hlt.ne (hf (congrArg Prod.fst he))
  rw [List.perm_ext_iff_of_nodup (nodup_toList m') hn]
  rintro ⟨k', v'⟩
  rw [mem_toList, h.getElem?_eq_some, List.mem_map]
  constructor
  · rintro ⟨k, v, rfl, rfl, hv⟩
    exact ⟨(k, v), mem_toList.mpr hv, rfl⟩
  · rintro ⟨⟨k, v⟩, hmem, he⟩
    cases he
    exact ⟨k, v, rfl, rfl, mem_toList.mp hmem⟩

end Image

/-! ## Sums over the entries -/

/-- The sum of `f` over the entries of `m`. -/
def sumOver (f : κ → ν → ℕ) (m : BTreeMap κ ν) : ℕ := (m.toList.map fun e => f e.1 e.2).sum

@[simp] theorem sumOver_empty (f : κ → ν → ℕ) : sumOver f (∅ : BTreeMap κ ν) = 0 := rfl

theorem toList_insert_perm (m : BTreeMap κ ν) (k : κ) (v : ν) :
    (m.insert k v).toList.Perm ((k, v) :: (m.erase k).toList) := by
  have hk : (k, v) ∉ (m.erase k).toList := by
    rw [mem_toList]; simp
  rw [List.perm_ext_iff_of_nodup (nodup_toList _) (List.nodup_cons.mpr ⟨hk, nodup_toList _⟩)]
  rintro ⟨k', v'⟩
  rw [List.mem_cons, mem_toList, mem_toList]
  by_cases h : k' = k
  · subst h; simp [eq_comm]
  · have h' : k ≠ k' := fun e => h e.symm
    simp [Std.ExtTreeMap.getElem?_insert, Std.ExtTreeMap.getElem?_erase, h, h']

theorem erase_of_getElem?_none {m : BTreeMap κ ν} {k : κ} (h : m[k]? = none) : m.erase k = m := by
  apply Std.ExtTreeMap.ext_getElem?
  intro k'
  by_cases e : k = k'
  · subst e; simp [h]
  · simp [Std.ExtTreeMap.getElem?_erase, e]

theorem insert_erase_of_getElem?_some {m : BTreeMap κ ν} {k : κ} {v : ν} (h : m[k]? = some v) :
    (m.erase k).insert k v = m := by
  apply Std.ExtTreeMap.ext_getElem?
  intro k'
  by_cases e : k = k'
  · subst e; simp [h]
  · simp [Std.ExtTreeMap.getElem?_insert, Std.ExtTreeMap.getElem?_erase, e]

theorem insert_of_getElem?_some {m : BTreeMap κ ν} {k : κ} {v : ν} (h : m[k]? = some v) :
    m.insert k v = m := by
  ext j w
  rw [Std.ExtTreeMap.getElem?_insert]
  by_cases hj : k = j
  · subst hj
    rw [if_pos (compare_eq_iff_eq.mpr rfl), h]
  · rw [if_neg (by rwa [compare_eq_iff_eq])]

theorem insertIfNew_of_getElem?_some {m : BTreeMap κ ν} {k : κ} {v : ν} (h : m[k]? = some v)
    (w : ν) : m.insertIfNew k w = m := by
  ext j x
  rw [Std.ExtTreeMap.getElem?_insertIfNew, if_neg]
  rintro ⟨-, hk⟩
  exact hk (Std.ExtTreeMap.mem_iff_isSome_getElem?.mpr (by rw [h]; rfl))

theorem getElem?_insertIfNew_eq_or (m : BTreeMap κ ν) (k j : κ)
    (v : ν) : (m.insertIfNew k v)[j]? = m[j]?.or (if k = j then some v else none) := by
  rw [Std.ExtTreeMap.getElem?_insertIfNew]
  cases hget : m[j]? with
  | none =>
    have hmem : j ∉ m := fun h => by
      rw [Std.ExtTreeMap.mem_iff_isSome_getElem?, hget] at h
      cases h
    rw [Option.none_or]
    by_cases hkey : k = j
    · subst hkey
      rw [if_pos ⟨compare_eq_iff_eq.mpr rfl, hmem⟩, if_pos rfl]
    · rw [if_neg fun h => hkey (compare_eq_iff_eq.mp h.1), if_neg hkey]
  | some w =>
    have hmem : j ∈ m := Std.ExtTreeMap.mem_iff_isSome_getElem?.mpr (hget ▸ rfl)
    rw [Option.some_or, if_neg]
    rintro ⟨hkey, hnot⟩
    exact hnot (compare_eq_iff_eq.mp hkey ▸ hmem)

theorem insert_insertIfNew (m : BTreeMap κ ν) (k : κ) (v w : ν) :
    (m.insertIfNew k v).insert k w = m.insert k w := by
  ext j x
  rw [Std.ExtTreeMap.getElem?_insert, Std.ExtTreeMap.getElem?_insert,
    Std.ExtTreeMap.getElem?_insertIfNew]
  by_cases hj : compare k j = .eq
  · rw [if_pos hj, if_pos hj]
  · rw [if_neg hj, if_neg hj, if_neg fun h => hj h.1]

theorem getD_insertIfNew_self (m : BTreeMap κ ν) (k : κ) (v : ν) :
    (m.insertIfNew k v).getD k v = m.getD k v := by
  rw [Std.ExtTreeMap.getD_insertIfNew]
  by_cases hk : compare k k = .eq ∧ k ∉ m
  · rw [if_pos hk, Std.ExtTreeMap.getD_eq_fallback hk.2]
  · rw [if_neg hk]

/-- A bound on the size is kept by a write that adds a key below it only. -/
theorem size_insert_le_of {m : BTreeMap κ ν} {k : κ} {n : ℕ}
    (h : m.size ≤ n) (hnew : k ∉ m → m.size < n) (v : ν) : (m.insert k v).size ≤ n := by
  rw [Std.ExtTreeMap.size_insert]
  split
  · exact h
  · exact hnew ‹_›

theorem erase_erase (m : BTreeMap κ ν) (k : κ) : (m.erase k).erase k = m.erase k :=
  erase_of_getElem?_none (by simp)

theorem sumOver_insert (f : κ → ν → ℕ) (m : BTreeMap κ ν) (k : κ) (v : ν) :
    sumOver f (m.insert k v) = f k v + sumOver f (m.erase k) := by
  unfold sumOver
  rw [((toList_insert_perm m k v).map _).sum_eq, List.map_cons, List.sum_cons]

theorem sumOver_erase (f : κ → ν → ℕ) {m : BTreeMap κ ν} {k : κ} {v : ν} (h : m[k]? = some v) :
    sumOver f m = f k v + sumOver f (m.erase k) := by
  have := sumOver_insert f (m.erase k) k v
  rwa [insert_erase_of_getElem?_some h, erase_erase] at this

/-- Writing an entry exchanges the share of the entry it replaces, if any, for its own. -/
theorem sumOver_insert_add (f : κ → ν → ℕ) (m : BTreeMap κ ν) (k : κ) (v : ν) :
    sumOver f (m.insert k v) + m[k]?.elim 0 (f k) = sumOver f m + f k v := by
  rw [sumOver_insert]
  cases h : m[k]? with
  | none => rw [erase_of_getElem?_none h, Option.elim_none]; omega
  | some v' => rw [sumOver_erase f h, Option.elim_some]; omega

theorem sumOver_congr {f g : κ → ν → ℕ} {m : BTreeMap κ ν}
    (h : ∀ k v, m[k]? = some v → f k v = g k v) : sumOver f m = sumOver g m := by
  unfold sumOver
  congr 1
  apply List.map_congr_left
  intro e he
  exact h e.1 e.2 (mem_toList.mp he)

theorem le_sumOver (f : κ → ν → ℕ) {m : BTreeMap κ ν} {k : κ} {v : ν} (h : m[k]? = some v) :
    f k v ≤ sumOver f m := by
  rw [sumOver_erase f h]; exact Nat.le_add_right _ _

theorem Image.sumOver_eq {κ' : Type*} {ν' : Type*} [LinearOrder κ'] {f : κ → κ'} {g : ν → ν'}
    {m : BTreeMap κ ν} {m' : BTreeMap κ' ν'} (hf : Function.Injective f) (h : Image f g m m')
    (F : κ' → ν' → ℕ) : sumOver F m' = sumOver (fun k v => F (f k) (g v)) m := by
  unfold sumOver
  rw [((h.toList_perm hf).map _).sum_eq, List.map_map]
  rfl

/-! ## Pointwise related maps -/

section Related

variable {ν' : Type*} {R : κ → ν → ν' → Prop} {m : BTreeMap κ ν} {m' : BTreeMap κ ν'}

/-- Maps with the same keys, and related values under each. -/
def Related (R : κ → ν → ν' → Prop) (m : BTreeMap κ ν) (m' : BTreeMap κ ν') : Prop :=
  ∀ k, Option.Rel (R k) m[k]? m'[k]?

theorem Related.empty : Related R ∅ ∅ := by
  intro k
  rw [Std.ExtTreeMap.getElem?_empty, Std.ExtTreeMap.getElem?_empty]
  exact .none

theorem Related.none_or_some (h : Related R m m') (k : κ) :
    m[k]? = none ∧ m'[k]? = none ∨ ∃ v v', m[k]? = some v ∧ m'[k]? = some v' ∧ R k v v' := by
  have hk := h k
  generalize m[k]? = x at hk ⊢
  generalize m'[k]? = y at hk ⊢
  cases hk with
  | none => exact .inl ⟨rfl, rfl⟩
  | some hR => exact .inr ⟨_, _, rfl, rfl, hR⟩

theorem Related.rel_of {j : κ} {P : ν → ν' → Prop} (h : Related R m m')
    (hP : ∀ w w', m[j]? = some w → m'[j]? = some w' → R j w w' → P w w') :
    Option.Rel P m[j]? m'[j]? := by
  rcases h.none_or_some j with ⟨hk, hk'⟩ | ⟨w, w', hk, hk', hR⟩
  · rw [hk, hk']
    exact .none
  · rw [hk, hk']
    exact .some (hP w w' hk hk' hR)

/-- Related values are put under one key; the relation may change at the others. -/
theorem Related.insert {R' : κ → ν → ν' → Prop} (h : Related R m m') {k : κ} {v : ν} {v' : ν'}
    (hother : ∀ j w w', k ≠ j → m[j]? = some w → m'[j]? = some w' → R j w w' → R' j w w')
    (hv : R' k v v') : Related R' (m.insert k v) (m'.insert k v') := by
  intro j
  rw [Std.ExtTreeMap.getElem?_insert, Std.ExtTreeMap.getElem?_insert]
  by_cases hj : k = j
  · subst hj
    rw [if_pos (compare_eq_iff_eq.mpr rfl), if_pos (compare_eq_iff_eq.mpr rfl)]
    exact .some hv
  · rw [if_neg (by rwa [compare_eq_iff_eq]), if_neg (by rwa [compare_eq_iff_eq])]
    exact h.rel_of fun w w' => hother j w w' hj

theorem Related.erase {R' : κ → ν → ν' → Prop} (h : Related R m m') {k : κ}
    (hother : ∀ j w w', k ≠ j → m[j]? = some w → m'[j]? = some w' → R j w w' → R' j w w') :
    Related R' (m.erase k) (m'.erase k) := by
  intro j
  rw [Std.ExtTreeMap.getElem?_erase, Std.ExtTreeMap.getElem?_erase]
  by_cases hj : k = j
  · rw [if_pos (compare_eq_iff_eq.mpr hj), if_pos (compare_eq_iff_eq.mpr hj)]
    exact .none
  · rw [if_neg (by rwa [compare_eq_iff_eq]), if_neg (by rwa [compare_eq_iff_eq])]
    exact h.rel_of fun w w' => hother j w w' hj

theorem Related.mem_iff (h : Related R m m') (k : κ) : k ∈ m ↔ k ∈ m' := by
  rw [Std.ExtTreeMap.mem_iff_isSome_getElem?, Std.ExtTreeMap.mem_iff_isSome_getElem?]
  rcases h.none_or_some k with ⟨hk, hk'⟩ | ⟨v, v', hk, hk', -⟩
  · rw [hk, hk']
    rfl
  · rw [hk, hk']
    rfl

theorem Related.size_eq (h : Related R m m') : m.size = m'.size := by
  have hkeys : m.keys = m'.keys := by
    refine eq_of_mem_iff (f := id) (ordered_keys m) (ordered_keys m') fun k => ?_
    rw [Std.ExtTreeMap.mem_keys, Std.ExtTreeMap.mem_keys, h.mem_iff]
  rw [← Std.ExtTreeMap.length_keys, hkeys, Std.ExtTreeMap.length_keys]

theorem Related.isEmpty_eq (h : Related R m m') : m.isEmpty = m'.isEmpty := by
  rw [Std.ExtTreeMap.isEmpty_eq_size_beq_zero, Std.ExtTreeMap.isEmpty_eq_size_beq_zero, h.size_eq]

end Related

/-! ## Properties of every entry -/

section Forall

variable {P : κ → ν → Prop} {m : BTreeMap κ ν}

/-- Every entry has the property. -/
def Forall (P : κ → ν → Prop) (m : BTreeMap κ ν) : Prop := ∀ k v, m[k]? = some v → P k v

theorem Forall.empty : Forall P (∅ : BTreeMap κ ν) := by
  intro k v h
  rw [Std.ExtTreeMap.getElem?_empty] at h
  cases h

theorem getElem?_insert_of_ne {k j : κ} (h : k ≠ j) (m : BTreeMap κ ν) (v : ν) :
    (m.insert k v)[j]? = m[j]? := by
  rw [Std.ExtTreeMap.getElem?_insert, if_neg (by rwa [compare_eq_iff_eq])]

theorem getElem?_erase_of_ne {k j : κ} (h : k ≠ j) (m : BTreeMap κ ν) :
    (m.erase k)[j]? = m[j]? := by
  rw [Std.ExtTreeMap.getElem?_erase, if_neg (by rwa [compare_eq_iff_eq])]

theorem Forall.insert (h : Forall P m) {k : κ} {v : ν} (hk : P k v) : Forall P (m.insert k v) := by
  intro j w hj
  by_cases hkj : k = j
  · subst hkj
    rw [Std.ExtTreeMap.getElem?_insert_self] at hj
    cases hj
    exact hk
  · rw [getElem?_insert_of_ne hkj] at hj
    exact h j w hj

theorem Forall.erase (h : Forall P m) (k : κ) : Forall P (m.erase k) := by
  intro j w hj
  by_cases hkj : k = j
  · subst hkj
    rw [Std.ExtTreeMap.getElem?_erase_self] at hj
    cases hj
  · rw [getElem?_erase_of_ne hkj] at hj
    exact h j w hj

theorem length_filter_keys (p : κ → Bool) (m : BTreeMap κ ν) :
    (m.keys.filter p).length = sumOver (fun k _ => if p k then 1 else 0) m := by
  unfold sumOver
  rw [← Std.ExtTreeMap.map_fst_toList_eq_keys]
  induction m.toList with
  | nil => rfl
  | cons e entries ih =>
    rw [List.map_cons, List.map_cons, List.sum_cons, ← ih]
    show _ = (if p e.1 then 1 else 0) + _
    by_cases hp : p e.1
    · rw [List.filter_cons_of_pos hp, List.length_cons, if_pos hp]
      omega
    · rw [List.filter_cons_of_neg hp, if_neg hp]
      omega

theorem length_filter_keys_insert (p : κ → Bool) {k : κ} (h : m[k]? = none) (v : ν) :
    ((m.insert k v).keys.filter p).length = (m.keys.filter p).length + if p k then 1 else 0 := by
  have hsum := sumOver_insert_add (fun k _ => if p k then 1 else 0) m k v
  rw [length_filter_keys, length_filter_keys]
  rw [h, Option.elim_none] at hsum
  exact hsum

end Forall
end BTreeMap

end RustFactory.Lib
