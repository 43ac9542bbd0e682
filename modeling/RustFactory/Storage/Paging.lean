import RustFactory.Storage.Codec
import RustFactory.Storage.Local

/-!
# Storage: the rows of a local page

The identities of one scope stand together in the order of the local map, so the loop of `list`,
which stops at the first row of another scope, builds its page from exactly the rows of the scope
after the given key (`list_eq`, `mem_scopeRows`).
-/

namespace RustFactory.Storage

open RustFactory.Lib

/-! ## The order of identities -/

theorem Identity.lt_iff {a b : Identity} :
    a < b ↔ a.tenantId < b.tenantId ∨ a.tenantId = b.tenantId ∧
      (a.namespace < b.namespace ∨ a.namespace = b.namespace ∧ a.key < b.key) := by
  show a.toTuple < b.toTuple ↔ _
  unfold Identity.toTuple
  rw [Prod.Lex.toLex_lt_toLex, Prod.Lex.toLex_lt_toLex]

theorem Identity.scope_eq {a b : Identity} :
    a.scope = b.scope ↔ a.tenantId = b.tenantId ∧ a.namespace = b.namespace := by
  unfold Identity.scope
  rw [StorageScope.mk.injEq]

theorem Identity.scope_of_between {a i b : Identity} (hs : a.scope = b.scope) (hai : a ≤ i)
    (hib : i < b) : i.scope = a.scope := by
  rw [Identity.scope_eq] at hs ⊢
  rcases eq_or_lt_of_le hai with rfl | hai
  · exact ⟨rfl, rfl⟩
  rw [Identity.lt_iff] at hai hib
  rw [hs.1, hs.2] at hai ⊢
  rcases hai with h | ⟨h, h'⟩
  · rcases hib with h₂ | ⟨h₂, -⟩
    · exact absurd h h₂.asymm
    · exact absurd h₂ h.ne'
  · rw [← h] at hib ⊢
    have hib' := (hib.resolve_left (lt_irrefl _)).2
    rcases h' with h' | ⟨h', -⟩
    · rcases hib' with h₂ | ⟨h₂, -⟩
      · exact absurd h' h₂.asymm
      · exact absurd h₂ h'.ne'
    · exact ⟨rfl, h'.symm⟩

theorem Identity.lt_iff_key {a b : Identity} (hs : a.scope = b.scope) : a < b ↔ a.key < b.key := by
  rw [Identity.scope_eq] at hs
  rw [Identity.lt_iff, hs.1, hs.2]
  simp

theorem ObjectKey.minimum_le (k : ObjectKey) : ObjectKey.minimum ≤ k := by
  have hk := k.length_bounds.1
  rw [← not_lt, ObjectKey.lt_iff]
  obtain ⟨b, t, hb⟩ := List.exists_cons_of_length_pos hk
  rw [hb]
  show ¬ (b :: t < [0])
  rw [List.cons_lt_cons_iff]
  rintro (h | ⟨-, h⟩)
  · rw [UInt8.lt_iff_toNat_lt] at h
    exact absurd h (Nat.not_lt_zero _)
  · exact absurd h (List.not_lt_nil _)

/-! ## The rows of a page -/

namespace Local

/-- The lower end of a page in the local map. -/
def listLower (scope : StorageScope) (afterKey : Option ObjectKey) : BTreeMap.Bound Identity :=
  match afterKey with
  | none => .included (identity scope ObjectKey.minimum)
  | some key => .excluded (identity scope key)

/-- The rows a page is cut from: the rows of the scope after the given key. -/
def scopeRows (s : State) (scope : StorageScope) (afterKey : Option ObjectKey) :
    List (Identity × Entry) :=
  (BTreeMap.range s.objects (listLower scope afterKey) .unbounded).filter fun e => e.1.scope = scope

theorem scope_ne_iff {id : Identity} {scope : StorageScope} :
    (id.tenantId ≠ scope.tenantId ∨ id.namespace ≠ scope.namespace) ↔ id.scope ≠ scope := by
  obtain ⟨t, n⟩ := scope
  show _ ↔ ¬ (StorageScope.mk _ _ = StorageScope.mk t n)
  rw [StorageScope.mk.injEq, not_and_or]

/-- Stopping at the first row of another scope is the same as skipping the other scopes' rows, where
no row of the scope follows one of another scope. -/
theorem listLoop_filter (scope : StorageScope) (limit : ℕ) {rows : List (Identity × Entry)}
    (hrows : rows.Pairwise fun a b => b.1.scope = scope → a.1.scope = scope)
    (objects : List ObjectMetadata) :
    listLoop scope limit rows objects =
      listLoop scope limit (rows.filter fun e => e.1.scope = scope) objects := by
  induction rows generalizing objects with
  | nil => rfl
  | cons row rows ih =>
    obtain ⟨hrow, hrest⟩ := List.pairwise_cons.mp hrows
    by_cases hs : row.1.scope = scope
    · rw [List.filter_cons_of_pos (by simpa using hs)]
      unfold listLoop
      simp only [ih hrest]
    · have hnil : (rows.filter fun e => e.1.scope = scope) = [] := by
        rw [List.filter_eq_nil_iff]
        intro e he h
        exact hs (hrow e he (by simpa using h))
      rw [List.filter_cons_of_neg (by simpa using hs), hnil]
      unfold listLoop
      rw [if_pos (scope_ne_iff.mpr hs)]

theorem above_listLower {scope : StorageScope} {afterKey : Option ObjectKey} {id : Identity}
    (h : (listLower scope afterKey).above id) :
    ∃ k, identity scope k ≤ id := by
  cases afterKey with
  | none => exact ⟨ObjectKey.minimum, by simpa [listLower, BTreeMap.Bound.above] using h⟩
  | some k =>
    have h' : identity scope k < id := by simpa [listLower, BTreeMap.Bound.above] using h
    exact ⟨k, h'.le⟩

theorem list_eq (s : State) (scope : StorageScope) (request : ListRequest) :
    list s scope request =
      listLoop scope request.limit.get.toNat (scopeRows s scope request.afterKey) [] := by
  unfold list scopeRows
  show listLoop scope _ (BTreeMap.range s.objects (listLower scope request.afterKey) .unbounded) [] = _
  apply listLoop_filter
  rw [List.pairwise_iff_forall_sublist]
  intro a b hab hb
  have hlt := List.pairwise_iff_forall_sublist.mp (BTreeMap.ordered_range _ _ _) hab
  have ha := (BTreeMap.mem_range.mp (hab.subset List.mem_cons_self)).2.1
  obtain ⟨k, hk⟩ := above_listLower ha
  have : (identity scope k).scope = b.1.scope := hb.symm
  exact Identity.scope_of_between this hk hlt

theorem mem_scopeRows {s : State} {scope : StorageScope} {afterKey : Option ObjectKey}
    {id : Identity} {e : Entry} :
    (id, e) ∈ scopeRows s scope afterKey ↔
      s.objects[id]? = some e ∧ id.scope = scope ∧ ∀ k, afterKey = some k → k < id.key := by
  unfold scopeRows
  rw [List.mem_filter, BTreeMap.mem_range]
  simp only [BTreeMap.Bound.below, and_true, decide_eq_true_eq, and_assoc]
  refine and_congr_right fun _ => ?_
  rw [and_comm]
  refine and_congr_right fun hs => ?_
  cases afterKey with
  | none =>
    simp only [listLower, BTreeMap.Bound.above, decide_eq_true_eq, reduceCtorEq, false_imp_iff,
      implies_true, iff_true]
    rw [← not_lt]
    intro hlt
    rw [Identity.lt_iff_key hs] at hlt
    exact absurd hlt (ObjectKey.minimum_le _).not_gt
  | some k =>
    simp only [listLower, BTreeMap.Bound.above, decide_eq_true_eq, Option.some.injEq]
    rw [Identity.lt_iff_key (show (identity scope k).scope = id.scope from hs.symm)]
    constructor
    · rintro h _ rfl
      exact h
    · intro h
      exact h k rfl

end Local

end RustFactory.Storage
