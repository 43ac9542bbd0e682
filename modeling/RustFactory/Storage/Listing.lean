import RustFactory.Storage.Integrity

/-!
# Storage: listing a scope page by page

A client lists a scope by asking again after the last key of the page before, as long as a page says
that more follow.  Each page is cut from the rows of the scope that are left, so the pages together
are the rows of the scope, in the order of their keys and none of them twice.
-/

namespace RustFactory.Storage

open RustFactory.Lib

/-! ## The client -/

/-- The pages that a client collects after a key. -/
inductive Listing (list : ListRequest → Except StorageError ListPage) (limit : ListLimit) :
    Option ObjectKey → List ListPage → Prop
  | last {after : Option ObjectKey} {page : ListPage} : list ⟨after, limit⟩ = .ok page →
      page.hasMore = false → Listing list limit after [page]
  | more {after : Option ObjectKey} {page : ListPage} {final : ObjectMetadata}
      {pages : List ListPage} : list ⟨after, limit⟩ = .ok page → page.hasMore = true →
      page.objects.getLast? = some final → Listing list limit (some final.key) pages →
      Listing list limit after (page :: pages)

/-- What the pages list. -/
def listedObjects (pages : List ListPage) : List ObjectMetadata := pages.flatMap ListPage.objects

/-- What a page says of an object. -/
def StoredObject.describe (object : StoredObject) (key : ObjectKey) : ObjectMetadata :=
  ⟨key, object.version, UInt32.ofNat object.value.asBytes.length⟩

/-- Listing a scope from its beginning comes to an end and gives each of its objects once, in the
order of their keys; a page says that more follow exactly if some do, and then it is full. -/
structure ListsScope (get : ObjectKey → Except StorageError (Option StoredObject))
    (list : ListRequest → Except StorageError ListPage) (limit : ListLimit) : Prop where
  ends : ∃ pages, Listing list limit none pages
  exact : ∀ pages, Listing list limit none pages → ∀ metadata,
    metadata ∈ listedObjects pages ↔ ∃ object, get metadata.key = .ok (some object) ∧
      metadata = object.describe metadata.key
  ascending : ∀ pages, Listing list limit none pages →
    (listedObjects pages).Pairwise fun a b => a.key.asBytes < b.key.asBytes
  full : ∀ pages, Listing list limit none pages → ∀ page ∈ pages.dropLast,
    page.objects.length = limit.get.toNat
  hasMore : ∀ pages, Listing list limit none pages → ∀ before page rest,
    pages = before ++ page :: rest → (page.hasMore ↔ ∃ key object,
      get key = .ok (some object) ∧ ∀ metadata ∈ listedObjects (before ++ [page]),
        metadata.key ≠ key)

/-! ## Pages of the local adapter -/

namespace Local

def describeRow (row : Identity × Entry) : ObjectMetadata :=
  StoredObject.describe ⟨row.2.version, row.2.value⟩ row.1.key

/-- The loop fills the page up to the limit. -/
theorem listLoop_eq {scope : StorageScope} {limit : ℕ} {rows : List (Identity × Entry)}
    (hrows : ∀ row ∈ rows, row.1.scope = scope) {objects : List ObjectMetadata}
    (hlen : objects.length ≤ limit) :
    listLoop scope limit rows objects =
      .ok ⟨objects ++ (rows.take (limit - objects.length)).map describeRow,
        limit < objects.length + rows.length⟩ := by
  induction rows generalizing objects with
  | nil =>
    have hmore : ¬limit < objects.length + 0 := by omega
    rw [listLoop, List.take_nil, List.map_nil, List.append_nil, List.length_nil,
      decide_eq_false hmore]
  | cons row rows ih =>
    obtain ⟨id, entry⟩ := row
    have hscope : id.scope = scope := hrows _ List.mem_cons_self
    have hsize : u32TryFrom entry.value.asBytes.length =
        some (UInt32.ofNat entry.value.asBytes.length) := if_pos entry.value.length_lt
    rw [listLoop, if_neg fun h => scope_ne_iff.mp h hscope]
    by_cases hfull : objects.length = limit
    · subst hfull
      have hmore : objects.length < objects.length + ((id, entry) :: rows).length := by
        rw [List.length_cons]
        omega
      rw [if_pos rfl, Nat.sub_self, List.take_zero, List.map_nil, List.append_nil,
        decide_eq_true hmore]
    · have hnext : (objects ++ [describeRow (id, entry)]).length ≤ limit := by
        rw [List.length_append, List.length_singleton]
        omega
      have htake : limit - objects.length =
          limit - (objects ++ [describeRow (id, entry)]).length + 1 := by
        rw [List.length_append, List.length_singleton]
        omega
      rw [if_neg hfull, hsize, okOr_some, ok_bind]
      refine (ih (fun row hrow => hrows row (List.mem_cons_of_mem _ hrow)) hnext).trans ?_
      rw [htake, List.take_succ_cons, List.map_cons, List.append_assoc, List.singleton_append,
        List.length_append, List.length_singleton, List.length_cons, Nat.add_assoc,
        Nat.add_comm 1]

/-- A page is cut from the rows that are left. -/
theorem list_eq_cut (s : State) (scope : StorageScope) (after : Option ObjectKey)
    (limit : ListLimit) :
    list s scope ⟨after, limit⟩ =
      .ok ⟨((scopeRows s scope after).take limit.get.toNat).map describeRow,
        limit.get.toNat < (scopeRows s scope after).length⟩ := by
  rw [list_eq, listLoop_eq (fun row hrow => (mem_scopeRows.mp hrow).2.1) (Nat.zero_le _)]
  simp only [List.length_nil, Nat.sub_zero, List.nil_append, Nat.zero_add]

theorem ordered_scopeRows (s : State) (scope : StorageScope) (after : Option ObjectKey) :
    (scopeRows s scope after).Pairwise fun a b => a.1 < b.1 :=
  (BTreeMap.ordered_range _ _ _).filter _

theorem ordered_keys (s : State) (scope : StorageScope) (after : Option ObjectKey) :
    (scopeRows s scope after).Pairwise fun a b => a.1.key < b.1.key := by
  rw [List.pairwise_iff_forall_sublist]
  intro a b hab
  have hlt := List.pairwise_iff_forall_sublist.mp (ordered_scopeRows s scope after) hab
  have ha := (mem_scopeRows.mp (hab.subset List.mem_cons_self)).2.1
  have hb := (mem_scopeRows.mp (hab.subset (List.mem_cons_of_mem _ List.mem_cons_self))).2.1
  exact (Identity.lt_iff_key (ha.trans hb.symm)).mp hlt

theorem scopeRows_after {s : State} {scope : StorageScope} {after : Option ObjectKey} {n : ℕ}
    {row : Identity × Entry} (hlast : ((scopeRows s scope after).take n).getLast? = some row) :
    scopeRows s scope (some row.1.key) = (scopeRows s scope after).drop n := by
  obtain ⟨init, hinit⟩ := List.getLast?_eq_some_iff.mp hlast
  have hrow : row ∈ (scopeRows s scope after).take n := List.mem_of_getLast? hlast
  have hord := ordered_keys s scope after
  rw [← List.take_append_drop n (scopeRows s scope after), List.pairwise_append] at hord
  obtain ⟨hpage, -, hcross⟩ := hord
  refine BTreeMap.eq_of_mem_iff (f := Prod.fst) (ordered_scopeRows s scope _)
    ((ordered_scopeRows s scope after).sublist (List.drop_sublist n _)) ?_
  rintro ⟨id, e⟩
  constructor
  · intro hmem
    obtain ⟨hget, hscope, hafter⟩ := mem_scopeRows.mp hmem
    have hlt : row.1.key < id.key := hafter _ rfl
    have hleft : (id, e) ∈ scopeRows s scope after := by
      refine mem_scopeRows.mpr ⟨hget, hscope, fun k hk => ?_⟩
      exact ((mem_scopeRows.mp (List.mem_of_mem_take hrow)).2.2 k hk).trans hlt
    rw [← List.take_append_drop n (scopeRows s scope after)] at hleft
    refine (List.mem_append.mp hleft).resolve_left fun hearlier => ?_
    -- The last row of the page has the greatest key of the page.
    rw [hinit] at hearlier hpage
    rcases List.mem_append.mp hearlier with hinit' | hsame
    · exact hlt.asymm ((List.pairwise_append.mp hpage).2.2 _ hinit' row (List.mem_singleton_self _))
    · rw [← List.mem_singleton.mp hsame] at hlt
      exact lt_irrefl _ hlt
  · intro hmem
    obtain ⟨hget, hscope, -⟩ := mem_scopeRows.mp (List.mem_of_mem_drop hmem)
    refine mem_scopeRows.mpr ⟨hget, hscope, ?_⟩
    rintro k ⟨⟩
    exact hcross row hrow _ hmem

section Client

variable {s : State} {scope : StorageScope} {limit : ListLimit} {after : Option ObjectKey}
  {pages : List ListPage}

theorem limit_pos (limit : ListLimit) : 0 < limit.get.toNat := by
  have hne := limit.valid.1
  rw [ne_eq, ← UInt32.toNat_inj] at hne
  exact Nat.pos_of_ne_zero hne

theorem exists_last_row {final : ObjectMetadata} {n : ℕ}
    (h : (((scopeRows s scope after).take n).map describeRow).getLast? = some final) :
    ∃ row, ((scopeRows s scope after).take n).getLast? = some row ∧ final.key = row.1.key := by
  rw [List.getLast?_map, Option.map_eq_some_iff] at h
  obtain ⟨row, hrow, rfl⟩ := h
  exact ⟨row, hrow, rfl⟩

/-- The pages after a key list the rows that are left. -/
theorem listedObjects_eq (h : Listing (list s scope) limit after pages) :
    listedObjects pages = (scopeRows s scope after).map describeRow := by
  induction h with
  | @last after page hpage hmore =>
    rw [list_eq_cut] at hpage
    cases hpage
    have hall : (scopeRows s scope after).length ≤ limit.get.toNat :=
      Nat.not_lt.mp (of_decide_eq_false hmore)
    show _ ++ [] = _
    rw [List.append_nil, List.take_of_length_le hall]
  | @more after page final pages hpage hmore hlast _ ih =>
    rw [list_eq_cut] at hpage
    cases hpage
    obtain ⟨row, hrow, hkey⟩ := exists_last_row hlast
    show _ ++ listedObjects pages = _
    rw [ih, hkey, scopeRows_after hrow, ← List.map_append, List.take_append_drop]

theorem length_of_mem_dropLast (h : Listing (list s scope) limit after pages) :
    ∀ page ∈ pages.dropLast, page.objects.length = limit.get.toNat := by
  induction h with
  | last => nofun
  | @more after page final pages hpage hmore _ hrest ih =>
    have hne : pages ≠ [] := by
      cases hrest <;> exact List.cons_ne_nil _ _
    rw [list_eq_cut] at hpage
    cases hpage
    rw [List.dropLast_cons_of_ne_nil hne]
    refine List.forall_mem_cons.mpr ⟨?_, ih⟩
    rw [List.length_map, List.length_take]
    exact Nat.min_eq_left (of_decide_eq_true hmore).le

/-- A page says that more follow exactly if the pages after it list something. -/
theorem hasMore_iff (h : Listing (list s scope) limit after pages) :
    ∀ before page rest, pages = before ++ page :: rest →
      (page.hasMore ↔ listedObjects rest ≠ []) := by
  induction h with
  | @last after page hpage hmore =>
    intro before page' rest hpages
    cases before with
    | nil =>
      cases hpages
      rw [hmore]
      exact iff_of_false Bool.false_ne_true fun hne => hne rfl
    | cons first before =>
      rw [List.cons_append, List.cons.injEq] at hpages
      cases before <;> cases hpages.2
  | @more after page final pages hpage hmore hlast hrest ih =>
    intro before page' rest hpages
    cases before with
    | nil =>
      cases hpages
      rw [hmore, listedObjects_eq hrest]
      rw [list_eq_cut] at hpage
      cases hpage
      obtain ⟨row, hrow, hkey⟩ := exists_last_row hlast
      rw [hkey, scopeRows_after hrow]
      refine iff_of_true rfl fun hnil => ?_
      have hdrop := List.drop_eq_nil_iff.mp (List.map_eq_nil_iff.mp hnil)
      have hlt : limit.get.toNat < (scopeRows s scope after).length := of_decide_eq_true hmore
      omega
    | cons first before =>
      rw [List.cons_append, List.cons.injEq] at hpages
      exact ih before page' rest hpages.2

/-- The client comes to an end: each page takes rows from those that are left. -/
theorem exists_listing (s : State) (scope : StorageScope) (limit : ListLimit) (n : ℕ) :
    ∀ after, (scopeRows s scope after).length ≤ n →
      ∃ pages, Listing (list s scope) limit after pages := by
  induction n with
  | zero =>
    intro after hlen
    refine ⟨_, .last (list_eq_cut s scope after limit) (decide_eq_false ?_)⟩
    omega
  | succ n ih =>
    intro after hlen
    by_cases hmore : limit.get.toNat < (scopeRows s scope after).length
    · have hpos := limit_pos limit
      have hne : (scopeRows s scope after).take limit.get.toNat ≠ [] := by
        rw [ne_eq, List.take_eq_nil_iff]
        rintro (hzero | hnil)
        · omega
        · rw [hnil] at hmore
          exact absurd hmore (Nat.not_lt_zero _)
      obtain ⟨row, hrow⟩ : ∃ row, ((scopeRows s scope after).take limit.get.toNat).getLast? =
        some row := ⟨_, List.getLast?_eq_some_getLast hne⟩
      have hleft : (scopeRows s scope (some row.1.key)).length ≤ n := by
        rw [scopeRows_after hrow, List.length_drop]
        omega
      have hfinal : (((scopeRows s scope after).take limit.get.toNat).map describeRow).getLast? =
          some (describeRow row) := by
        rw [List.getLast?_map, hrow]
        rfl
      obtain ⟨pages, hpages⟩ := ih (some row.1.key) hleft
      exact ⟨_, .more (list_eq_cut s scope after limit) (decide_eq_true hmore) hfinal hpages⟩
    · exact ⟨_, .last (list_eq_cut s scope after limit) (decide_eq_false hmore)⟩

theorem mem_map_describeRow {metadata : ObjectMetadata} :
    metadata ∈ (scopeRows s scope none).map describeRow ↔
      ∃ object, get s scope metadata.key = .ok (some object) ∧
        metadata = object.describe metadata.key := by
  rw [List.mem_map]
  constructor
  · rintro ⟨⟨id, entry⟩, hrow, rfl⟩
    obtain ⟨hget, rfl, -⟩ := mem_scopeRows.mp hrow
    refine ⟨⟨entry.version, entry.value⟩, ?_, rfl⟩
    show Except.ok (s.objects[id]?.map _) = _
    rw [hget]
    rfl
  · rintro ⟨object, hget, hmetadata⟩
    obtain ⟨entry, hentry, rfl⟩ := Option.map_eq_some_iff.mp (Except.ok.inj hget)
    exact ⟨(identity scope metadata.key, entry), mem_scopeRows.mpr ⟨hentry, rfl, nofun⟩,
      hmetadata.symm⟩

theorem listsScope (s : State) (scope : StorageScope) (limit : ListLimit) :
    ListsScope (get s scope) (list s scope) limit where
  ends := exists_listing s scope limit _ none le_rfl
  exact pages h metadata := by
    rw [listedObjects_eq h]
    exact mem_map_describeRow
  ascending pages h := by
    rw [listedObjects_eq h, List.pairwise_map]
    exact ordered_keys s scope none
  full pages h := length_of_mem_dropLast h
  hasMore pages h before page rest hpages := by
    have hsplit : listedObjects (before ++ [page]) ++ listedObjects rest =
        (scopeRows s scope none).map describeRow := by
      rw [← listedObjects_eq h, hpages]
      unfold listedObjects
      rw [← List.flatMap_append, List.append_assoc, List.singleton_append]
    have hord : (listedObjects (before ++ [page]) ++ listedObjects rest).Pairwise
        fun a b => a.key < b.key := by
      rw [hsplit, List.pairwise_map]
      exact ordered_keys s scope none
    rw [hasMore_iff h before page rest hpages]
    constructor
    · intro hne
      obtain ⟨metadata, hmetadata⟩ := List.exists_mem_of_ne_nil _ hne
      have hlisted := hsplit ▸ List.mem_append_right (listedObjects (before ++ [page])) hmetadata
      obtain ⟨object, hobject, -⟩ := mem_map_describeRow.mp hlisted
      refine ⟨metadata.key, object, hobject, fun earlier hearlier => ?_⟩
      exact ((List.pairwise_append.mp hord).2.2 earlier hearlier metadata hmetadata).ne
    · rintro ⟨key, object, hobject, hfresh⟩ hnil
      have hlisted : object.describe key ∈ (scopeRows s scope none).map describeRow :=
        mem_map_describeRow.mpr ⟨object, hobject, rfl⟩
      rw [← hsplit, hnil, List.append_nil] at hlisted
      exact hfresh _ hlisted rfl

end Client

end Local

/-! ## Both adapters -/

/-- Canonical rows are the encodings of the objects of a local state. -/
theorem Redb.exists_encodesObjects {db : Redb.Db}
    (h : ∀ k v : Bytes, db.objects[k]? = some v → Redb.CanonicalObject k v) :
    ∃ s : Local.State, Redb.EncodesObjects s db := by
  obtain ⟨rows, hrows⟩ := Redb.exists_rows_of_canonical h
  have hkeys : rows.Pairwise fun a b => a.1 ≠ b.1 := by
    have hord := BTreeMap.ordered_toList db.objects
    rw [hrows, List.pairwise_map] at hord
    exact hord.imp fun hlt heq => hlt.ne (congrArg Identity.encode heq)
  refine ⟨{ Local.State.new with objects := Std.ExtTreeMap.ofList rows compare }, ?_, ?_⟩
  · intro id
    refine Option.ext fun v => ?_
    rw [Redb.getElem?_rows hrows, Option.map_eq_some_iff]
    constructor
    · rintro ⟨⟨id', entry⟩, hmem, hrow⟩
      obtain ⟨hid, rfl⟩ := Prod.mk.inj hrow
      cases Identity.encode_injective hid
      exact ⟨entry, (BTreeMap.getElem?_ofList hkeys).mpr hmem, rfl⟩
    · rintro ⟨entry, hget, rfl⟩
      exact ⟨(id, entry), (BTreeMap.getElem?_ofList hkeys).mp hget, rfl⟩
  · intro k v hget
    obtain ⟨row, -, hrow⟩ := (Redb.getElem?_rows hrows).mp hget
    exact ⟨row.1, congrArg Prod.fst hrow⟩

/-- In every state of either adapter, with every page size, listing a scope page by page gives
exactly its objects. -/
theorem listsScope_of_both_adapters :
    (∀ (s : Local.State) (scope : StorageScope) (limit : ListLimit),
      ListsScope (Local.get s scope) (Local.list s scope) limit) ∧
    ∀ db : Redb.Db, (∀ k v : Bytes, db.objects[k]? = some v → Redb.CanonicalObject k v) →
      ∀ (scope : StorageScope) (limit : ListLimit),
        ListsScope (Redb.get db scope) (Redb.list db scope) limit := by
  refine ⟨Local.listsScope, fun db hrows scope limit => ?_⟩
  obtain ⟨s, hobjects⟩ := Redb.exists_encodesObjects hrows
  have hget : Redb.get db scope = Local.get s scope := by
    funext key
    exact Redb.get_eq hobjects scope key
  have hlist : Redb.list db scope = Local.list s scope := by
    funext request
    exact Redb.list_eq hobjects scope request
  rw [hget, hlist]
  exact Local.listsScope s scope limit

/-! ## A listing -/

def sampleLimits : StorageLimits := ⟨10, 1024, 10, 1024, by decide⟩

def sampleTenant : TenantId := ⟨"tenant-a", by decide +kernel⟩

def sampleScope : StorageScope := ⟨sampleTenant, ⟨"memory", by decide +kernel⟩⟩

/-- A key that begins with the other one, and an object of another scope. -/
def sampleCalls : List Call :=
  [.put sampleScope ⟨[97, 0], by decide⟩ ⟨[1], by decide⟩ .any,
    .put sampleScope ⟨[97], by decide⟩ ⟨[1, 2], by decide⟩ .any,
    .put ⟨sampleTenant, ⟨"memory2", by decide +kernel⟩⟩ ⟨[97], by decide⟩ ⟨[], by decide⟩ .any]

def sampleDb : Redb.Db := (Redb.store sampleLimits).final Redb.initializeTables sampleCalls

theorem listsScope_sample :
    ListsScope (Redb.get sampleDb sampleScope) (Redb.list sampleDb sampleScope) ⟨1, by decide⟩ ∧
      (Redb.list sampleDb sampleScope ⟨none, 1, by decide⟩).map (fun page =>
        (page.objects.map fun metadata => metadata.key.asBytes, page.hasMore)) =
          .ok ([[97]], true) :=
  ⟨listsScope_of_both_adapters.2 sampleDb
    (Redb.consistent_final sampleLimits sampleCalls).objects sampleScope ⟨1, by decide⟩,
    by decide +kernel⟩

end RustFactory.Storage
