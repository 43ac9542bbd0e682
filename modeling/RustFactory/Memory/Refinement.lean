import RustFactory.Memory.Agentic
import RustFactory.Memory.Local

/-!
# Memory: the two stores answer alike

With a graph that adds every node under a fresh identifier and removes exactly the node it is told,
the `agentic-memory` store simulates the in-process store: partition by partition, every key points
to the node and the side car that make up the record the other store holds.
-/

namespace RustFactory.Memory

open Lib

namespace Agentic

/-- What the adapter relies on: a node is always added, under an identifier no other node has and
with its content and type; removing a node that is there removes exactly that one. -/
structure MemoryGraph.Lawful {γ ω : Type} (G : MemoryGraph γ ω) : Prop where
  nodes_new : ∀ dimension, G.nodes (G.new dimension) = []
  nodup_ids : ∀ graph, ((G.nodes graph).map CognitiveNode.id).Nodup
  getNode_iff : ∀ graph id node,
    G.getNode graph id = some node ↔ node ∈ G.nodes graph ∧ node.id = id
  addNode : ∀ env graph event, ∃ id graph', G.addNode env graph event = (.ok id, graph') ∧
    (∀ node ∈ G.nodes graph, node.id ≠ id) ∧
    ∀ node, node ∈ G.nodes graph' ↔
      node ∈ G.nodes graph ∨ node = ⟨id, event.eventType, event.content⟩
  removeNode : ∀ env graph id, (∃ node ∈ G.nodes graph, node.id = id) →
    ∃ graph', G.removeNode env graph id = (.ok (), graph') ∧
      ∀ node, node ∈ G.nodes graph' ↔ node ∈ G.nodes graph ∧ node.id ≠ id

variable {γ ω : Type} {G : MemoryGraph γ ω}

/-! ## The relation -/

/-- The node of a record. -/
def nodeOf (id : ℕ) (record : MemoryRecord) : CognitiveNode :=
  ⟨id, eventTypeOf record.kind, record.content⟩

/-- A node and a side car make up the record, which is in its place. -/
structure Holds (G : MemoryGraph γ ω) (graph : γ) (sidecars : BTreeMap ℕ SideCar)
    (tenantId scope key : String) (id : ℕ) (record : MemoryRecord) : Prop where
  node : nodeOf id record ∈ G.nodes graph
  sidecar : sidecars[id]? = some (sidecarOf record)
  tenantId_eq : record.tenantId.asStr = tenantId
  scope_eq : record.namespace.asStr = scope
  key_eq : record.key.asStr = key

/-- The index of a partition mirrors the other store's records, key by key. -/
structure Mirrors (G : MemoryGraph γ ω) (tenantId scope : String) (partition : Partition γ)
    (held : Local.Partition) : Prop where
  related : BTreeMap.Related
    (Holds G (graphMut G partition) partition.sidecars tenantId scope) partition.ids held
  injective : ∀ {key key' : String} {id : ℕ},
    partition.ids[key]? = some id → partition.ids[key']? = some id → key = key'

/-- A partition of the store: it has a graph and is not empty. -/
structure PartitionRel (G : MemoryGraph γ ω) (tenantId scope : String) (partition : Partition γ)
    (held : Local.Partition) : Prop extends Mirrors G tenantId scope partition held where
  graph : partition.graph.isSome
  nonempty : held ≠ ∅

structure TenantRel (G : MemoryGraph γ ω) (tenantId : String) (tenant : Tenant γ)
    (held : Local.Tenant) : Prop where
  related : BTreeMap.Related (PartitionRel G tenantId) tenant held
  nonempty : held ≠ ∅

/-- The stores hold the same records. -/
def StoreRel (G : MemoryGraph γ ω) (tenants : Tenants γ) (held : Local.Tenants) : Prop :=
  BTreeMap.Related (TenantRel G) tenants held

theorem Holds.assemble_eq {graph : γ} {sidecars : BTreeMap ℕ SideCar} {tenantId : TenantId}
    {scope : Namespace} {key : RecordKey} {id : ℕ} {record : MemoryRecord}
    (h : Holds G graph sidecars tenantId.asStr scope.asStr key.asStr id record) :
    assemble (nodeOf id record) (sidecars.getD id default) tenantId scope key = record := by
  have hsidecar : sidecars.getD id default = sidecarOf record := by
    rw [Std.ExtTreeMap.getD_eq_getD_getElem?, h.sidecar]
    rfl
  rw [hsidecar, ← LogicalId.asStr_injective h.tenantId_eq, ← LogicalId.asStr_injective h.scope_eq,
    ← LogicalId.asStr_injective h.key_eq]
  unfold assemble nodeOf sidecarOf
  rw [kindOf_eventTypeOf]

theorem Holds.mono {graph graph' : γ} {sidecars sidecars' : BTreeMap ℕ SideCar}
    {tenantId scope key : String} {id : ℕ} {record : MemoryRecord}
    (h : Holds G graph sidecars tenantId scope key id record)
    (hnode : nodeOf id record ∈ G.nodes graph')
    (hsidecar : sidecars'[id]? = sidecars[id]?) :
    Holds G graph' sidecars' tenantId scope key id record :=
  ⟨hnode, hsidecar.trans h.sidecar, h.tenantId_eq, h.scope_eq, h.key_eq⟩

theorem mirrors_default (tenantId scope : String) :
    Mirrors G tenantId scope default ∅ where
  related := .empty
  injective h := by
    rw [show (default : Partition γ).ids = ∅ from rfl, Std.ExtTreeMap.getElem?_empty] at h
    cases h

/-! ## Writing into a partition -/

section Insert

variable {tenantId scope : String} {partition : Partition γ} {held : Local.Partition}

theorem Mirrors.ne_of_fresh (h : Mirrors G tenantId scope partition held) {id : ℕ}
    (hfresh : ∀ node ∈ G.nodes (graphMut G partition), node.id ≠ id) {key : String} {other : ℕ}
    (hkey : partition.ids[key]? = some other) : other ≠ id := by
  rcases h.related.none_or_some key with ⟨hnone, -⟩ | ⟨id', record, hid, -, hholds⟩
  · rw [hnone] at hkey
    cases hkey
  · rw [hkey] at hid
    rw [Option.some.inj hid]
    exact hfresh _ hholds.node

theorem Mirrors.exists_node (h : Mirrors G tenantId scope partition held) {key : String} {id : ℕ}
    (hkey : partition.ids[key]? = some id) :
    ∃ node ∈ G.nodes (graphMut G partition), node.id = id := by
  rcases h.related.none_or_some key with ⟨hnone, -⟩ | ⟨id', record, hid, -, hholds⟩
  · rw [hnone] at hkey
    cases hkey
  · rw [hkey] at hid
    exact ⟨_, hholds.node, (Option.some.inj hid).symm⟩

/-- The index stays injective when a key moves to a fresh identifier. -/
theorem Mirrors.injective_insert (h : Mirrors G tenantId scope partition held) {id : ℕ}
    (hfresh : ∀ node ∈ G.nodes (graphMut G partition), node.id ≠ id) (moved : String)
    {key key' : String} {i : ℕ} (hkey : (partition.ids.insert moved id)[key]? = some i)
    (hkey' : (partition.ids.insert moved id)[key']? = some i) : key = key' := by
  rw [Std.ExtTreeMap.getElem?_insert] at hkey hkey'
  by_cases hk : compare moved key = .eq
  · rw [if_pos hk] at hkey
    by_cases hk' : compare moved key' = .eq
    · exact (compare_eq_iff_eq.mp hk).symm.trans (compare_eq_iff_eq.mp hk')
    · rw [if_neg hk', ← Option.some.inj hkey] at hkey'
      exact absurd rfl (h.ne_of_fresh hfresh hkey')
  · rw [if_neg hk] at hkey
    by_cases hk' : compare moved key' = .eq
    · rw [if_pos hk', Option.some.injEq] at hkey'
      rw [← hkey'] at hkey
      exact absurd rfl (h.ne_of_fresh hfresh hkey)
    · rw [if_neg hk'] at hkey'
      exact h.injective hkey hkey'

/-- The write of a record makes the same change in both stores and has the same outcome. -/
theorem Mirrors.insertRecord (laws : G.Lawful) (h : Mirrors G tenantId scope partition held)
    (env : ω) {record : MemoryRecord} (htenant : record.tenantId.asStr = tenantId)
    (hscope : record.namespace.asStr = scope) :
    (insertRecord G env partition record).1 =
        .ok (if held.contains record.key.asStr then .replaced else .created) ∧
      PartitionRel G tenantId scope (insertRecord G env partition record).2
        (held.insert record.key.asStr record) := by
  obtain ⟨id, graph, hadd, hfresh, hnodes⟩ :=
    laws.addNode env (graphMut G partition) (eventOf record)
  have hnew : nodeOf id record ∈ G.nodes graph := (hnodes _).mpr (.inr rfl)
  rcases h.related.none_or_some record.key.asStr with
    ⟨hkey, hheld⟩ | ⟨previous, old, hkey, hheld, -⟩
  · rw [insertRecord_created hadd hkey, Std.ExtTreeMap.contains_eq_isSome_getElem?, hheld]
    refine ⟨rfl, ⟨⟨h.related.insert ?_ ?_, h.injective_insert hfresh _⟩, rfl,
      Std.ExtTreeMap.insert_ne_empty⟩⟩
    · intro j i other _ hids _ hholds
      have hne := h.ne_of_fresh hfresh hids
      refine hholds.mono ((hnodes _).mpr (.inl hholds.node)) ?_
      rw [Std.ExtTreeMap.getElem?_insert, if_neg (by rw [compare_eq_iff_eq]; exact hne.symm)]
    · refine ⟨hnew, ?_, htenant, hscope, rfl⟩
      rw [Std.ExtTreeMap.getElem?_insert, if_pos (compare_eq_iff_eq.mpr rfl)]
  · obtain ⟨node, hmem, hid⟩ := h.exists_node hkey
    obtain ⟨graph', hremove, hnodes'⟩ :=
      laws.removeNode env graph previous ⟨node, (hnodes _).mpr (.inl hmem), hid⟩
    rw [insertRecord_replaced hadd hkey, hremove, Std.ExtTreeMap.contains_eq_isSome_getElem?, hheld]
    refine ⟨rfl, ⟨⟨h.related.insert ?_ ?_, h.injective_insert hfresh _⟩, rfl,
      Std.ExtTreeMap.insert_ne_empty⟩⟩
    · intro j i other hj hids _ hholds
      have hother : i ≠ previous := by
        intro heq
        rw [heq] at hids
        exact hj (h.injective hkey hids)
      have hne := h.ne_of_fresh hfresh hids
      refine hholds.mono ((hnodes' _).mpr ⟨(hnodes _).mpr (.inl hholds.node), hother⟩) ?_
      rw [Std.ExtTreeMap.getElem?_insert, if_neg (by rw [compare_eq_iff_eq]; exact hne.symm),
        Std.ExtTreeMap.getElem?_erase, if_neg (by rw [compare_eq_iff_eq]; exact hother.symm)]
    · refine ⟨(hnodes' _).mpr ⟨hnew, (h.ne_of_fresh hfresh hkey).symm⟩, ?_, htenant, hscope, rfl⟩
      rw [Std.ExtTreeMap.getElem?_insert, if_pos (compare_eq_iff_eq.mpr rfl)]

end Insert

/-! ## Writes -/

theorem StoreRel.tenant {tenants : Tenants γ} {held : Local.Tenants} (h : StoreRel G tenants held)
    (tenantId : String) :
    BTreeMap.Related (PartitionRel G tenantId) (tenants.getD tenantId ∅) (held.getD tenantId ∅) := by
  rw [Std.ExtTreeMap.getD_eq_getD_getElem?, Std.ExtTreeMap.getD_eq_getD_getElem?]
  rcases h.none_or_some tenantId with ⟨hnone, hnone'⟩ | ⟨tenant, tenant', hsome, hsome', hrel⟩
  · rw [hnone, hnone']
    exact .empty
  · rw [hsome, hsome']
    exact hrel.related

section Tenant

variable {tenantId : String} {tenant : Tenant γ} {held : Local.Tenant}

theorem mirrors_getD (h : BTreeMap.Related (PartitionRel G tenantId) tenant held) (scope : String) :
    Mirrors G tenantId scope (tenant.getD scope default) (held.getD scope ∅) := by
  rw [Std.ExtTreeMap.getD_eq_getD_getElem?, Std.ExtTreeMap.getD_eq_getD_getElem?]
  rcases h.none_or_some scope with ⟨hnone, hnone'⟩ | ⟨partition, partition', hsome, hsome', hrel⟩
  · rw [hnone, hnone']
    exact mirrors_default tenantId scope
  · rw [hsome, hsome']
    exact hrel.toMirrors

theorem checkRoom_eq (h : BTreeMap.Related (PartitionRel G tenantId) tenant held)
    (record : MemoryRecord) : checkRoom tenant record = Local.checkRoom held record := by
  unfold checkRoom Local.checkRoom
  rw [h.size_eq]
  rcases h.none_or_some record.namespace.asStr with
    ⟨hnone, hnone'⟩ | ⟨partition, partition', hsome, hsome', hrel⟩
  · rw [hnone, hnone']
    rfl
  · have hcontains : partition.ids.contains record.key.asStr =
        partition'.contains record.key.asStr := by
      rw [Bool.eq_iff_iff, Std.ExtTreeMap.contains_iff_mem, Std.ExtTreeMap.contains_iff_mem]
      exact hrel.related.mem_iff _
    simp only [hsome, hsome', Option.elim_some, Option.all_some, Option.isNone_some,
      hrel.related.size_eq, hcontains]

end Tenant

theorem StoreRel.put (laws : G.Lawful) {tenants : Tenants γ} {held : Local.Tenants}
    (h : StoreRel G tenants held) (env : ω) (record : MemoryRecord) :
    (put G env tenants record).1 = (Local.put held record).1 ∧
      StoreRel G (put G env tenants record).2 (Local.put held record).2 := by
  have htenant := h.tenant record.tenantId.asStr
  rw [put_eq, Local.put_eq]
  simp only [checkRoom_eq htenant]
  cases validateRecord record >>= fun _ =>
      Local.checkRoom (held.getD record.tenantId.asStr ∅) record with
  | error e => exact ⟨rfl, h⟩
  | ok _ =>
    obtain ⟨houtcome, hpartition⟩ :=
      (mirrors_getD htenant record.namespace.asStr).insertRecord laws env rfl rfl
    refine ⟨houtcome, h.insert (fun _ _ _ _ _ _ hrel => hrel) ⟨?_, ?_⟩⟩
    · exact htenant.insert (fun _ _ _ _ _ _ hrel => hrel) hpartition
    · exact Std.ExtTreeMap.insert_ne_empty

/-! ## Removal -/

theorem delete_absent {tenants : Local.Tenants} {tenant : Local.Tenant}
    {partition : Local.Partition} {tenantId : TenantId} {scope : Namespace} {key : RecordKey}
    (htenant : tenants[tenantId.asStr]? = some tenant)
    (hpartition : tenant[scope.asStr]? = some partition)
    (hkey : partition[key.asStr]? = none) (hne : partition ≠ ∅) (hne' : tenant ≠ ∅) :
    Local.delete tenants tenantId scope key = (.ok false, tenants) := by
  unfold Local.delete
  have hempty : ¬partition.isEmpty := by rwa [Std.ExtTreeMap.isEmpty_iff]
  have hempty' : ¬tenant.isEmpty := by rwa [Std.ExtTreeMap.isEmpty_iff]
  simp only [htenant, hpartition, Std.ExtTreeMap.contains_eq_isSome_getElem?, hkey,
    BTreeMap.erase_of_getElem?_none hkey, if_neg hempty,
    BTreeMap.insert_of_getElem?_some hpartition, if_neg hempty',
    BTreeMap.insert_of_getElem?_some htenant]
  rfl

theorem Mirrors.erase {tenantId scope : String} {partition : Partition γ} {held : Local.Partition}
    (h : Mirrors G tenantId scope partition held) {key : String} {id : ℕ} {graph : γ}
    (hkey : partition.ids[key]? = some id)
    (hnodes : ∀ node, node ∈ G.nodes graph ↔ node ∈ G.nodes (graphMut G partition) ∧ node.id ≠ id) :
    Mirrors G tenantId scope ⟨some graph, partition.ids.erase key, partition.sidecars.erase id⟩
      (held.erase key) where
  related := by
    refine h.related.erase fun j i record hj hids _ hholds => ?_
    have hne : i ≠ id := by
      intro heq
      rw [heq] at hids
      exact hj (h.injective hkey hids)
    refine hholds.mono ((hnodes _).mpr ⟨hholds.node, hne⟩) ?_
    rw [Std.ExtTreeMap.getElem?_erase, if_neg (by rw [compare_eq_iff_eq]; exact hne.symm)]
  injective := by
    intro j j' i hj hj'
    rw [Std.ExtTreeMap.getElem?_erase] at hj hj'
    by_cases hk : compare key j = .eq
    · rw [if_pos hk] at hj
      cases hj
    · by_cases hk' : compare key j' = .eq
      · rw [if_pos hk'] at hj'
        cases hj'
      · rw [if_neg hk] at hj
        rw [if_neg hk'] at hj'
        exact h.injective hj hj'

/-- An emptied partition is reclaimed on both sides, another one is kept. -/
theorem related_reclaim {tenantId : String} {tenant : Tenant γ} {held : Local.Tenant}
    (h : BTreeMap.Related (PartitionRel G tenantId) tenant held) {scope : String}
    {partition : Partition γ} {records : Local.Partition}
    (hmirrors : Mirrors G tenantId scope partition records) (hgraph : partition.graph.isSome) :
    BTreeMap.Related (PartitionRel G tenantId)
      (if partition.ids.isEmpty then tenant.erase scope else tenant.insert scope partition)
      (if records.isEmpty then held.erase scope else held.insert scope records) := by
  rw [hmirrors.related.isEmpty_eq]
  by_cases hempty : records.isEmpty
  · rw [if_pos hempty, if_pos hempty]
    exact h.erase fun _ _ _ _ _ _ hrel => hrel
  · rw [if_neg hempty, if_neg hempty]
    refine h.insert (fun _ _ _ _ _ _ hrel => hrel) ⟨hmirrors, hgraph, ?_⟩
    rwa [Std.ExtTreeMap.isEmpty_iff] at hempty

theorem StoreRel.reclaim {tenants : Tenants γ} {held : Local.Tenants} (h : StoreRel G tenants held)
    {tenantId : String} {tenant : Tenant γ} {tenant' : Local.Tenant}
    (hrel : BTreeMap.Related (PartitionRel G tenantId) tenant tenant') :
    StoreRel G (if tenant.isEmpty then tenants.erase tenantId else tenants.insert tenantId tenant)
      (if tenant'.isEmpty then held.erase tenantId else held.insert tenantId tenant') := by
  rw [hrel.isEmpty_eq]
  by_cases hempty : tenant'.isEmpty
  · rw [if_pos hempty, if_pos hempty]
    exact h.erase fun _ _ _ _ _ _ hrel => hrel
  · rw [if_neg hempty, if_neg hempty]
    refine h.insert (fun _ _ _ _ _ _ hrel => hrel) ⟨hrel, ?_⟩
    rwa [Std.ExtTreeMap.isEmpty_iff] at hempty

theorem StoreRel.delete (laws : G.Lawful) {tenants : Tenants γ} {held : Local.Tenants}
    (h : StoreRel G tenants held) (env : ω) (tenantId : TenantId) (scope : Namespace)
    (key : RecordKey) :
    (delete G env tenants tenantId scope key).1 = (Local.delete held tenantId scope key).1 ∧
      StoreRel G (delete G env tenants tenantId scope key).2
        (Local.delete held tenantId scope key).2 := by
  rcases h.none_or_some tenantId.asStr with
    ⟨htenant, htenant'⟩ | ⟨tenant, tenant', htenant, htenant', hrel⟩
  · simp only [Agentic.delete, Local.delete, htenant, htenant']
    exact ⟨trivial, h⟩
  rcases hrel.related.none_or_some scope.asStr with
    ⟨hpartition, hpartition'⟩ | ⟨partition, partition', hpartition, hpartition', hmirror⟩
  · simp only [Agentic.delete, Local.delete, htenant, htenant', hpartition, hpartition']
    exact ⟨trivial, h⟩
  rcases hmirror.related.none_or_some key.asStr with
    ⟨hkey, hkey'⟩ | ⟨id, record, hkey, hkey', -⟩
  · rw [delete_absent htenant' hpartition' hkey' hmirror.nonempty hrel.nonempty]
    simp only [Agentic.delete, htenant, hpartition, hkey]
    exact ⟨trivial, h⟩
  obtain ⟨graph, hremove, hnodes⟩ :=
    laws.removeNode env _ id (hmirror.toMirrors.exists_node hkey)
  have hcontains : partition'.contains key.asStr = true := by
    rw [Std.ExtTreeMap.contains_eq_isSome_getElem?, hkey']
    rfl
  simp only [Agentic.delete, Local.delete, htenant, htenant', hpartition, hpartition', hkey,
    hremove, hcontains]
  refine ⟨trivial, h.reclaim ?_⟩
  exact related_reclaim hrel.related (hmirror.toMirrors.erase hkey hnodes) rfl

/-! ## Reads -/

/-- What the stores hold of a tenant's namespace. -/
theorem StoreRel.partition {tenants : Tenants γ} {held : Local.Tenants}
    (h : StoreRel G tenants held) (tenantId scope : String) :
    ((tenants[tenantId]?.bind fun tenant => tenant[scope]?) = none ∧
      (held[tenantId]?.bind fun tenant => tenant[scope]?) = none) ∨
    ∃ partition records, (tenants[tenantId]?.bind fun tenant => tenant[scope]?) = some partition ∧
      (held[tenantId]?.bind fun tenant => tenant[scope]?) = some records ∧
      PartitionRel G tenantId scope partition records := by
  rcases h.none_or_some tenantId with ⟨htenant, htenant'⟩ | ⟨tenant, tenant', htenant, htenant', hrel⟩
  · rw [htenant, htenant']
    exact .inl ⟨rfl, rfl⟩
  · rw [htenant, htenant']
    exact hrel.related.none_or_some scope

theorem PartitionRel.exists_graph {tenantId scope : String} {partition : Partition γ}
    {records : Local.Partition} (h : PartitionRel G tenantId scope partition records) :
    ∃ graph, partition.graph = some graph ∧ graphMut G partition = graph := by
  obtain ⟨graph, hgraph⟩ := Option.isSome_iff_exists.mp h.graph
  refine ⟨graph, hgraph, ?_⟩
  unfold graphMut
  rw [hgraph]
  rfl

theorem StoreRel.get (laws : G.Lawful) {tenants : Tenants γ} {held : Local.Tenants}
    (h : StoreRel G tenants held) (tenantId : TenantId) (scope : Namespace) (key : RecordKey) :
    get G tenants tenantId scope key = Local.get held tenantId scope key := by
  rcases h.partition tenantId.asStr scope.asStr with
    ⟨hnone, hnone'⟩ | ⟨partition, records, hsome, hsome', hrel⟩
  · simp only [Agentic.get, Local.get, hnone, hnone', Option.bind_none]
  rcases hrel.related.none_or_some key.asStr with
    ⟨hkey, hkey'⟩ | ⟨id, record, hkey, hkey', hholds⟩
  · simp only [Agentic.get, Local.get, hsome, hsome', hkey, hkey', Option.bind_some]
  obtain ⟨graph, hgraph, hmut⟩ := hrel.exists_graph
  have hnode : G.getNode graph id = some (nodeOf id record) :=
    (laws.getNode_iff graph id _).mpr ⟨hmut ▸ hholds.node, rfl⟩
  have hrebuild : rebuild G partition id tenantId scope key = some record := by
    unfold rebuild
    rw [hgraph]
    change (G.getNode graph id).bind _ = _
    rw [hnode, Option.bind_some, hholds.assemble_eq]
  simp only [Agentic.get, Local.get, hsome, hsome', hkey, hkey', Option.bind_some, hrebuild]

/-- The index read from the nodes' side. -/
theorem getElem?_byId {ids : BTreeMap String ℕ}
    (h : ∀ {key key' : String} {id : ℕ}, ids[key]? = some id → ids[key']? = some id → key = key')
    {id : ℕ} {key : String} : (byId ids)[id]? = some key ↔ ids[key]? = some id := by
  have hdistinct : (ids.toList.map fun entry => (entry.2, entry.1)).Pairwise
      fun a b => a.1 ≠ b.1 := by
    rw [List.pairwise_map]
    refine (BTreeMap.ordered_toList ids).imp_of_mem fun {a b} ha hb hlt heq => ?_
    rw [BTreeMap.mem_toList] at ha hb
    have hid : a.2 = b.2 := heq
    rw [← hid] at hb
    exact absurd (h ha hb) hlt.ne
  have hbyId : byId ids =
      Std.ExtTreeMap.ofList (ids.toList.map fun entry => (entry.2, entry.1)) compare := by
    unfold byId
    rw [Std.ExtTreeMap.ofList_eq_foldl, List.foldl_map]
  rw [hbyId, BTreeMap.getElem?_ofList hdistinct, List.mem_map]
  constructor
  · rintro ⟨entry, hentry, heq⟩
    cases heq
    exact BTreeMap.mem_toList.mp hentry
  · intro hkey
    exact ⟨(key, id), BTreeMap.mem_toList.mpr hkey, rfl⟩

section Query

variable {tenantId : TenantId} {scope : Namespace} {partition : Partition γ}
  {records : Local.Partition}

theorem PartitionRel.nodeRecord_nodeOf
    (h : PartitionRel G tenantId.asStr scope.asStr partition records) {key : String} {id : ℕ}
    {record : MemoryRecord} (hkey : partition.ids[key]? = some id)
    (hholds : Holds G (graphMut G partition) partition.sidecars tenantId.asStr scope.asStr key id
      record) :
    nodeRecord partition tenantId scope (nodeOf id record) = some record := by
  have hbyId : (byId partition.ids)[(nodeOf id record).id]? = some key :=
    (getElem?_byId h.injective).mpr hkey
  have hnew : (LogicalId.new .record key).toOption = some record.key := by
    rw [← hholds.key_eq, LogicalId.new_asStr]
    rfl
  rw [← hholds.key_eq] at hholds
  unfold nodeRecord
  rw [hbyId]
  change ((LogicalId.new .record key).toOption).bind _ = _
  rw [hnew, Option.bind_some]
  exact congrArg some hholds.assemble_eq

/-- A node that is read as a record is the node of an index entry that holds this record. -/
theorem PartitionRel.nodeRecord_eq_some (laws : G.Lawful)
    (h : PartitionRel G tenantId.asStr scope.asStr partition records) {node : CognitiveNode}
    (hnode : node ∈ G.nodes (graphMut G partition)) {record : MemoryRecord}
    (hrecord : nodeRecord partition tenantId scope node = some record) :
    partition.ids[record.key.asStr]? = some node.id ∧
      records[record.key.asStr]? = some record := by
  cases hbyId : (byId partition.ids)[node.id]? with
  | none =>
    unfold nodeRecord at hrecord
    rw [hbyId] at hrecord
    cases hrecord
  | some key =>
    have hkey : partition.ids[key]? = some node.id := (getElem?_byId h.injective).mp hbyId
    rcases h.related.none_or_some key with ⟨hnone, -⟩ | ⟨id, held, hid, hheld, hholds⟩
    · rw [hnone] at hkey
      cases hkey
    · rw [hkey] at hid
      obtain rfl : node.id = id := Option.some.inj hid
      have hsame : node = nodeOf node.id held :=
        List.inj_on_of_nodup_map (laws.nodup_ids _) hnode hholds.node rfl
      rw [hsame, h.nodeRecord_nodeOf hkey hholds] at hrecord
      obtain rfl : held = record := Option.some.inj hrecord
      rw [hholds.key_eq]
      exact ⟨hkey, hheld⟩

/-- A record that is held has its node, which is read as the record. -/
theorem PartitionRel.exists_nodeRecord
    (h : PartitionRel G tenantId.asStr scope.asStr partition records) {key : String}
    {record : MemoryRecord} (hrecord : records[key]? = some record) :
    record.key.asStr = key ∧ ∃ node ∈ G.nodes (graphMut G partition),
      nodeRecord partition tenantId scope node = some record := by
  rcases h.related.none_or_some key with ⟨-, hnone⟩ | ⟨id, held, hid, hheld, hholds⟩
  · rw [hnone] at hrecord
    cases hrecord
  · rw [hrecord] at hheld
    obtain rfl : record = held := Option.some.inj hheld
    exact ⟨hholds.key_eq, nodeOf id record, hholds.node, h.nodeRecord_nodeOf hid hholds⟩

/-- Sorted by key, the records of the nodes are the records of the other store. -/
theorem PartitionRel.sorted_eq (laws : G.Lawful)
    (h : PartitionRel G tenantId.asStr scope.asStr partition records) (query : MemoryQuery) :
    (((G.nodes (graphMut G partition)).filterMap (nodeRecord partition tenantId scope)).filter
        query.matches).mergeSort (fun left right => left.key.asStr ≤ right.key.asStr) =
      (records.toList.map Prod.snd).filter query.matches := by
  -- Both lists are strictly ascending in the key and have the same members.
  have hnodes : ((G.nodes (graphMut G partition)).filterMap
      (nodeRecord partition tenantId scope)).Pairwise fun a b => a.key.asStr ≠ b.key.asStr := by
    rw [List.pairwise_filterMap]
    have hids := List.pairwise_map.mp (laws.nodup_ids (graphMut G partition))
    refine hids.imp_of_mem fun {a b} ha hb hne record hrecord record' hrecord' heq => hne ?_
    have hkey := (h.nodeRecord_eq_some laws ha hrecord).1
    have hkey' := (h.nodeRecord_eq_some laws hb hrecord').1
    rw [heq, hkey'] at hkey
    exact (Option.some.inj hkey).symm
  refine BTreeMap.eq_of_mem_iff (f := fun record => record.key.asStr) ?_ ?_ fun record => ?_
  · exact BTreeMap.pairwise_mergeSort_of_ne (hnodes.filter query.matches)
  · rw [List.filter_map, List.pairwise_map]
    refine ((BTreeMap.ordered_toList records).filter _).imp_of_mem fun {a b} ha hb hlt => ?_
    have ha' := (h.exists_nodeRecord (BTreeMap.mem_toList.mp (List.mem_of_mem_filter ha))).1
    have hb' := (h.exists_nodeRecord (BTreeMap.mem_toList.mp (List.mem_of_mem_filter hb))).1
    rw [ha', hb']
    exact hlt
  · rw [List.mem_mergeSort, List.mem_filter, List.mem_filter, List.mem_filterMap, List.mem_map]
    refine and_congr_left fun _ => ⟨?_, ?_⟩
    · rintro ⟨node, hnode, hrecord⟩
      have hheld := (h.nodeRecord_eq_some laws hnode hrecord).2
      exact ⟨(record.key.asStr, record), BTreeMap.mem_toList.mpr hheld, rfl⟩
    · rintro ⟨entry, hentry, rfl⟩
      exact (h.exists_nodeRecord (BTreeMap.mem_toList.mp hentry)).2

theorem StoreRel.query (laws : G.Lawful) {tenants : Tenants γ} {held : Local.Tenants}
    (h : StoreRel G tenants held) (tenantId : TenantId) (scope : Namespace) (filter : MemoryQuery) :
    query G tenants tenantId scope filter = Local.query held tenantId scope filter := by
  unfold Agentic.query Local.query
  cases validateQuery filter with
  | error e => rfl
  | ok _ =>
    rcases h.partition tenantId.asStr scope.asStr with
      ⟨hnone, hnone'⟩ | ⟨partition, records, hsome, hsome', hrel⟩
    · simp only [hnone, hnone']
    · obtain ⟨graph, hgraph, hmut⟩ := hrel.exists_graph
      have hsorted := hrel.sorted_eq laws filter
      rw [hmut] at hsorted
      simp only [hsome, hsome', hgraph, hsorted]

end Query

/-! ## Runs -/

theorem StoreRel.step (laws : G.Lawful) {tenants : Tenants γ} {held : Local.Tenants} (call : Call ω)
    (h : StoreRel G tenants held) :
    ((machine G).step tenants call).1 = ((Local.machine ω).step held call).1 ∧
      StoreRel G ((machine G).step tenants call).2 ((Local.machine ω).step held call).2 := by
  cases call with
  | put env record =>
    obtain ⟨houtcome, hrel⟩ := h.put laws env record
    exact ⟨congrArg Answer.put houtcome, hrel⟩
  | get tenantId scope key => exact ⟨congrArg Answer.get (h.get laws tenantId scope key), h⟩
  | query tenantId scope filter =>
    exact ⟨congrArg Answer.query (h.query laws tenantId scope filter), h⟩
  | delete env tenantId scope key =>
    obtain ⟨hexisted, hrel⟩ := h.delete laws env tenantId scope key
    exact ⟨congrArg Answer.delete hexisted, hrel⟩

/-- Started empty, the stores answer every sequence of calls alike. -/
theorem agentic_outputs_eq_local (laws : G.Lawful) (calls : List (Call ω)) :
    (machine G).outputs ∅ calls = (Local.machine ω).outputs ∅ calls :=
  Machine.outputs_eq_of_simulation (R := StoreRel G) (fun _ _ call h => h.step laws call) .empty
    calls

theorem sequential_lawful : (sequential fun _ : Unit => false).Lawful where
  nodes_new _ := rfl
  nodup_ids graph := graph.nodup_ids
  getNode_iff graph id node := by
    have hfind : ∀ {found : CognitiveNode}, graph.nodes.find? (fun node => node.id == id) =
        some found → found ∈ graph.nodes ∧ found.id = id := by
      intro found h
      have hid := List.find?_some h
      exact ⟨List.mem_of_find?_eq_some h, beq_iff_eq.mp hid⟩
    refine ⟨fun h => hfind h, ?_⟩
    rintro ⟨hnode, hid⟩
    have hsome : (graph.nodes.find? fun node => node.id == id).isSome :=
      List.find?_isSome.mpr ⟨node, hnode, beq_iff_eq.mpr hid⟩
    obtain ⟨found, hfound⟩ := Option.isSome_iff_exists.mp hsome
    obtain ⟨hmem, hfoundId⟩ := hfind hfound
    rw [← List.inj_on_of_nodup_map graph.nodup_ids hmem hnode (hfoundId.trans hid.symm)]
    exact hfound
  addNode _ graph event := by
    refine ⟨graph.next, graph.add event, rfl, fun node hnode => (graph.lt_next node hnode).ne, ?_⟩
    intro node
    change node ∈ graph.nodes ++ [_] ↔ node ∈ graph.nodes ∨ _
    rw [List.mem_append, List.mem_singleton]
  removeNode _ graph id := by
    rintro ⟨node, hnode, rfl⟩
    have hany : graph.nodes.any (·.id == node.id) :=
      List.any_eq_true.mpr ⟨node, hnode, beq_self_eq_true _⟩
    refine ⟨graph.remove node.id, if_pos hany, fun other => ?_⟩
    change other ∈ graph.nodes.filter _ ↔ other ∈ graph.nodes ∧ _
    rw [List.mem_filter, decide_eq_true_eq]

/-- A key is written twice, read and deleted. -/
theorem agentic_outputs_eq_local_sample :
    let tenantId : TenantId := ⟨"acme", .refl true⟩
    let scope : Namespace := ⟨"notes", .refl true⟩
    let key : RecordKey := ⟨"key", .refl true⟩
    let calls : List (Call Unit) := [.put () (plainRecord tenantId scope "first"),
      .put () (plainRecord tenantId scope "second"), .get tenantId scope key,
      .delete () tenantId scope key]
    (machine (sequential fun _ : Unit => false)).outputs ∅ calls =
      (Local.machine Unit).outputs ∅ calls :=
  agentic_outputs_eq_local sequential_lawful _

end Agentic

end RustFactory.Memory
