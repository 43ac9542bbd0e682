import RustFactory.Memory.Model

/-!
# Memory: the `agentic-memory` store

`AgenticMemoryInProcessStore` keeps one graph of the vendor for each tenant and namespace.  A
record is a node of the graph; its key is indexed beside the graph, and so are the fields a node
cannot hold.  The vendor's graph is a parameter.
-/

namespace RustFactory.Memory

open Lib

namespace Agentic

/-! ## The vendor's graph -/

/-- The types of events in a graph. -/
inductive EventType where
  | fact
  | decision
  | inference
  | correction
  | skill
  | episode
  deriving DecidableEq, Repr

/-- What the event builder is given. -/
structure CognitiveEvent where
  eventType : EventType
  content : String
  createdAt : Timestamp

/-- A node of a graph: the fields the adapter reads.  Identifiers are only compared. -/
structure CognitiveNode where
  id : ℕ
  eventType : EventType
  content : String
  deriving DecidableEq

/-- The vendor's graphs, of type `γ`.  What a call that changes a graph does may depend on the
environment `ω` it runs in; its errors are not told apart. -/
structure MemoryGraph (γ ω : Type) where
  new : (dimension : ℕ) → γ
  addNode : ω → γ → CognitiveEvent → Except Unit ℕ × γ
  removeNode : ω → γ → ℕ → Except Unit Unit × γ
  getNode : γ → ℕ → Option CognitiveNode
  nodes : γ → List CognitiveNode

/-! ## The adapter -/

/-- The length of the vectors that events are found by. -/
def dimension : ℕ := 128

/-- The fields a node cannot hold. -/
structure SideCar where
  tags : List String
  metadata : Metadata
  provenance : Option Provenance

instance : Inhabited SideCar := ⟨⟨[], ∅, none⟩⟩

/-- One tenant's namespace: its graph, the node of each key and the side car of each node. -/
structure Partition (γ : Type) where
  graph : Option γ
  ids : BTreeMap String ℕ
  sidecars : BTreeMap ℕ SideCar

instance {γ : Type} : Inhabited (Partition γ) := ⟨⟨none, ∅, ∅⟩⟩

abbrev Tenant (γ : Type) := BTreeMap String (Partition γ)

abbrev Tenants (γ : Type) := BTreeMap String (Tenant γ)

/-- The type that a kind of record is kept as. -/
def eventTypeOf : MemoryKind → EventType
  | .factual => .fact
  | .preference => .decision
  | .procedural => .skill
  | .episodic => .episode

/-- The kind of record that a type is read as. -/
def kindOf : EventType → MemoryKind
  | .fact | .inference | .correction => .factual
  | .decision => .preference
  | .skill => .procedural
  | .episode => .episodic

theorem kindOf_eventTypeOf (kind : MemoryKind) : kindOf (eventTypeOf kind) = kind := by
  cases kind <;> rfl

variable {γ ω : Type} (G : MemoryGraph γ ω)

/-- The partition's graph, created where there is none. -/
def graphMut (partition : Partition γ) : γ := partition.graph.getD (G.new dimension)

/-- The event of a record; without provenance its time is 0. -/
def eventOf (record : MemoryRecord) : CognitiveEvent where
  eventType := eventTypeOf record.kind
  content := record.content
  createdAt := record.provenance.elim 0 fun provenance => provenance.recordedAt

/-- The side car of a record. -/
def sidecarOf (record : MemoryRecord) : SideCar :=
  ⟨record.tags, record.metadata, record.provenance⟩

/-- The write into a partition, after the checks: the new node is added before the one it replaces
is removed, and a failure to remove that one is ignored. -/
def insertRecord (env : ω) (partition : Partition γ) (record : MemoryRecord) :
    Except MemoryError WriteOutcome × Partition γ :=
  match G.addNode env (graphMut G partition) (eventOf record) with
  | (.error _, graph) => (.error .adapterFailure, { partition with graph := some graph })
  | (.ok id, graph) =>
    let ids := partition.ids.insert record.key.asStr id
    match partition.ids[record.key.asStr]? with
    | some previous =>
      (.ok .replaced,
        ⟨some (G.removeNode env graph previous).2, ids,
          (partition.sidecars.erase previous).insert id (sidecarOf record)⟩)
    | none => (.ok .created, ⟨some graph, ids, partition.sidecars.insert id (sidecarOf record)⟩)

/-- The capacity check of a write, from what the tenant holds. -/
def checkRoom (tenant : Tenant γ) (record : MemoryRecord) : Except MemoryError Unit :=
  let existing := tenant[record.namespace.asStr]?
  checkCapacity tenant.size existing.isNone (existing.elim 0 fun held => held.ids.size)
    (existing.all fun held => !held.ids.contains record.key.asStr)

/-- Puts a record: a node of the graph of its namespace. -/
def put (env : ω) (tenants : Tenants γ) (record : MemoryRecord) :
    Except MemoryError WriteOutcome × Tenants γ :=
  match validateRecord record with
  | .error e => (.error e, tenants)
  | .ok () =>
    let tenants := tenants.insertIfNew record.tenantId.asStr ∅
    let tenant := tenants.getD record.tenantId.asStr ∅
    match checkRoom tenant record with
    | .error e => (.error e, tenants)
    | .ok () =>
      -- `entry(..).or_default()` puts the partition in place before the vendor is asked.
      let existing := tenant.getD record.namespace.asStr default
      let (outcome, partition) := insertRecord G env existing record
      (outcome, tenants.insert record.tenantId.asStr
        (tenant.insert record.namespace.asStr partition))

/-- The record of a node and its side car. -/
def assemble (node : CognitiveNode) (sidecar : SideCar) (tenantId : TenantId)
    («namespace» : Namespace) (key : RecordKey) : MemoryRecord where
  tenantId := tenantId
  «namespace» := «namespace»
  key := key
  kind := kindOf node.eventType
  content := node.content
  tags := sidecar.tags
  metadata := sidecar.metadata
  provenance := sidecar.provenance

def rebuild (partition : Partition γ) (id : ℕ) (tenantId : TenantId) («namespace» : Namespace)
    (key : RecordKey) : Option MemoryRecord := do
  let graph ← partition.graph
  let node ← G.getNode graph id
  some (assemble node (partition.sidecars.getD id default) tenantId «namespace» key)

def get (tenants : Tenants γ) (tenantId : TenantId) («namespace» : Namespace) (key : RecordKey) :
    Except MemoryError (Option MemoryRecord) :=
  match tenants[tenantId.asStr]?.bind fun tenant => tenant[«namespace».asStr]? with
  | none => .ok none
  | some partition =>
    match partition.ids[key.asStr]? with
    | none => .ok none
    | some id => .ok (rebuild G partition id tenantId «namespace» key)

/-- The keys by node. -/
def byId (ids : BTreeMap String ℕ) : BTreeMap ℕ String :=
  ids.toList.foldl (fun keys entry => keys.insert entry.2 entry.1) ∅

/-- The record of a node that a key still points to. -/
def nodeRecord (partition : Partition γ) (tenantId : TenantId) («namespace» : Namespace)
    (node : CognitiveNode) : Option MemoryRecord := do
  let keyText ← (byId partition.ids)[node.id]?
  let key ← (LogicalId.new .record keyText).toOption
  some (assemble node (partition.sidecars.getD node.id default) tenantId «namespace» key)

/-- The first records, by key, that the query is for. -/
def query (tenants : Tenants γ) (tenantId : TenantId) («namespace» : Namespace)
    (query : MemoryQuery) : Except MemoryError (List MemoryRecord) := do
  validateQuery query
  match tenants[tenantId.asStr]?.bind fun tenant => tenant[«namespace».asStr]? with
  | none => .ok []
  | some partition =>
    match partition.graph with
    | none => .ok []
    | some graph =>
      let found := ((G.nodes graph).filterMap
        (nodeRecord partition tenantId «namespace»)).filter query.matches
      .ok ((found.mergeSort fun left right => left.key.asStr ≤ right.key.asStr).take query.limit)

def delete (env : ω) (tenants : Tenants γ) (tenantId : TenantId) («namespace» : Namespace)
    (key : RecordKey) : Except MemoryError Bool × Tenants γ :=
  match tenants[tenantId.asStr]? with
  | none => (.ok false, tenants)
  | some tenant =>
    match tenant[«namespace».asStr]? with
    | none => (.ok false, tenants)
    | some partition =>
      match partition.ids[key.asStr]? with
      | none => (.ok false, tenants)
      | some id =>
        match G.removeNode env (graphMut G partition) id with
        | (.error _, graph) =>
          (.error .adapterFailure, tenants.insert tenantId.asStr
            (tenant.insert «namespace».asStr { partition with graph := some graph }))
        | (.ok (), graph) =>
          let partition : Partition γ :=
            ⟨some graph, partition.ids.erase key.asStr, partition.sidecars.erase id⟩
          let tenant :=
            if partition.ids.isEmpty then tenant.erase «namespace».asStr
            else tenant.insert «namespace».asStr partition
          let tenants :=
            if tenant.isEmpty then tenants.erase tenantId.asStr
            else tenants.insert tenantId.asStr tenant
          (.ok true, tenants)

/-- The answer to a call, and the state after it. -/
def step (tenants : Tenants γ) : Call ω → Answer × Tenants γ
  | .put env record => let (outcome, tenants) := put G env tenants record; (.put outcome, tenants)
  | .get tenantId scope key => (.get (get G tenants tenantId scope key), tenants)
  | .query tenantId scope filter => (.query (query G tenants tenantId scope filter), tenants)
  | .delete env tenantId scope key =>
    let (existed, tenants) := delete G env tenants tenantId scope key
    (.delete existed, tenants)

/-- The store as a machine. -/
def machine : Machine (Tenants γ) (Call ω) Answer := ⟨step G⟩

/-! ## Writes -/

section Insert

variable {G} {env : ω} {partition : Partition γ} {record : MemoryRecord} {graph : γ} {id : ℕ}

theorem insertRecord_failed
    (h : G.addNode env (graphMut G partition) (eventOf record) = (.error (), graph)) :
    insertRecord G env partition record =
      (.error .adapterFailure, { partition with graph := some graph }) := by
  unfold insertRecord
  rw [h]

theorem insertRecord_created
    (h : G.addNode env (graphMut G partition) (eventOf record) = (.ok id, graph))
    (hkey : partition.ids[record.key.asStr]? = none) :
    insertRecord G env partition record =
      (.ok .created, ⟨some graph, partition.ids.insert record.key.asStr id,
        partition.sidecars.insert id (sidecarOf record)⟩) := by
  unfold insertRecord
  simp only [h, hkey]

theorem insertRecord_replaced {previous : ℕ}
    (h : G.addNode env (graphMut G partition) (eventOf record) = (.ok id, graph))
    (hkey : partition.ids[record.key.asStr]? = some previous) :
    insertRecord G env partition record =
      (.ok .replaced, ⟨some (G.removeNode env graph previous).2,
        partition.ids.insert record.key.asStr id,
        (partition.sidecars.erase previous).insert id (sidecarOf record)⟩) := by
  unfold insertRecord
  simp only [h, hkey]

end Insert

theorem checkRoom_empty (record : MemoryRecord) :
    checkRoom (∅ : Tenant γ) record = .ok () := by
  unfold checkRoom
  rw [Std.ExtTreeMap.getElem?_empty, Std.ExtTreeMap.size_empty]
  exact checkCapacity_empty

/-- A refused write leaves the store as it was; the others reach the vendor. -/
theorem put_eq (env : ω) (tenants : Tenants γ) (record : MemoryRecord) :
    put G env tenants record =
      let tenant := tenants.getD record.tenantId.asStr ∅
      match validateRecord record >>= fun _ => checkRoom tenant record with
      | .error e => (.error e, tenants)
      | .ok () =>
        let (outcome, partition) :=
          insertRecord G env (tenant.getD record.namespace.asStr default) record
        (outcome, tenants.insert record.tenantId.asStr
          (tenant.insert record.namespace.asStr partition)) := by
  unfold put
  cases validateRecord record with
  | error e => rfl
  | ok _ =>
    simp only [ok_bind, BTreeMap.getD_insertIfNew_self, BTreeMap.insert_insertIfNew]
    cases hroom : checkRoom (tenants.getD record.tenantId.asStr ∅) record with
    | ok _ => rfl
    | error e =>
      -- A tenant that is not there yet is never refused, so none is left behind.
      cases htenant : tenants[record.tenantId.asStr]? with
      | some tenant => rw [BTreeMap.insertIfNew_of_getElem?_some htenant]
      | none =>
        rw [Std.ExtTreeMap.getD_eq_getD_getElem?, htenant, Option.getD_none,
          checkRoom_empty] at hroom
        cases hroom

/-! ## Sequential graphs -/

/-- Nodes with the identifiers handed out so far. -/
structure SequentialGraph where
  nodes : List CognitiveNode
  next : ℕ
  lt_next : ∀ node ∈ nodes, node.id < next
  nodup_ids : (nodes.map CognitiveNode.id).Nodup

def SequentialGraph.add (graph : SequentialGraph) (event : CognitiveEvent) : SequentialGraph where
  nodes := graph.nodes ++ [⟨graph.next, event.eventType, event.content⟩]
  next := graph.next + 1
  lt_next node hnode := by
    rcases List.mem_append.mp hnode with hold | hnew
    · exact (graph.lt_next node hold).trans (Nat.lt_succ_self _)
    · rw [List.mem_singleton.mp hnew]
      exact Nat.lt_succ_self _
  nodup_ids := by
    rw [List.map_append, List.nodup_append]
    refine ⟨graph.nodup_ids, List.nodup_singleton _, ?_⟩
    intro id hid id' hid' heq
    obtain ⟨node, hnode, rfl⟩ := List.mem_map.mp hid
    rw [List.map_singleton, List.mem_singleton] at hid'
    exact absurd (heq.trans hid') (graph.lt_next node hnode).ne

/-- The graph without a node; its number is not given again. -/
def SequentialGraph.remove (graph : SequentialGraph) (id : ℕ) : SequentialGraph where
  nodes := graph.nodes.filter fun node => node.id ≠ id
  next := graph.next
  lt_next node hnode := graph.lt_next node (List.mem_of_mem_filter hnode)
  nodup_ids := graph.nodup_ids.sublist (List.filter_sublist.map _)

/-- Graphs with sequential identifiers, where adding a node fails in some environments. -/
def sequential {ω : Type} (fails : ω → Bool) : MemoryGraph SequentialGraph ω where
  new _ := ⟨[], 0, nofun, List.nodup_nil⟩
  addNode env graph event :=
    if fails env then (.error (), graph) else (.ok graph.next, graph.add event)
  removeNode _ graph id :=
    if graph.nodes.any (·.id == id) then (.ok (), graph.remove id) else (.error (), graph)
  getNode graph id := graph.nodes.find? (·.id == id)
  nodes graph := graph.nodes

end Agentic

end RustFactory.Memory
