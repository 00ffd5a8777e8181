import LlmWikiServe.GraphNeighborhood

/-!
# The in-memory graph engine

A query runs over the nodes and edges it is given: edges are named by their positions, a search
keeps a queue of what is left to expand, and one builder makes the response.
-/

namespace LlmWikiServe

open Traversal

inductive GraphQueryOperation where
  | neighbors
  | backlinks
  | paths
  | bySourceRef
  | byTag
  deriving DecidableEq

def GraphQueryOperation.text : GraphQueryOperation → Text
  | .neighbors => "neighbors"
  | .backlinks => "backlinks"
  | .paths => "paths"
  | .bySourceRef => "by_source_ref"
  | .byTag => "by_tag"

structure GraphQueryRequest where
  operation : GraphQueryOperation := .neighbors
  startNodeId : Text := []
  targetNodeId : Text := []
  sourceRef : Text := []
  tag : Text := []
  direction : GraphDirection := .both
  relationAllowlist : List Text := []
  maxDepth : Nat := 1
  limit : Nat := 50

structure GraphQueryPath where
  nodeIds : List Text
  edges : List GraphEdge

structure GraphQueryResponse where
  operation : GraphQueryOperation
  nodes : List GraphNode
  edges : List GraphEdge
  paths : List GraphQueryPath

structure QueryGraph where
  nodes : List GraphNode
  edges : List GraphEdge
  nodesById : List (Text × GraphNode)
  allowedRelations : List Text

namespace QueryGraph

def of (nodes : List GraphNode) (edges : List GraphEdge) (relationAllowlist : List Text) :
    QueryGraph where
  nodes := nodes
  edges := edges
  nodesById := Keyed.update [] (nodes.map fun node => (node.id, node))
  allowedRelations := relationAllowlist

/-- `node_id in self.nodes_by_id` -/
def Known (graph : QueryGraph) (nodeId : Text) : Prop := nodeId ∈ graph.nodesById.map Prod.fst

instance (graph : QueryGraph) (nodeId : Text) : Decidable (graph.Known nodeId) :=
  inferInstanceAs (Decidable (nodeId ∈ _))

def requireNode (graph : QueryGraph) (nodeId : Text) : Except Text GraphNode :=
  match Keyed.get? graph.nodesById nodeId with
  | none => .error "graph query referenced an unknown node"
  | some node => .ok node

def iterEdges (graph : QueryGraph) (relationAllowlist : List Text) : List (GraphEdge × Nat) :=
  let allowed := if relationAllowlist = [] then graph.allowedRelations else relationAllowlist
  graph.edges.zipIdx.filter fun entry =>
    (allowed = [] ∨ entry.1.relation ∈ allowed) ∧
      graph.Known entry.1.source ∧ graph.Known entry.1.target

def adjacent (graph : QueryGraph) (direction : GraphDirection) (nodeId : Text) :
    List (Nat × Text) :=
  (graph.iterEdges []).flatMap fun entry =>
    (if direction.outward ∧ entry.1.source = nodeId ∧ graph.Known entry.1.target then
      [(entry.2, entry.1.target)] else []) ++
    (if direction.inward ∧ entry.1.target = nodeId ∧ graph.Known entry.1.source then
      [(entry.2, entry.1.source)] else [])

def matchMarkerIds (graph : QueryGraph) (value markerKind markerPrefix : Text) : List Text :=
  let candidates :=
    if Text.startsWith value markerPrefix then [value] else [value, markerPrefix ++ value]
  (graph.nodes.filter fun node =>
    node.kind = markerKind ∧ (node.id ∈ candidates ∨ node.label = value)).map GraphNode.id

def edgesAt (graph : QueryGraph) (indexes : List Nat) : List GraphEdge :=
  indexes.filterMap (graph.edges[·]?)

/-- The positions without repetitions, of edges between the nodes. -/
def closedEdges (graph : QueryGraph) (nodeIds : List Text) (edgeIndexes : List Nat) :
    List GraphEdge :=
  edgesBetween nodeIds (graph.edgesAt (Keyed.firstWins id edgeIndexes))

def response (graph : QueryGraph) (request : GraphQueryRequest) (nodeIds : List Text)
    (edgeIndexes : List Nat) (paths : List GraphQueryPath) : GraphQueryResponse where
  operation := request.operation
  nodes := nodeIds.filterMap (Keyed.get? graph.nodesById)
  edges := (graph.closedEdges nodeIds edgeIndexes).take request.limit
  paths := paths

/-- As many steps as a queue of paths of the depth can take. -/
def queueSteps (graph : QueryGraph) (maxDepth : Nat) : Nat :=
  (2 * graph.edges.length + 1) ^ (maxDepth + 1)

/-! ## Neighbors -/

/-- `len(selected_node_ids) >= request.limit` -/
def selectionFull (limit : Nat) (visit : Visit Text Nat) : Bool := limit ≤ visit.visited.length

/-- Select an edge and the node it leads to, which is queued unless the limit is reached. -/
def visitNeighbor (limit : Nat) (visit : Visit Text Nat) (joining : Nat × Text) : Visit Text Nat :=
  let edges := takeEdge id visit.edges joining.1
  if joining.2 ∈ visit.visited then { visit with edges }
  else
    let visited := visit.visited ++ [joining.2]
    { visited, edges
      next := if limit ≤ visited.length then visit.next else visit.next ++ [joining.2] }

def expandNeighbor (graph : QueryGraph) (direction : GraphDirection) (maxDepth limit : Nat)
    (visit : Visit Text Nat) (item : Text × Nat) : Visit Text Nat × List (Text × Nat) :=
  if maxDepth ≤ item.2 then (visit, [])
  else
    -- The limit is only reached by the node that was selected last.
    let after := foldUntil (selectionFull limit) (visitNeighbor limit)
      (graph.adjacent direction item.1) { visit with next := [] }
    (after, after.next.map fun nodeId => (nodeId, item.2 + 1))

def selectNeighbors (graph : QueryGraph) (direction : GraphDirection) (startNodeId : Text)
    (maxDepth limit : Nat) : Visit Text Nat :=
  drain (selectionFull limit) (graph.expandNeighbor direction maxDepth limit)
    (graph.queueSteps maxDepth) [(startNodeId, 0)] ⟨[startNodeId], [], []⟩

def neighbors (graph : QueryGraph) (request : GraphQueryRequest) (direction : GraphDirection) :
    Except Text GraphQueryResponse :=
  if request.startNodeId = [] then
    .error (request.operation.text ++ (" requires start_node_id" : Text))
  else do
    let _ ← graph.requireNode request.startNodeId
    let visit := graph.selectNeighbors direction request.startNodeId request.maxDepth request.limit
    return graph.response request visit.visited visit.edges []

/-! ## Paths -/

structure PartialPath where
  nodeId : Text
  nodeIds : List Text
  edgeIndexes : List Nat
  deriving DecidableEq

def PartialPath.extend (path : PartialPath) (joining : Nat × Text) : PartialPath where
  nodeId := joining.2
  nodeIds := path.nodeIds ++ [joining.2]
  edgeIndexes := path.edgeIndexes ++ [joining.1]

/-- The paths found, with the nodes and edges on them in the order they were met. -/
structure PathSearch where
  paths : List PartialPath := []
  nodeIds : List Text := []
  edgeIndexes : List Nat := []

def PathSearch.add (search : PathSearch) (path : PartialPath) : PathSearch where
  paths := search.paths ++ [path]
  nodeIds := path.nodeIds.foldl (takeEdge id) search.nodeIds
  edgeIndexes := path.edgeIndexes.foldl (takeEdge id) search.edgeIndexes

/-- Follow an edge from a path, which ends at the target or is queued. -/
def extendPath (targetNodeId : Text) (path : PartialPath) (state : PathSearch × List PartialPath)
    (joining : Nat × Text) : PathSearch × List PartialPath :=
  if joining.2 ∈ path.nodeIds then state
  else if joining.2 = targetNodeId then (state.1.add (path.extend joining), state.2)
  else (state.1, state.2 ++ [path.extend joining])

/-- `len(paths) >= request.limit` -/
def searchFull (limit : Nat) (search : PathSearch) : Bool := limit ≤ search.paths.length

def expandPath (graph : QueryGraph) (direction : GraphDirection) (targetNodeId : Text)
    (maxDepth limit : Nat) (search : PathSearch) (path : PartialPath) :
    PathSearch × List PartialPath :=
  if maxDepth ≤ path.edgeIndexes.length then (search, [])
  else
    -- The limit is only reached by the path that was found last.
    foldUntil (fun state => searchFull limit state.1) (extendPath targetNodeId path)
      (graph.adjacent direction path.nodeId) (search, [])

def searchPaths (graph : QueryGraph) (direction : GraphDirection) (startNodeId targetNodeId : Text)
    (maxDepth limit : Nat) : PathSearch :=
  drain (searchFull limit) (graph.expandPath direction targetNodeId maxDepth limit)
    (graph.queueSteps maxDepth) [⟨startNodeId, [startNodeId], []⟩] {}

def queryPath (graph : QueryGraph) (path : PartialPath) : GraphQueryPath where
  nodeIds := path.nodeIds
  edges := graph.edgesAt path.edgeIndexes

def paths (graph : QueryGraph) (request : GraphQueryRequest) : Except Text GraphQueryResponse :=
  if request.startNodeId = [] ∨ request.targetNodeId = [] then
    .error "paths requires start_node_id and target_node_id"
  else do
    let _ ← graph.requireNode request.startNodeId
    let _ ← graph.requireNode request.targetNodeId
    if request.startNodeId = request.targetNodeId then
      return graph.response request [request.startNodeId] [] [⟨[request.startNodeId], []⟩]
    else
      let search := graph.searchPaths request.direction request.startNodeId request.targetNodeId
        request.maxDepth request.limit
      return graph.response request search.nodeIds search.edgeIndexes
        (search.paths.map graph.queryPath)

/-! ## Markers -/

/-- The nodes and edges selected around markers, in order. -/
structure Selection where
  nodeIds : List Text := []
  edgeIndexes : List Nat := []

namespace Selection

def addNode (selection : Selection) (nodeId : Text) : Selection :=
  { selection with nodeIds := takeEdge id selection.nodeIds nodeId }

def full (limit : Nat) (selection : Selection) : Bool := limit ≤ selection.nodeIds.length

/-- Select an edge into a marker and its source. -/
def addEdge (selection : Selection) (entry : GraphEdge × Nat) : Selection :=
  { selection.addNode entry.1.source with
    edgeIndexes := selection.edgeIndexes ++ [entry.2] }

end Selection

def edgesInto (graph : QueryGraph) (relation nodeId : Text) : List (GraphEdge × Nat) :=
  (graph.iterEdges [relation]).filter fun entry => entry.1.target = nodeId

/-- Select a marker and what its edges come from.  The limit is tested after every edge, not after
the marker. -/
def selectMarker (graph : QueryGraph) (relation : Text) (limit : Nat) (selection : Selection)
    (markerId : Text) : Selection :=
  foldUntil (Selection.full limit) Selection.addEdge (graph.edgesInto relation markerId)
    (selection.addNode markerId)

def byMarkerNode (graph : QueryGraph) (request : GraphQueryRequest)
    (markerValue markerKind markerPrefix relation : Text) : Except Text GraphQueryResponse :=
  if markerValue = [] then
    .error (request.operation.text ++ (" requires " : Text) ++ markerKind)
  else
    let selection := foldUntil (Selection.full request.limit)
      (graph.selectMarker relation request.limit)
      (graph.matchMarkerIds markerValue markerKind markerPrefix) {}
    .ok (graph.response request selection.nodeIds selection.edgeIndexes [])

end QueryGraph

def graphQuery (nodes : List GraphNode) (edges : List GraphEdge) (request : GraphQueryRequest) :
    Except Text GraphQueryResponse :=
  let graph := QueryGraph.of nodes edges request.relationAllowlist
  match request.operation with
  | .neighbors => graph.neighbors request request.direction
  | .backlinks => graph.neighbors request .in_
  | .paths => graph.paths request
  | .bySourceRef =>
      graph.byMarkerNode request request.sourceRef "source_ref" "source:" "cites"
  | .byTag => graph.byMarkerNode request request.tag "tag" "tag:" "tagged"

/-! ## Edges and adjacent nodes -/

namespace QueryGraph

theorem known_of {nodes : List GraphNode} {edges : List GraphEdge} {relations : List Text}
    {nodeId : Text} : (of nodes edges relations).Known nodeId ↔ nodeId ∈ nodes.map GraphNode.id := by
  simp only [Known, of, Keyed.mem_map_fst_update, List.map_map]
  simp

theorem mem_iterEdges {graph : QueryGraph} {relations : List Text} {edge : GraphEdge}
    {index : Nat} :
    (edge, index) ∈ graph.iterEdges relations ↔
      graph.edges[index]? = some edge ∧
        edge.Allowed (if relations = [] then graph.allowedRelations else relations) ∧
        graph.Known edge.source ∧ graph.Known edge.target := by
  simp only [iterEdges, List.mem_filter, List.mem_zipIdx_iff_getElem?, decide_eq_true_eq]
  rfl

/-- The adjacent nodes of a node are those an allowed edge between known nodes leads to. -/
theorem mem_adjacent {graph : QueryGraph} {direction : GraphDirection} {first second : Text}
    {index : Nat} :
    (index, second) ∈ graph.adjacent direction first ↔
      ∃ edge, graph.edges[index]? = some edge ∧ edge.Allowed graph.allowedRelations ∧
        graph.Known edge.source ∧ graph.Known edge.target ∧
        direction.Follows edge first second := by
  simp only [adjacent, List.mem_flatMap, List.mem_append]
  constructor
  · rintro ⟨⟨edge, position⟩, among, outgoing | incoming⟩
    · obtain ⟨stored, allowed, source, target⟩ := mem_iterEdges.mp among
      split at outgoing
      next holds =>
        obtain ⟨rfl, rfl⟩ := Prod.mk.inj (List.mem_singleton.mp outgoing)
        exact ⟨edge, stored, allowed, source, target, .inl ⟨holds.1, holds.2.1, rfl⟩⟩
      · cases outgoing
    · obtain ⟨stored, allowed, source, target⟩ := mem_iterEdges.mp among
      split at incoming
      next holds =>
        obtain ⟨rfl, rfl⟩ := Prod.mk.inj (List.mem_singleton.mp incoming)
        exact ⟨edge, stored, allowed, source, target, .inr ⟨holds.1, holds.2.1, rfl⟩⟩
      · cases incoming
  · rintro ⟨edge, stored, allowed, source, target, ⟨side, rfl, rfl⟩ | ⟨side, rfl, rfl⟩⟩
    · exact ⟨(edge, index), mem_iterEdges.mpr ⟨stored, allowed, source, target⟩,
        .inl (by simp [side, target])⟩
    · exact ⟨(edge, index), mem_iterEdges.mpr ⟨stored, allowed, source, target⟩,
        .inr (by simp [side, source])⟩

theorem known_adjacent {graph : QueryGraph} {direction : GraphDirection} {first second : Text}
    {index : Nat} (among : (index, second) ∈ graph.adjacent direction first) :
    graph.Known second := by
  obtain ⟨edge, -, -, source, target, ⟨-, -, rfl⟩ | ⟨-, -, rfl⟩⟩ := mem_adjacent.mp among
  · exact target
  · exact source

/-- Every edge leads to at most two adjacent nodes. -/
theorem length_adjacent_le (graph : QueryGraph) (direction : GraphDirection) (nodeId : Text) :
    (graph.adjacent direction nodeId).length ≤ 2 * graph.edges.length := by
  have edges : (graph.iterEdges []).length ≤ graph.edges.length := by
    refine (List.length_filter_le _ _).trans ?_
    rw [List.length_zipIdx]
  have each : (graph.adjacent direction nodeId).length ≤ 2 * (graph.iterEdges []).length := by
    unfold adjacent
    induction graph.iterEdges [] with
    | nil => simp
    | cons entry rest inductionHypothesis =>
        have two : ∀ (first second : Prop) [Decidable first] [Decidable second]
            (left right : Nat × Text),
            ((if first then [left] else []) ++ (if second then [right] else [])).length ≤ 2 := by
          intro first second _ _ left right
          split <;> split <;> simp
        rw [List.flatMap_cons, List.length_append, List.length_cons]
        refine (Nat.add_le_add (two _ _ _ _) inductionHypothesis).trans ?_
        omega
  omega

/-! ## Responses -/

theorem map_id_response {nodes : List GraphNode} {edges : List GraphEdge} {relations : List Text}
    {request : GraphQueryRequest} {nodeIds : List Text} {edgeIndexes : List Nat}
    {paths : List GraphQueryPath}
    (known : ∀ nodeId ∈ nodeIds, (of nodes edges relations).Known nodeId) :
    ((of nodes edges relations).response request nodeIds edgeIndexes paths).nodes.map
      GraphNode.id = nodeIds :=
  @map_id_filterMap nodes edges nodeIds fun nodeId among => known_of.mp (known nodeId among)

theorem mem_edgesAt {graph : QueryGraph} {indexes : List Nat} {edge : GraphEdge} :
    edge ∈ graph.edgesAt indexes ↔ ∃ index ∈ indexes, graph.edges[index]? = some edge :=
  List.mem_filterMap

theorem foldl_takeEdge {Item : Type} [DecidableEq Item] (items taken : List Item) :
    items.foldl (takeEdge id) taken = taken ++ Keyed.firstWinsFrom id taken items := by
  have general : ∀ (items taken seen : List Item), (∀ item, item ∈ seen ↔ item ∈ taken) →
      items.foldl (takeEdge id) taken = taken ++ Keyed.firstWinsFrom id seen items := by
    intro items
    induction items with
    | nil => simp [Keyed.firstWinsFrom]
    | cons item rest inductionHypothesis =>
        intro taken seen same
        rw [List.foldl_cons, Keyed.firstWinsFrom]
        by_cases present : item ∈ taken
        · have kept : takeEdge id taken item = taken := by simp [takeEdge, present]
          rw [kept, if_pos (show id item ∈ seen from (same item).mpr present)]
          exact inductionHypothesis taken seen same
        · have grown : takeEdge id taken item = taken ++ [item] := by simp [takeEdge, present]
          rw [grown, if_neg (show id item ∉ seen from fun among => present ((same item).mp among)),
            inductionHypothesis (taken ++ [item]) (item :: seen), List.append_assoc]
          · rfl
          · intro other
            rw [List.mem_cons, List.mem_append, List.mem_singleton, same, or_comm]
  exact general items taken taken fun _ => Iff.rfl

theorem foldl_takeEdge_nil {Item : Type} [DecidableEq Item] (items : List Item) :
    items.foldl (takeEdge id) [] = Keyed.firstWins id items :=
  foldl_takeEdge items []

theorem foldl_takeEdge_distinct {Item : Type} [DecidableEq Item] (items taken : List Item)
    (distinct : (taken ++ items).Nodup) : items.foldl (takeEdge id) taken = taken ++ items := by
  induction items generalizing taken with
  | nil => simp
  | cons item rest inductionHypothesis =>
      have fresh : item ∉ taken := fun old =>
        (List.nodup_append.mp distinct).2.2 item old item List.mem_cons_self rfl
      have grown : takeEdge id taken item = taken ++ [item] := by simp [takeEdge, fresh]
      rw [List.foldl_cons, grown, inductionHypothesis _ (by simpa using distinct),
        List.append_assoc]
      rfl

theorem firstWins_distinct {Item : Type} [DecidableEq Item] {items : List Item}
    (distinct : items.Nodup) : Keyed.firstWins id items = items := by
  rw [← foldl_takeEdge_nil, foldl_takeEdge_distinct items [] (by simpa using distinct),
    List.nil_append]

end QueryGraph

end LlmWikiServe
