import LlmWikiServe.GraphEngine

/-!
# Queries for neighbors and markers

The search of the engine finds what the search of the graph view does, and a limit holds for all
queries but those that select a marker as the last node before it.
-/

namespace LlmWikiServe

open Traversal

/-- Few nodes, each of them once, and few edges between them. -/
structure GraphQueryResponse.Respects (response : GraphQueryResponse) (limit : Nat) : Prop where
  nodes : response.nodes.length ≤ limit
  edges : response.edges.length ≤ limit
  distinct : (response.nodes.map GraphNode.id).Nodup
  closed : ∀ edge ∈ response.edges, edge.source ∈ response.nodes.map GraphNode.id ∧
    edge.target ∈ response.nodes.map GraphNode.id

namespace QueryGraph

section Limits

variable {nodes : List GraphNode} {edges : List GraphEdge} {relations : List Text}

/-- A response of known nodes, each selected once, respects the limit its nodes respect. -/
theorem response_respects {request : GraphQueryRequest} {nodeIds : List Text}
    {edgeIndexes : List Nat} {paths : List GraphQueryPath} (distinct : nodeIds.Nodup)
    (known : ∀ nodeId ∈ nodeIds, (of nodes edges relations).Known nodeId) :
    ((of nodes edges relations).response request nodeIds edgeIndexes paths).Respects
      request.limit ↔ nodeIds.length ≤ request.limit := by
  have ids := @map_id_response nodes edges relations request nodeIds edgeIndexes paths known
  have count := congrArg List.length ids
  rw [List.length_map] at count
  constructor
  · intro respects
    exact count ▸ respects.nodes
  · intro short
    refine ⟨count ▸ short, List.length_take_le _ _, by rwa [ids], fun edge among => ?_⟩
    rw [ids]
    simpa using (List.mem_filter.mp (List.mem_of_mem_take among)).2

/-! ## Neighbors -/

structure Selecting (graph : QueryGraph) (limit : Nat) (visit : Visit Text Nat) : Prop where
  distinct : visit.visited.Nodup
  known : ∀ nodeId ∈ visit.visited, graph.Known nodeId
  short : visit.visited.length ≤ limit

theorem visitNeighbor_selecting {graph : QueryGraph} {limit : Nat} {visit : Visit Text Nat}
    (selecting : graph.Selecting limit visit) (running : selectionFull limit visit = false)
    {joining : Nat × Text} (known : graph.Known joining.2) :
    graph.Selecting limit (visitNeighbor limit visit joining) := by
  have room : visit.visited.length < limit := by simpa [selectionFull] using running
  unfold visitNeighbor
  by_cases old : joining.2 ∈ visit.visited
  · rw [if_pos old]
    exact ⟨selecting.distinct, selecting.known, selecting.short⟩
  · rw [if_neg old]
    refine ⟨?_, ?_, ?_⟩
    · exact List.nodup_append'.mpr
        ⟨selecting.distinct, List.nodup_singleton _, by simpa using old⟩
    · intro nodeId among
      rcases List.mem_append.mp among with earlier | new
      · exact selecting.known nodeId earlier
      · exact List.mem_singleton.mp new ▸ known
    · simpa using room

theorem expandNeighbor_selecting {graph : QueryGraph} {direction : GraphDirection}
    {maxDepth limit : Nat} {visit : Visit Text Nat} (item : Text × Nat)
    (selecting : graph.Selecting limit visit) (running : selectionFull limit visit = false) :
    graph.Selecting limit (graph.expandNeighbor direction maxDepth limit visit item).1 := by
  unfold expandNeighbor
  split
  · exact selecting
  · refine foldUntil_invariant (fun visit joining among selecting running => ?_)
      (⟨selecting.distinct, selecting.known, selecting.short⟩ :
        graph.Selecting limit { visit with next := [] }) running
    exact visitNeighbor_selecting selecting running (known_adjacent among)

theorem selectNeighbors_selecting {graph : QueryGraph} {direction : GraphDirection}
    {startNodeId : Text} {maxDepth limit : Nat} (positive : 1 ≤ limit)
    (known : graph.Known startNodeId) :
    graph.Selecting limit (graph.selectNeighbors direction startNodeId maxDepth limit) := by
  refine drain_invariant (fun visit item selecting running =>
    expandNeighbor_selecting item selecting running) _ _ ?_
  exact ⟨List.nodup_singleton _, by simpa using known, by simpa using positive⟩

theorem requireNode_eq {graph : QueryGraph} {nodeId : Text} (known : graph.Known nodeId) :
    ∃ node, graph.requireNode nodeId = .ok node := by
  obtain ⟨node, found⟩ := Option.isSome_iff_exists.mp (Keyed.get?_isSome_iff.mpr known)
  exact ⟨node, by rw [requireNode, found]⟩

theorem requireNode_error {graph : QueryGraph} {nodeId : Text} (unknown : ¬ graph.Known nodeId) :
    graph.requireNode nodeId = .error "graph query referenced an unknown node" := by
  rw [requireNode, Keyed.get?_eq_none_iff.mpr unknown]

theorem neighbors_eq {graph : QueryGraph} {request : GraphQueryRequest}
    {direction : GraphDirection} (named : request.startNodeId ≠ [])
    (known : graph.Known request.startNodeId) :
    graph.neighbors request direction =
      .ok (graph.response request
        (graph.selectNeighbors direction request.startNodeId request.maxDepth
          request.limit).visited
        (graph.selectNeighbors direction request.startNodeId request.maxDepth
          request.limit).edges []) := by
  obtain ⟨node, required⟩ := requireNode_eq known
  rw [neighbors, if_neg named, required]
  rfl

theorem neighbors_known {graph : QueryGraph} {request : GraphQueryRequest}
    {direction : GraphDirection} {response : GraphQueryResponse}
    (answered : graph.neighbors request direction = .ok response) :
    request.startNodeId ≠ [] ∧ graph.Known request.startNodeId := by
  by_cases named : request.startNodeId = []
  · rw [neighbors, if_pos named] at answered
    cases answered
  · by_cases known : graph.Known request.startNodeId
    · exact ⟨named, known⟩
    · rw [neighbors, if_neg named, requireNode_error known] at answered
      cases answered

theorem neighbors_respects {request : GraphQueryRequest} {direction : GraphDirection}
    {response : GraphQueryResponse} (positive : 1 ≤ request.limit)
    (answered : (of nodes edges relations).neighbors request direction = .ok response) :
    response.Respects request.limit := by
  obtain ⟨named, known⟩ := neighbors_known answered
  rw [neighbors_eq named known] at answered
  obtain rfl := Except.ok.inj answered
  have selecting := @selectNeighbors_selecting _ direction _ request.maxDepth _ positive known
  exact (response_respects selecting.distinct selecting.known).mpr selecting.short

/-! ## Markers -/

def markerSources (graph : QueryGraph) (relation nodeId : Text) : List Text :=
  (graph.edgesInto relation nodeId).map fun entry => entry.1.source

def nodesAround (graph : QueryGraph) (relation : Text) (markers : List Text) : List Text :=
  Keyed.firstWins id (markers.flatMap fun markerId =>
    markerId :: graph.markerSources relation markerId)

/-- A marker behind others is the node that reaches the limit, and the first edge into it comes
from another new node. -/
structure OverflowsAt (graph : QueryGraph) (relation : Text) (limit : Nat) (front : List Text)
    (markerId : Text) : Prop where
  reached : (graph.nodesAround relation front).length + 1 = limit
  new : markerId ∉ graph.nodesAround relation front
  source : ∃ source rest, graph.markerSources relation markerId = source :: rest ∧
    source ≠ markerId ∧ source ∉ graph.nodesAround relation front

def MarkerOverflow (graph : QueryGraph) (relation : Text) (limit : Nat) (markers : List Text) :
    Prop :=
  ∃ front markerId back, markers = front ++ markerId :: back ∧
    graph.OverflowsAt relation limit front markerId

/-- Select a marker and all its sources, without a limit. -/
def selectFully (graph : QueryGraph) (relation : Text) (selection : Selection) (markerId : Text) :
    Selection :=
  (graph.edgesInto relation markerId).foldl Selection.addEdge (selection.addNode markerId)

def Selection.Begins (first second : Selection) : Prop := first.nodeIds <+: second.nodeIds

theorem Selection.Begins.refl (selection : Selection) : selection.Begins selection :=
  List.prefix_rfl

theorem Selection.Begins.trans {first second third : Selection} (earlier : first.Begins second)
    (later : second.Begins third) : first.Begins third :=
  List.IsPrefix.trans earlier later

theorem Selection.addNode_begins (selection : Selection) (nodeId : Text) :
    selection.Begins (selection.addNode nodeId) :=
  takeEdge_isPrefix id selection.nodeIds nodeId

theorem Selection.addEdge_begins (selection : Selection) (entry : GraphEdge × Nat) :
    selection.Begins (selection.addEdge entry) :=
  selection.addNode_begins entry.1.source

theorem selectFully_begins (graph : QueryGraph) (relation : Text) (selection : Selection)
    (markerId : Text) : selection.Begins (graph.selectFully relation selection markerId) :=
  (selection.addNode_begins markerId).trans
    (foldl_behind Selection.Begins.refl Selection.Begins.trans Selection.addEdge_begins _ _)

theorem nodeIds_foldl_addEdge (entries : List (GraphEdge × Nat)) (selection : Selection) :
    (entries.foldl Selection.addEdge selection).nodeIds =
      (entries.map fun entry => entry.1.source).foldl (takeEdge id) selection.nodeIds := by
  induction entries generalizing selection with
  | nil => rfl
  | cons entry rest inductionHypothesis =>
      rw [List.foldl_cons, inductionHypothesis]
      rfl

theorem nodeIds_foldl_selectFully (graph : QueryGraph) (relation : Text) (markers : List Text) :
    (markers.foldl (graph.selectFully relation) {}).nodeIds =
      graph.nodesAround relation markers := by
  have general : ∀ (markers : List Text) (selection : Selection),
      (markers.foldl (graph.selectFully relation) selection).nodeIds =
        (markers.flatMap fun markerId =>
          markerId :: graph.markerSources relation markerId).foldl (takeEdge id)
            selection.nodeIds := by
    intro markers
    induction markers with
    | nil => exact fun _ => rfl
    | cons markerId rest inductionHypothesis =>
        intro selection
        rw [List.foldl_cons, inductionHypothesis, List.flatMap_cons, List.foldl_append,
          List.foldl_cons, selectFully, nodeIds_foldl_addEdge]
        rfl
  rw [general, nodesAround, ← foldl_takeEdge_nil]

theorem length_nodesAround_append (graph : QueryGraph) (relation : Text)
    (front back : List Text) :
    (graph.nodesAround relation front).length ≤
      (graph.nodesAround relation (front ++ back)).length := by
  rw [← nodeIds_foldl_selectFully, ← nodeIds_foldl_selectFully, List.foldl_append]
  exact (foldl_behind Selection.Begins.refl Selection.Begins.trans
    (graph.selectFully_begins relation) back _).length_le

theorem selectMarker_cut (graph : QueryGraph) (relation : Text) (limit : Nat)
    (selection : Selection) (markerId : Text) :
    Cut (Selection.full limit) Selection.Begins
      (graph.selectMarker relation limit selection markerId)
      (graph.selectFully relation selection markerId) :=
  foldUntil_cut Selection.Begins.refl Selection.Begins.trans Selection.addEdge_begins
    (fun _ _ => .inl rfl) _ _

theorem length_addNode_le (selection : Selection) (nodeId : Text) :
    (selection.addNode nodeId).nodeIds.length ≤ selection.nodeIds.length + 1 := by
  unfold Selection.addNode takeEdge
  dsimp only
  split
  · omega
  · simp

theorem length_selectMarker_le {graph : QueryGraph} {relation : Text} {limit : Nat}
    {selection : Selection} {markerId : Text}
    (below : (selection.addNode markerId).nodeIds.length < limit) :
    (graph.selectMarker relation limit selection markerId).nodeIds.length ≤ limit := by
  refine @foldUntil_invariant _ _ (Selection.full limit) Selection.addEdge
    (fun selection => selection.nodeIds.length ≤ limit) _ (fun selection entry _ _ running => ?_) _
    below.le (by simpa [Selection.full] using below)
  have room : selection.nodeIds.length < limit := by simpa [Selection.full] using running
  exact (length_addNode_le selection entry.1.source).trans room

/-- At the limit after the marker, the first edge into it decides. -/
theorem length_selectMarker_full {graph : QueryGraph} {relation : Text} {limit : Nat}
    {selection : Selection} {markerId : Text}
    (reached : (selection.addNode markerId).nodeIds.length = limit) :
    limit ≤ (graph.selectMarker relation limit selection markerId).nodeIds.length ∧
      ((graph.selectMarker relation limit selection markerId).nodeIds.length ≤ limit ↔
        ¬ ∃ source rest, graph.markerSources relation markerId = source :: rest ∧
          source ∉ (selection.addNode markerId).nodeIds) := by
  unfold selectMarker markerSources
  cases graph.edgesInto relation markerId with
  | nil => exact ⟨reached.ge, by simp [foldUntil, reached]⟩
  | cons entry rest =>
      have grown := (Selection.addEdge_begins (selection.addNode markerId) entry).length_le
      have stopped : Selection.full limit
          ((selection.addNode markerId).addEdge entry) = true := by
        simpa [Selection.full] using reached ▸ grown
      rw [foldUntil, if_pos stopped]
      refine ⟨reached ▸ grown, ?_⟩
      by_cases old : entry.1.source ∈ (selection.addNode markerId).nodeIds
      · have same : ((selection.addNode markerId).addEdge entry).nodeIds =
            (selection.addNode markerId).nodeIds := by
          simp [Selection.addEdge, Selection.addNode, takeEdge] at old ⊢
          exact old
        rw [same, reached]
        simp only [le_refl, true_iff, List.map_cons, List.cons.injEq, not_exists, not_and, not_not]
        rintro source _ ⟨rfl, -⟩
        exact old
      · have longer : ((selection.addNode markerId).addEdge entry).nodeIds.length = limit + 1 := by
          rw [← reached]
          simp [Selection.addEdge, Selection.addNode, takeEdge] at old ⊢
          simp [old]
        rw [longer]
        constructor
        · intro impossible
          omega
        · exact fun none_ => absurd ⟨_, _, rfl, old⟩ none_

theorem nodeIds_selectFully (graph : QueryGraph) (relation : Text) (selection : Selection)
    (markerId : Text) :
    (graph.selectFully relation selection markerId).nodeIds =
      (markerId :: graph.markerSources relation markerId).foldl (takeEdge id)
        selection.nodeIds := by
  rw [selectFully, nodeIds_foldl_addEdge]
  rfl

theorem nodesAround_concat (graph : QueryGraph) (relation : Text) (front : List Text)
    (markerId : Text) :
    graph.nodesAround relation (front ++ [markerId]) =
      (markerId :: graph.markerSources relation markerId).foldl (takeEdge id)
        (graph.nodesAround relation front) := by
  simp only [nodesAround, ← foldl_takeEdge_nil, List.flatMap_append, List.foldl_append,
    List.flatMap_singleton]

theorem length_addNode (selection : Selection) (nodeId : Text) :
    (selection.addNode nodeId).nodeIds.length =
      selection.nodeIds.length + if nodeId ∈ selection.nodeIds then 0 else 1 := by
  unfold Selection.addNode takeEdge
  dsimp only
  rw [List.map_id]
  by_cases old : nodeId ∈ selection.nodeIds <;> simp [old]

theorem mem_addNode {selection : Selection} {nodeId other : Text} :
    other ∈ (selection.addNode nodeId).nodeIds ↔ other ∈ selection.nodeIds ∨ other = nodeId := by
  have taken := mem_map_takeEdge id selection.nodeIds nodeId other
  rw [List.map_id, List.map_id] at taken
  exact taken

/-- The nodes selected around markers stay within the limit unless one of the markers overflows
it. -/
theorem length_selectMarkers_iff (graph : QueryGraph) (relation : Text) {limit : Nat}
    (positive : 1 ≤ limit) (markers : List Text) :
    (foldUntil (Selection.full limit) (graph.selectMarker relation limit) markers
        {}).nodeIds.length ≤ limit ↔ ¬ graph.MarkerOverflow relation limit markers := by
  have general : ∀ (markers front : List Text) (selection : Selection),
      selection.nodeIds = graph.nodesAround relation front →
      selection.nodeIds.length < limit →
      ((foldUntil (Selection.full limit) (graph.selectMarker relation limit) markers
          selection).nodeIds.length ≤ limit ↔
        ¬ ∃ middle markerId back, markers = middle ++ markerId :: back ∧
          graph.OverflowsAt relation limit (front ++ middle) markerId) := by
    intro markers
    induction markers with
    | nil =>
        intro front selection _ below
        simp [foldUntil, below.le]
    | cons markerId rest inductionHypothesis =>
        intro front selection same below
        have splits : (∃ middle other back, markerId :: rest = middle ++ other :: back ∧
            graph.OverflowsAt relation limit (front ++ middle) other) ↔
            graph.OverflowsAt relation limit front markerId ∨
              ∃ middle other back, rest = middle ++ other :: back ∧
                graph.OverflowsAt relation limit ((front ++ [markerId]) ++ middle) other := by
          constructor
          · rintro ⟨middle, other, back, shape, overflows⟩
            cases middle with
            | nil =>
                obtain ⟨rfl, -⟩ := List.cons.inj shape
                exact .inl (by simpa using overflows)
            | cons head middle =>
                obtain ⟨rfl, later⟩ := List.cons.inj shape
                exact .inr ⟨middle, other, back, later, by simpa using overflows⟩
          · rintro (here | ⟨middle, other, back, rfl, overflows⟩)
            · exact ⟨[], markerId, rest, rfl, by simpa using here⟩
            · exact ⟨markerId :: middle, other, back, rfl, by simpa using overflows⟩
        have fully : (graph.selectFully relation selection markerId).nodeIds =
            graph.nodesAround relation (front ++ [markerId]) := by
          rw [nodeIds_selectFully, nodesAround_concat, same]
        have cut := graph.selectMarker_cut relation limit selection markerId
        have within : (graph.selectMarker relation limit selection markerId).nodeIds.length ≤
            (graph.nodesAround relation (front ++ [markerId])).length := by
          rw [← fully]
          rcases cut with equal | ⟨-, begins⟩
          · rw [equal]
          · exact begins.length_le
        -- Once the limit is reached no later marker is the one that reaches it.
        have none_ : limit ≤ (graph.selectMarker relation limit selection markerId).nodeIds.length →
            ¬ ∃ middle other back, rest = middle ++ other :: back ∧
              graph.OverflowsAt relation limit ((front ++ [markerId]) ++ middle) other := by
          rintro reached ⟨middle, other, back, -, overflows⟩
          have longer := graph.length_nodesAround_append relation (front ++ [markerId]) middle
          have exact_ := overflows.reached
          omega
        have grown := length_addNode selection markerId
        rw [splits, foldUntil]
        by_cases reached : (selection.addNode markerId).nodeIds.length = limit
        · have new : markerId ∉ selection.nodeIds := by
            intro old
            rw [if_pos old] at grown
            omega
          rw [if_neg new] at grown
          obtain ⟨atLeast, decided⟩ := @length_selectMarker_full graph relation limit selection
            markerId reached
          rw [if_pos (by simpa [Selection.full] using atLeast), decided, not_or]
          have here : graph.OverflowsAt relation limit front markerId ↔
              ∃ source rest, graph.markerSources relation markerId = source :: rest ∧
                source ∉ (selection.addNode markerId).nodeIds := by
            constructor
            · rintro ⟨-, -, source, rest, shape, differs, unseen⟩
              refine ⟨source, rest, shape, fun among => ?_⟩
              rcases mem_addNode.mp among with old | own
              · exact unseen (same ▸ old)
              · exact differs own
            · rintro ⟨source, rest, shape, unseen⟩
              refine ⟨by rw [← same]; omega, same ▸ new, source, rest, shape, ?_, ?_⟩
              · exact fun own => unseen (mem_addNode.mpr (.inr own))
              · exact fun old => unseen (mem_addNode.mpr (.inl (same ▸ old)))
          rw [here]
          exact ⟨fun kept => ⟨kept, none_ atLeast⟩, fun both => both.1⟩
        · have short : (selection.addNode markerId).nodeIds.length < limit := by
            split at grown <;> omega
          have fits := @length_selectMarker_le graph relation limit selection markerId short
          have notHere : ¬ graph.OverflowsAt relation limit front markerId := by
            rintro ⟨exact_, new, -⟩
            rw [← same] at exact_ new
            rw [if_neg new] at grown
            omega
          by_cases stopped : Selection.full limit
              (graph.selectMarker relation limit selection markerId) = true
          · rw [if_pos stopped]
            have later := none_ (of_decide_eq_true stopped)
            exact ⟨fun _ either => either.elim notHere later, fun _ => fits⟩
          · rw [if_neg stopped]
            have equal : graph.selectMarker relation limit selection markerId =
                graph.selectFully relation selection markerId :=
              cut.resolve_right fun halted => stopped halted.1
            have room : (graph.selectMarker relation limit selection
                markerId).nodeIds.length < limit := by
              simpa [Selection.full] using stopped
            rw [inductionHypothesis (front ++ [markerId]) _ (by rw [equal, fully]) room]
            exact not_congr ⟨.inr, fun either => either.resolve_left notHere⟩
  simpa [MarkerOverflow] using general markers [] {} rfl positive

theorem selectMarkers_known {markers : List Text} (relation : Text) (limit : Nat)
    (known : ∀ markerId ∈ markers, (of nodes edges relations).Known markerId) :
    (foldUntil (Selection.full limit) ((of nodes edges relations).selectMarker relation limit)
        markers {}).nodeIds.Nodup ∧
      ∀ nodeId ∈ (foldUntil (Selection.full limit)
          ((of nodes edges relations).selectMarker relation limit) markers {}).nodeIds,
        (of nodes edges relations).Known nodeId := by
  let graph := of nodes edges relations
  have around : ∀ nodeId ∈ graph.nodesAround relation markers, graph.Known nodeId := by
    intro nodeId among
    have listed := Keyed.mem_of_mem_firstWins among
    obtain ⟨markerId, markerIn, own | source⟩ := by
      simpa only [List.mem_flatMap, List.mem_cons] using listed
    · exact own ▸ known markerId markerIn
    · obtain ⟨entry, entryIn, rfl⟩ := List.mem_map.mp source
      exact (mem_iterEdges.mp (List.mem_of_mem_filter entryIn)).2.2.1
  have begins : (foldUntil (Selection.full limit) (graph.selectMarker relation limit) markers
      {}).nodeIds <+: graph.nodesAround relation markers := by
    have cut := foldUntil_cut Selection.Begins.refl Selection.Begins.trans
      (graph.selectFully_begins relation) (graph.selectMarker_cut relation limit) markers {}
    rw [← nodeIds_foldl_selectFully]
    rcases cut with equal | ⟨-, begins⟩
    · rw [equal]
    · exact begins
  constructor
  · have distinct := Keyed.nodup_map_firstWins id (markers.flatMap fun markerId =>
      markerId :: graph.markerSources relation markerId)
    rw [List.map_id] at distinct
    exact distinct.sublist begins.sublist
  · exact fun nodeId among => around nodeId (begins.subset among)

theorem matchMarkerIds_known {value markerKind markerPrefix markerId : Text}
    (among : markerId ∈ (of nodes edges relations).matchMarkerIds value markerKind markerPrefix) :
    (of nodes edges relations).Known markerId := by
  obtain ⟨node, nodeIn, rfl⟩ := List.mem_map.mp among
  exact known_of.mpr (List.mem_map_of_mem (List.mem_of_mem_filter nodeIn))

theorem byMarkerNode_respects {request : GraphQueryRequest} (positive : 1 ≤ request.limit)
    {markerValue markerKind markerPrefix relation : Text} {response : GraphQueryResponse}
    (answered : (of nodes edges relations).byMarkerNode request markerValue markerKind
      markerPrefix relation = .ok response) :
    response.Respects request.limit ↔
      ¬ (of nodes edges relations).MarkerOverflow relation request.limit
        ((of nodes edges relations).matchMarkerIds markerValue markerKind markerPrefix) := by
  unfold byMarkerNode at answered
  split at answered
  · cases answered
  · obtain rfl := Except.ok.inj answered
    obtain ⟨distinct, known⟩ := @selectMarkers_known nodes edges relations
      ((of nodes edges relations).matchMarkerIds markerValue markerKind markerPrefix) relation
      request.limit fun _ among => matchMarkerIds_known among
    rw [response_respects distinct known]
    exact length_selectMarkers_iff _ relation positive _

end Limits

/-- The query selects around markers and one of them overflows the limit. -/
def Overflows (nodes : List GraphNode) (edges : List GraphEdge) (request : GraphQueryRequest) :
    Prop :=
  let graph := of nodes edges request.relationAllowlist
  (request.operation = .bySourceRef ∧
    graph.MarkerOverflow "cites" request.limit
      (graph.matchMarkerIds request.sourceRef "source_ref" "source:")) ∨
  (request.operation = .byTag ∧
    graph.MarkerOverflow "tagged" request.limit
      (graph.matchMarkerIds request.tag "tag" "tag:"))

/-- An answered query other than for paths respects its limit unless a marker overflows it. -/
theorem graphQuery_respects (nodes : List GraphNode) (edges : List GraphEdge)
    (request : GraphQueryRequest) (limited : request.operation ≠ .paths)
    (positive : 1 ≤ request.limit) (response : GraphQueryResponse)
    (answered : graphQuery nodes edges request = .ok response) :
    response.Respects request.limit ↔ ¬ Overflows nodes edges request := by
  unfold graphQuery at answered
  unfold Overflows
  dsimp only at answered ⊢
  cases operation : request.operation with
  | neighbors =>
      rw [operation] at answered
      simp [neighbors_respects positive answered]
  | backlinks =>
      rw [operation] at answered
      simp [neighbors_respects positive answered]
  | paths => exact absurd operation limited
  | bySourceRef =>
      rw [operation] at answered
      simp [byMarkerNode_respects positive answered]
  | byTag =>
      rw [operation] at answered
      simp [byMarkerNode_respects positive answered]

def taggedNodes : List GraphNode :=
  [⟨"page:a", "A", "topic", "a.md", []⟩, ⟨"tag:x", "x", "tag", "a.md", []⟩]

def taggedEdges : List GraphEdge := [⟨"page:a", "tag:x", "tagged", []⟩]

theorem graphQuery_respects_tagged :
    graphQuery taggedNodes taggedEdges { operation := .byTag, tag := "x", limit := 2 } =
        .ok ⟨.byTag, taggedNodes.reverse, taggedEdges, []⟩ ∧
      ¬ Overflows taggedNodes taggedEdges { operation := .byTag, tag := "x", limit := 2 } :=
  ⟨rfl, (graphQuery_respects taggedNodes taggedEdges
    { operation := .byTag, tag := "x", limit := 2 } (by decide) (by decide)
    ⟨.byTag, taggedNodes.reverse, taggedEdges, []⟩ rfl).mp
      ⟨by decide, by decide, by decide, by decide⟩⟩

/-- The marker is the first node and the tagged page the second one, under a limit of one. -/
theorem graphQuery_tagged_exceeds :
    ¬ ∀ (nodes : List GraphNode) (edges : List GraphEdge) (request : GraphQueryRequest)
        (response : GraphQueryResponse), request.operation ≠ .paths → 1 ≤ request.limit →
        graphQuery nodes edges request = .ok response → response.Respects request.limit := by
  intro claimed
  have respects := claimed taggedNodes taggedEdges { operation := .byTag, tag := "x", limit := 1 }
    ⟨.byTag, taggedNodes.reverse, taggedEdges, []⟩ (by decide) (by decide) rfl
  exact absurd respects.nodes (by decide)

/-! ## The queue and the levels -/

/-- Expand a node along all edges. -/
def expandFully (graph : QueryGraph) (direction : GraphDirection) (maxDepth : Nat)
    (visit : Visit Text Nat) (item : Text × Nat) : Visit Text Nat × List (Text × Nat) :=
  if maxDepth ≤ item.2 then (visit, [])
  else
    let after := (graph.adjacent direction item.1).foldl (visitEdge id) { visit with next := [] }
    (after, after.next.map fun nodeId => (nodeId, item.2 + 1))

section Queue

variable {graph : QueryGraph} {direction : GraphDirection} {maxDepth : Nat}

theorem visitNeighbor_cut (limit : Nat) (visit : Visit Text Nat) (joining : Nat × Text) :
    Cut (selectionFull limit) Begins (visitNeighbor limit visit joining)
      (visitEdge id visit joining) := by
  unfold visitNeighbor visitEdge
  by_cases old : joining.2 ∈ visit.visited
  · rw [if_pos old, if_pos old]
    exact .inl rfl
  · rw [if_neg old, if_neg old]
    by_cases reached : limit ≤ (visit.visited ++ [joining.2]).length
    · exact .inr ⟨by simpa [selectionFull] using reached, List.prefix_rfl, List.prefix_rfl⟩
    · dsimp only
      rw [if_neg reached]
      exact .inl rfl

theorem expandFully_begins (visit : Visit Text Nat) (item : Text × Nat) :
    Begins visit (graph.expandFully direction maxDepth visit item).1 := by
  unfold expandFully
  split
  · exact Begins.refl visit
  · have grown := foldl_behind Begins.refl Begins.trans (visitEdge_begins id)
      (graph.adjacent direction item.1) { visit with next := [] }
    exact ⟨grown.1, grown.2⟩

theorem expandNeighbor_agree (limit : Nat) (visit : Visit Text Nat) (item : Text × Nat) :
    graph.expandNeighbor direction maxDepth limit visit item =
        graph.expandFully direction maxDepth visit item ∨
      selectionFull limit (graph.expandNeighbor direction maxDepth limit visit item).1 = true ∧
        Begins (graph.expandNeighbor direction maxDepth limit visit item).1
          (graph.expandFully direction maxDepth visit item).1 := by
  unfold expandNeighbor expandFully
  split
  · exact .inl rfl
  · rcases foldUntil_cut Begins.refl Begins.trans (visitEdge_begins id) (visitNeighbor_cut limit)
      (graph.adjacent direction item.1) { visit with next := [] } with same | halted
    · dsimp only
      rw [same]
      exact .inl rfl
    · exact .inr halted

theorem foldl_visitEdge_next (joinings : List (Nat × Text)) (visit : Visit Text Nat)
    (queued : List Text) :
    joinings.foldl (visitEdge id) { visit with next := queued } =
      { joinings.foldl (visitEdge id) { visit with next := [] } with
        next := queued ++ (joinings.foldl (visitEdge id) { visit with next := [] }).next } := by
  induction joinings generalizing visit queued with
  | nil => simp
  | cons joining rest inductionHypothesis =>
      rw [List.foldl_cons, List.foldl_cons]
      by_cases old : joining.2 ∈ visit.visited
      · have stays : ∀ next : List Text,
            visitEdge id { visit with next := next } joining =
              { visited := visit.visited, edges := takeEdge id visit.edges joining.1,
                next := next } := by
          intro next
          rw [visitEdge, if_pos old]
        rw [stays, stays]
        exact inductionHypothesis ⟨visit.visited, takeEdge id visit.edges joining.1, []⟩ queued
      · have grows : ∀ next : List Text,
            visitEdge id { visit with next := next } joining =
              { visited := visit.visited ++ [joining.2],
                edges := takeEdge id visit.edges joining.1, next := next ++ [joining.2] } := by
          intro next
          rw [visitEdge, if_neg old]
        rw [grows, grows]
        have first := inductionHypothesis
          ⟨visit.visited ++ [joining.2], takeEdge id visit.edges joining.1, []⟩
          (queued ++ [joining.2])
        have second := inductionHypothesis
          ⟨visit.visited ++ [joining.2], takeEdge id visit.edges joining.1, []⟩
          ([] ++ [joining.2])
        dsimp only at first second
        rw [first, second]
        simp

theorem level_expandFully {depth : Nat} (below : depth < maxDepth) (nodeIds : List Text)
    (visit : Visit Text Nat) :
    let explored := exploreLevel (graph.adjacent direction) id { visit with next := nodeIds }
    let after := level (graph.expandFully direction maxDepth)
      (nodeIds.map fun nodeId => (nodeId, depth)) visit
    after.1.visited = explored.visited ∧ after.1.edges = explored.edges ∧
      after.2 = explored.next.map fun nodeId => (nodeId, depth + 1) := by
  induction nodeIds generalizing visit with
  | nil => exact ⟨rfl, rfl, rfl⟩
  | cons nodeId rest inductionHypothesis =>
      let first := (graph.adjacent direction nodeId).foldl (visitEdge id) { visit with next := [] }
      have expands : graph.expandFully direction maxDepth visit (nodeId, depth) =
          (first, first.next.map fun nodeId => (nodeId, depth + 1)) := by
        rw [expandFully, if_neg (not_le.mpr below)]
      obtain ⟨visited, edges, queued⟩ := inductionHypothesis first
      have later := foldl_visitEdge_next (rest.flatMap (graph.adjacent direction))
        ⟨first.visited, first.edges, []⟩ first.next
      have whole : exploreLevel (graph.adjacent direction) id
          { visit with next := nodeId :: rest } =
            { exploreLevel (graph.adjacent direction) id { first with next := rest } with
              next := first.next ++
                (exploreLevel (graph.adjacent direction) id { first with next := rest }).next } := by
        unfold exploreLevel
        rw [List.flatMap_cons, List.foldl_append]
        exact later
      dsimp only
      rw [whole, List.map_cons, level, expands]
      dsimp only
      refine ⟨visited, edges, ?_⟩
      rw [queued, List.map_append]

theorem level_expandFully_done {depth : Nat} (reached : maxDepth ≤ depth) (nodeIds : List Text)
    (visit : Visit Text Nat) :
    level (graph.expandFully direction maxDepth) (nodeIds.map fun nodeId => (nodeId, depth))
      visit = (visit, []) := by
  induction nodeIds with
  | nil => rfl
  | cons nodeId rest inductionHypothesis =>
      have stays : graph.expandFully direction maxDepth visit (nodeId, depth) = (visit, []) := by
        rw [expandFully, if_pos reached]
      rw [List.map_cons, level, stays, inductionHypothesis]
      rfl

theorem rounds_expandFully (count : Nat) :
    ∀ (depth : Nat), depth + count = maxDepth → ∀ (nodeIds : List Text) (visit : Visit Text Nat),
      let explored := (exploreLevel (graph.adjacent direction) id)^[count]
        { visit with next := nodeIds }
      let after := rounds (graph.expandFully direction maxDepth) (count + 1)
        (nodeIds.map fun nodeId => (nodeId, depth)) visit
      after.2 = [] ∧ after.1.visited = explored.visited ∧ after.1.edges = explored.edges := by
  induction count with
  | zero =>
      intro depth total nodeIds visit
      have done := @level_expandFully_done graph direction maxDepth depth (by omega) nodeIds visit
      dsimp only
      rw [rounds, done, rounds]
      exact ⟨rfl, rfl, rfl⟩
  | succ count inductionHypothesis =>
      intro depth total nodeIds visit
      obtain ⟨visited, edges, queued⟩ := @level_expandFully graph direction maxDepth depth (by omega)
        nodeIds visit
      let explored := exploreLevel (graph.adjacent direction) id { visit with next := nodeIds }
      let after := level (graph.expandFully direction maxDepth)
        (nodeIds.map fun nodeId => (nodeId, depth)) visit
      have next := inductionHypothesis (depth + 1) (by omega) explored.next after.1
      have same : (⟨after.1.visited, after.1.edges, explored.next⟩ : Visit Text Nat) =
          explored := by
        rw [show after.1.visited = explored.visited from visited,
          show after.1.edges = explored.edges from edges]
      rw [same] at next
      dsimp only
      rw [rounds, queued, Function.iterate_succ_apply]
      exact next

theorem length_next_foldl_visitEdge_le (joinings : List (Nat × Text)) (visit : Visit Text Nat) :
    (joinings.foldl (visitEdge id) visit).next.length ≤ visit.next.length + joinings.length := by
  induction joinings generalizing visit with
  | nil => simp
  | cons joining rest inductionHypothesis =>
      have one : (visitEdge id visit joining).next.length ≤ visit.next.length + 1 := by
        unfold visitEdge
        split <;> simp
      have others := inductionHypothesis (visitEdge id visit joining)
      rw [List.foldl_cons, List.length_cons]
      omega

theorem length_expandFully_le (visit : Visit Text Nat) (item : Text × Nat) :
    (graph.expandFully direction maxDepth visit item).2.length ≤ 2 * graph.edges.length := by
  unfold expandFully
  split
  · simp
  · have few := length_next_foldl_visitEdge_le (graph.adjacent direction item.1)
      { visit with next := [] }
    have narrow := graph.length_adjacent_le direction item.1
    rw [List.length_map]
    exact few.trans (by simpa using narrow)

/-- What the search for neighbors selects when its limit is not reached. -/
def exploredNeighbors (graph : QueryGraph) (direction : GraphDirection) (startNodeId : Text)
    (maxDepth : Nat) : Visit Text Nat :=
  (exploreLevel (graph.adjacent direction) id)^[maxDepth] ⟨[startNodeId], [], [startNodeId]⟩

theorem exploredNeighbors_explored (startNodeId : Text) :
    Explored (graph.adjacent direction) id [startNodeId] maxDepth
      (graph.exploredNeighbors direction startNodeId maxDepth) := by
  have start : Explored (graph.adjacent direction) id [startNodeId] 0
      (⟨[startNodeId], [], [startNodeId]⟩ : Visit Text Nat) :=
    Explored.start id (List.nodup_singleton startNodeId) fun _ => Iff.rfl
  have run := start.levels maxDepth
  rw [Nat.zero_add] at run
  exact run

/-- Below the limit the search for neighbors is the exploration. -/
theorem selectNeighbors_complete {startNodeId : Text} {limit : Nat}
    (few : (graph.exploredNeighbors direction startNodeId maxDepth).visited.length < limit) :
    (graph.selectNeighbors direction startNodeId maxDepth limit).visited =
        (graph.exploredNeighbors direction startNodeId maxDepth).visited ∧
      (graph.selectNeighbors direction startNodeId maxDepth limit).edges =
        (graph.exploredNeighbors direction startNodeId maxDepth).edges := by
  obtain ⟨done, visited, edges⟩ := @rounds_expandFully graph direction maxDepth maxDepth 0
    (Nat.zero_add maxDepth) [startNodeId] ⟨[startNodeId], [], []⟩
  have full : drain (fun _ => false) (graph.expandFully direction maxDepth)
      (graph.queueSteps maxDepth) [(startNodeId, 0)] ⟨[startNodeId], [], []⟩ =
        (rounds (graph.expandFully direction maxDepth) (maxDepth + 1) [(startNodeId, 0)]
          ⟨[startNodeId], [], []⟩).1 :=
    drain_rounds _ length_expandFully_le (maxDepth + 1) done (by simp [queueSteps])
  have cut := drain_cut Begins.refl Begins.trans
    (@expandFully_begins graph direction maxDepth)
    (@expandNeighbor_agree graph direction maxDepth limit) (graph.queueSteps maxDepth)
    [(startNodeId, 0)] ⟨[startNodeId], [], []⟩
  rcases cut with same | ⟨stopped, begins⟩
  · rw [selectNeighbors, same]
    exact full ▸ ⟨visited, edges⟩
  · have long : limit ≤ _ := of_decide_eq_true stopped
    have shorter := begins.1.length_le
    rw [full] at shorter
    change _ ≤ (rounds (graph.expandFully direction maxDepth) (maxDepth + 1)
      ([startNodeId].map fun nodeId => (nodeId, 0)) ⟨[startNodeId], [], []⟩).1.visited.length
      at shorter
    rw [visited] at shorter
    exact absurd (long.trans shorter) (not_le.mpr few)

end Queue

section Agreement

variable {nodes : List GraphNode} {edges : List GraphEdge} {relations : List Text}
  {direction : GraphDirection}

theorem mem_build_edges {edge : GraphEdge} :
    edge ∈ (GraphView.build nodes edges).edges ↔
      edge ∈ edges ∧ (of nodes edges relations).Known edge.source ∧
        (of nodes edges relations).Known edge.target := by
  simp only [GraphView.build, edgesBetween, List.mem_filter, decide_eq_true_eq, known_of]

theorem joined_adjacent :
    Joined ((of nodes edges relations).adjacent direction) =
      (GraphView.build nodes edges).Step direction relations := by
  funext first second
  apply propext
  constructor
  · rintro ⟨index, leads⟩
    obtain ⟨edge, stored, allowed, source, target, follows⟩ := mem_adjacent.mp leads
    exact ⟨edge, mem_build_edges.mpr ⟨List.mem_of_getElem? stored, source, target⟩, allowed,
      follows⟩
  · rintro ⟨edge, among, allowed, follows⟩
    obtain ⟨listed, source, target⟩ := (@mem_build_edges nodes edges relations edge).mp among
    obtain ⟨index, stored⟩ := List.mem_iff_getElem?.mp listed
    exact ⟨index, mem_adjacent.mpr ⟨edge, stored, allowed, source, target, follows⟩⟩

theorem exploredNeighbors_reached {startNodeId : Text} (known : startNodeId ∈ nodes.map GraphNode.id)
    {maxDepth : Nat} {nodeId : Text} :
    nodeId ∈ ((of nodes edges relations).exploredNeighbors direction startNodeId
        maxDepth).visited ↔
      (GraphView.build nodes edges).Reached direction relations [startNodeId] maxDepth nodeId := by
  have frontier : (GraphView.build nodes edges).frontier [startNodeId] = [startNodeId] := by
    rw [GraphView.frontier, List.filter_cons, if_pos (by simpa using mem_nodesById_build.mpr known)]
    rfl
  rw [(exploredNeighbors_explored startNodeId).nodes, joined_adjacent, ← within_frontier, frontier]

/-- The positions the exploration selects are those of the edges that leave a node short of the
depth. -/
theorem exploredNeighbors_leaving {startNodeId : Text} (known : startNodeId ∈ nodes.map GraphNode.id)
    {maxDepth : Nat} {edge : GraphEdge} :
    edge ∈ (of nodes edges relations).edgesAt
        ((of nodes edges relations).exploredNeighbors direction startNodeId maxDepth).edges ↔
      (GraphView.build nodes edges).Leaving direction relations [startNodeId] maxDepth edge := by
  have explored := @exploredNeighbors_explored (of nodes edges relations) direction maxDepth
    startNodeId
  have near : ∀ {bound : Nat} {nodeId : Text},
      Within (Joined ((of nodes edges relations).adjacent direction)) [startNodeId] bound nodeId ↔
        (GraphView.build nodes edges).Reached direction relations [startNodeId] bound nodeId := by
    intro bound nodeId
    rw [← exploredNeighbors_reached known, (exploredNeighbors_explored startNodeId).nodes]
  rw [mem_edgesAt]
  constructor
  · rintro ⟨index, among, stored⟩
    obtain ⟨smaller, below, first, second, reached, leads⟩ := explored.taken index among
    obtain ⟨other, otherStored, allowed, source, target, follows⟩ := mem_adjacent.mp leads
    obtain rfl := Option.some.inj (stored.symm.trans otherStored)
    exact ⟨mem_build_edges.mpr ⟨List.mem_of_getElem? stored, source, target⟩, allowed, smaller,
      below, first, second, near.mp reached, follows⟩
  · rintro ⟨among, allowed, smaller, below, first, second, reached, follows⟩
    obtain ⟨listed, source, target⟩ := (@mem_build_edges nodes edges relations edge).mp among
    obtain ⟨index, stored⟩ := List.mem_iff_getElem?.mp listed
    have taken := explored.complete smaller below first second index (near.mpr reached)
      (mem_adjacent.mpr ⟨edge, stored, allowed, source, target, follows⟩)
    rw [List.map_id] at taken
    exact ⟨index, taken, stored⟩

/-- The exploration selects no more edges than there are. -/
theorem length_exploredNeighbors_edges_le (graph : QueryGraph) (startNodeId : Text)
    (maxDepth : Nat) :
    (graph.exploredNeighbors direction startNodeId maxDepth).edges.length ≤ graph.edges.length := by
  have explored := @exploredNeighbors_explored graph direction maxDepth startNodeId
  have distinct := explored.distinctEdges
  rw [List.map_id] at distinct
  have positions : (graph.exploredNeighbors direction startNodeId maxDepth).edges ⊆
      List.range graph.edges.length := by
    intro index among
    obtain ⟨-, -, first, second, -, leads⟩ := explored.taken index among
    obtain ⟨edge, stored, -⟩ := mem_adjacent.mp leads
    exact List.mem_range.mpr (List.getElem?_eq_some_iff.mp stored).1
  simpa using (List.subperm_of_subset distinct positions).length_le

theorem ncard_leaving_le
    (distinct : ((GraphView.build nodes edges).edges.map GraphEdge.key).Nodup)
    (seeds : List Text) (depth : Nat) :
    {edge | (GraphView.build nodes edges).Leaving direction relations seeds depth edge}.ncard ≤
      edges.length := by
  have taken : {edge | (GraphView.build nodes edges).Leaving direction relations seeds depth
      edge} ⊆ {edge | edge ∈ (GraphView.build nodes edges).edges} := fun edge leaving => leaving.1
  have all : {edge | edge ∈ (GraphView.build nodes edges).edges}.ncard =
      (GraphView.build nodes edges).edges.length :=
    ncard_of_listed distinct.of_map fun _ => Iff.rfl
  refine (Set.ncard_le_ncard taken (List.finite_toSet _)).trans ?_
  rw [all]
  exact List.length_filter_le _ _

theorem mem_filterMap_nodesById {ids : List Text} {node : GraphNode} :
    node ∈ ids.filterMap (Keyed.get? (GraphView.build nodes edges).nodesById) ↔
      node.id ∈ ids ∧
        Keyed.get? (GraphView.build nodes edges).nodesById node.id = some node := by
  rw [List.mem_filterMap]
  constructor
  · rintro ⟨nodeId, among, found⟩
    obtain rfl := (get?_nodesById_build found).2
    exact ⟨among, found⟩
  · rintro ⟨among, found⟩
    exact ⟨node.id, among, found⟩

/-- Below the limits the search of the view and the query of the engine return the same nodes and
the same edges. -/
theorem neighborhood_agrees (nodes : List GraphNode) (edges : List GraphEdge)
    (distinct : (edges.map GraphEdge.key).Nodup) (startNodeId : Text)
    (known : startNodeId ∈ nodes.map GraphNode.id) (named : startNodeId ≠ [])
    (direction : GraphDirection) (relations : List Text) (maxDepth limit : Nat)
    (few : {nodeId | (GraphView.build nodes edges).Reached direction relations [startNodeId]
      maxDepth nodeId}.ncard < limit)
    (fewEdges : edges.length ≤ limit) :
    let found := (GraphView.build nodes edges).neighborhood [startNodeId] maxDepth direction
      relations limit
    ∃ response,
      graphQuery nodes edges
          { operation := .neighbors, startNodeId, direction, relationAllowlist := relations,
            maxDepth, limit } = .ok response ∧
        (∀ node, node ∈ response.nodes ↔ node ∈ found.nodes) ∧
        ∀ edge, edge ∈ response.edges ↔ edge ∈ found.edges := by
  intro found
  let graph := of nodes edges relations
  let request : GraphQueryRequest :=
    { operation := .neighbors, startNodeId, direction, relationAllowlist := relations, maxDepth,
      limit }
  have viewDistinct : ((GraphView.build nodes edges).edges.map GraphEdge.key).Nodup :=
    distinct.sublist (List.filter_sublist.map _)
  have complete : found = _ := neighborhood_complete viewDistinct few
    ((ncard_leaving_le viewDistinct [startNodeId] maxDepth).trans fewEdges)
  have explored := @exploredNeighbors_explored graph direction maxDepth startNodeId
  have count := ncard_of_listed explored.distinctNodes
    fun nodeId => @exploredNeighbors_reached nodes edges relations direction startNodeId known
      maxDepth nodeId
  obtain ⟨visited, taken⟩ := selectNeighbors_complete (count ▸ few)
  refine ⟨_, neighbors_eq named (known_of.mpr known), fun node => ?_, fun edge => ?_⟩
  · change node ∈ (graph.selectNeighbors direction startNodeId maxDepth limit).visited.filterMap
      (Keyed.get? (GraphView.build nodes edges).nodesById) ↔ _
    rw [visited, complete, mem_filterMap_nodesById, mem_filterMap_nodesById,
      exploredNeighbors_reached known, unlimitedVisit_reached]
  · let explorer := graph.exploredNeighbors direction startNodeId maxDepth
    have closed : graph.closedEdges explorer.visited explorer.edges =
        graph.edgesAt explorer.edges := by
      have positions := explored.distinctEdges
      rw [List.map_id] at positions
      rw [closedEdges, firstWins_distinct positions]
      refine List.filter_eq_self.mpr fun edge among => ?_
      have ends := leaving_reached ((exploredNeighbors_leaving known).mp among)
      have source : edge.source ∈ explorer.visited := (exploredNeighbors_reached known).mpr ends.1
      have target : edge.target ∈ explorer.visited := (exploredNeighbors_reached known).mpr ends.2
      simp [source, target]
    have short : (graph.edgesAt explorer.edges).length ≤ limit :=
      (List.length_filterMap_le _ _).trans
        ((length_exploredNeighbors_edges_le graph startNodeId maxDepth).trans fewEdges)
    change edge ∈ (graph.closedEdges
      (graph.selectNeighbors direction startNodeId maxDepth limit).visited
      (graph.selectNeighbors direction startNodeId maxDepth limit).edges).take limit ↔ _
    rw [visited, taken, closed, List.take_of_length_le short, complete,
      exploredNeighbors_leaving known, unlimitedVisit_leaving viewDistinct]

/-- The nodes within two steps of one of them, found by both searches. -/
theorem neighborhood_agrees_row :
    ∃ response,
      graphQuery rowNodes rowEdges
          { operation := .neighbors, startNodeId := "a", direction := .both,
            relationAllowlist := [], maxDepth := 2, limit := 4 } = .ok response ∧
        (∀ node, node ∈ response.nodes ↔
          node ∈ ((GraphView.build rowNodes rowEdges).neighborhood ["a"] 2 .both [] 4).nodes) ∧
        ∀ edge, edge ∈ response.edges ↔
          edge ∈ ((GraphView.build rowNodes rowEdges).neighborhood ["a"] 2 .both [] 4).edges := by
  have nodes : {nodeId | (GraphView.build rowNodes rowEdges).Reached .both [] ["a"] 2
      nodeId}.ncard < 4 := by
    have listed : {nodeId | (GraphView.build rowNodes rowEdges).Reached .both [] ["a"] 2 nodeId} ⊆
        {nodeId | nodeId ∈ rowNodes.map GraphNode.id} := fun nodeId reached => reached.1
    have count : {nodeId | nodeId ∈ rowNodes.map GraphNode.id}.ncard = 3 :=
      ncard_of_listed (by decide) fun _ => Iff.rfl
    exact (Set.ncard_le_ncard listed (List.finite_toSet _)).trans_lt (by omega)
  exact neighborhood_agrees rowNodes rowEdges (by decide) "a" (by decide) (by decide) .both [] 2 4
    nodes (by decide)

end Agreement

end QueryGraph

end LlmWikiServe
