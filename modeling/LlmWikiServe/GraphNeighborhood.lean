import LlmWikiServe.Foundation.Traversal
import LlmWikiServe.GraphView

/-!
# Neighborhoods in the graph view

A neighborhood is found level by level from its seeds, and the search is left in the middle of a
level when the limit is reached.
-/

namespace LlmWikiServe

open Traversal

inductive GraphDirection where
  | out
  | in_
  | both
  deriving DecidableEq

/-- `direction in {"out", "both"}` -/
def GraphDirection.outward (direction : GraphDirection) : Bool :=
  direction = .out || direction = .both

/-- `direction in {"in", "both"}` -/
def GraphDirection.inward (direction : GraphDirection) : Bool :=
  direction = .in_ || direction = .both

namespace GraphView

def iterEdges (view : GraphView) (direction : GraphDirection) (relations : List Text)
    (nodeId : Text) : List (GraphEdge × Text) :=
  let result :=
    (if direction.outward then
      ((Keyed.get? view.outgoing nodeId).getD []).map fun edge => (edge, edge.target)
    else []) ++
    (if direction.inward then
      ((Keyed.get? view.incoming nodeId).getD []).map fun edge => (edge, edge.source)
    else [])
  if relations = [] then result else result.filter fun joining => joining.1.relation ∈ relations

def visitAdjacent (view : GraphView) (visit : Visit Text GraphEdge) (joining : GraphEdge × Text) :
    Visit Text GraphEdge :=
  let edges := takeEdge GraphEdge.key visit.edges joining.1
  if joining.2 ∉ visit.visited ∧ joining.2 ∈ view.nodesById.map Prod.fst then
    { visited := visit.visited ++ [joining.2], edges, next := visit.next ++ [joining.2] }
  else { visit with edges }

/-- `len(visited) >= limit` -/
def limitReached (limit : Nat) (visit : Visit Text GraphEdge) : Bool := limit ≤ visit.visited.length

/-- One pass over the frontier. -/
def neighborhoodLevel (view : GraphView) (direction : GraphDirection) (relations : List Text)
    (limit : Nat) (visit : Visit Text GraphEdge) : Visit Text GraphEdge :=
  foldUntil (limitReached limit)
    (fun visit nodeId =>
      foldUntil (limitReached limit) view.visitAdjacent (view.iterEdges direction relations nodeId)
        visit)
    visit.next { visit with next := [] }

def neighborhoodLevels (view : GraphView) (direction : GraphDirection) (relations : List Text)
    (limit : Nat) : Nat → Visit Text GraphEdge → Visit Text GraphEdge
  | 0, visit => visit
  | depth + 1, visit =>
      if limitReached limit visit then visit
      else
        let after := view.neighborhoodLevel direction relations limit visit
        if after.next = [] then after
        else neighborhoodLevels view direction relations limit depth after

def frontier (view : GraphView) (seeds : List Text) : List Text :=
  seeds.filter fun seed => seed ∈ view.nodesById.map Prod.fst

def startVisit (view : GraphView) (seeds : List Text) : Visit Text GraphEdge where
  visited := Keyed.firstWins id (view.frontier seeds)
  edges := []
  next := view.frontier seeds

end GraphView

structure NeighborhoodResult where
  nodes : List GraphNode
  edges : List GraphEdge

/-- What a search returns: the first nodes, and the first edges between them. -/
def GraphView.returned (view : GraphView) (limit : Nat) (visit : Visit Text GraphEdge) :
    NeighborhoodResult where
  nodes := (visit.visited.take limit).filterMap (Keyed.get? view.nodesById)
  edges := (edgesBetween (visit.visited.take limit) visit.edges).take limit

def GraphView.neighborhood (view : GraphView) (seeds : List Text) (depth : Nat)
    (direction : GraphDirection) (relations : List Text) (limit : Nat) : NeighborhoodResult :=
  if seeds = [] then ⟨[], []⟩
  else
    view.returned limit
      (view.neighborhoodLevels direction relations limit depth (view.startVisit seeds))

/-! ## Steps along edges -/

/-- An edge can be followed from one node to another. -/
def GraphDirection.Follows (direction : GraphDirection) (edge : GraphEdge) (first second : Text) :
    Prop :=
  (direction.outward = true ∧ edge.source = first ∧ edge.target = second) ∨
    (direction.inward = true ∧ edge.target = first ∧ edge.source = second)

def GraphEdge.Allowed (relations : List Text) (edge : GraphEdge) : Prop :=
  relations = [] ∨ edge.relation ∈ relations

namespace GraphView

/-- Some allowed edge leads from one node to another. -/
def Step (view : GraphView) (direction : GraphDirection) (relations : List Text)
    (first second : Text) : Prop :=
  ∃ edge ∈ view.edges, edge.Allowed relations ∧ direction.Follows edge first second

/-- A node within some allowed steps of a seed. -/
def Reached (view : GraphView) (direction : GraphDirection) (relations seeds : List Text)
    (depth : Nat) (nodeId : Text) : Prop :=
  nodeId ∈ view.nodes.map GraphNode.id ∧
    Within (view.Step direction relations) seeds depth nodeId

def Leaving (view : GraphView) (direction : GraphDirection) (relations seeds : List Text)
    (depth : Nat) (edge : GraphEdge) : Prop :=
  edge ∈ view.edges ∧ edge.Allowed relations ∧ ∃ smaller < depth, ∃ first second,
    view.Reached direction relations seeds smaller first ∧ direction.Follows edge first second

end GraphView

/-! ## The adjacency maps of a built view -/

section Build

variable {nodes : List GraphNode} {edges : List GraphEdge}

theorem mem_nodesById_build {nodeId : Text} :
    nodeId ∈ (GraphView.build nodes edges).nodesById.map Prod.fst ↔
      nodeId ∈ nodes.map GraphNode.id := by
  simp only [GraphView.build, Keyed.mem_map_fst_update, List.map_map]
  simp

theorem get?_nodesById_build {nodeId : Text} {node : GraphNode}
    (found : Keyed.get? (GraphView.build nodes edges).nodesById nodeId = some node) :
    node ∈ nodes ∧ node.id = nodeId := by
  rcases Keyed.mem_update (Keyed.mem_of_get? found) with old | stored
  · cases old
  · obtain ⟨original, originalIn, same⟩ := List.mem_map.mp stored
    obtain ⟨rfl, rfl⟩ := Prod.mk.inj same
    exact ⟨originalIn, rfl⟩

theorem exists_get?_nodesById_build {nodeId : Text} (known : nodeId ∈ nodes.map GraphNode.id) :
    ∃ node, Keyed.get? (GraphView.build nodes edges).nodesById nodeId = some node :=
  Option.isSome_iff_exists.mp (Keyed.get?_isSome_iff.mpr (mem_nodesById_build.mpr known))

theorem build_closed {edge : GraphEdge} (among : edge ∈ (GraphView.build nodes edges).edges) :
    edge.source ∈ nodes.map GraphNode.id ∧ edge.target ∈ nodes.map GraphNode.id := by
  simpa using (List.mem_filter.mp among).2

/-- The adjacency maps hold the allowed edges that can be followed from a node. -/
theorem mem_iterEdges_build {direction : GraphDirection} {relations : List Text}
    {first second : Text} {edge : GraphEdge} :
    (edge, second) ∈ (GraphView.build nodes edges).iterEdges direction relations first ↔
      edge ∈ (GraphView.build nodes edges).edges ∧ edge.Allowed relations ∧
        direction.Follows edge first second := by
  have outgoing := Keyed.getD_group GraphEdge.source (GraphView.build nodes edges).edges first
  have incoming := Keyed.getD_group GraphEdge.target (GraphView.build nodes edges).edges first
  have unfiltered : (edge, second) ∈
      (GraphView.build nodes edges).iterEdges direction [] first ↔
        edge ∈ (GraphView.build nodes edges).edges ∧ direction.Follows edge first second := by
    simp only [GraphView.iterEdges, if_true, List.mem_append]
    rw [show (GraphView.build nodes edges).outgoing = Keyed.group GraphEdge.source
        (GraphView.build nodes edges).edges from rfl,
      show (GraphView.build nodes edges).incoming = Keyed.group GraphEdge.target
        (GraphView.build nodes edges).edges from rfl, outgoing, incoming]
    unfold GraphDirection.Follows
    cases direction.outward <;> cases direction.inward <;> simp <;> aesop
  by_cases any : relations = []
  · subst any
    rw [unfiltered]
    simp [GraphEdge.Allowed]
  · have narrowed : (GraphView.build nodes edges).iterEdges direction relations first =
        ((GraphView.build nodes edges).iterEdges direction [] first).filter
          fun joining => joining.1.relation ∈ relations := by
      simp [GraphView.iterEdges, any]
    rw [narrowed, List.mem_filter, unfiltered]
    simp only [GraphEdge.Allowed, any, false_or, decide_eq_true_eq]
    tauto

theorem joined_build {direction : GraphDirection} {relations : List Text} :
    Joined ((GraphView.build nodes edges).iterEdges direction relations) =
      (GraphView.build nodes edges).Step direction relations := by
  funext first second
  apply propext
  constructor
  · rintro ⟨edge, leaves⟩
    exact ⟨edge, mem_iterEdges_build.mp leaves⟩
  · rintro ⟨edge, along⟩
    exact ⟨edge, mem_iterEdges_build.mpr along⟩

theorem step_build {direction : GraphDirection} {relations : List Text} {first second : Text}
    (step : (GraphView.build nodes edges).Step direction relations first second) :
    first ∈ nodes.map GraphNode.id ∧ second ∈ nodes.map GraphNode.id := by
  obtain ⟨edge, among, -, follows⟩ := step
  have closed := build_closed among
  rcases follows with ⟨-, rfl, rfl⟩ | ⟨-, rfl, rfl⟩
  · exact closed
  · exact closed.symm

theorem walk_build {direction : GraphDirection} {relations : List Text} {count : Nat}
    {first last : Text}
    (walk : Walk ((GraphView.build nodes edges).Step direction relations) count first last) :
    first = last ∨ first ∈ nodes.map GraphNode.id ∧ last ∈ nodes.map GraphNode.id := by
  induction walk with
  | nil => exact .inl rfl
  | snoc _ step inductionHypothesis =>
      have joined := step_build step
      rcases inductionHypothesis with rfl | ⟨known, -⟩
      · exact .inr joined
      · exact .inr ⟨known, joined.2⟩

theorem within_frontier {direction : GraphDirection} {relations seeds : List Text} {depth : Nat}
    {nodeId : Text} :
    Within ((GraphView.build nodes edges).Step direction relations)
        ((GraphView.build nodes edges).frontier seeds) depth nodeId ↔
      (GraphView.build nodes edges).Reached direction relations seeds depth nodeId := by
  have mem_frontier : ∀ seed, seed ∈ (GraphView.build nodes edges).frontier seeds ↔
      seed ∈ seeds ∧ seed ∈ nodes.map GraphNode.id := by
    intro seed
    simp only [GraphView.frontier, List.mem_filter, decide_eq_true_eq, mem_nodesById_build]
  constructor
  · rintro ⟨seed, seedIn, count, small, walk⟩
    obtain ⟨given, known⟩ := (mem_frontier seed).mp seedIn
    refine ⟨?_, seed, given, count, small, walk⟩
    rcases walk_build walk with rfl | ⟨-, last⟩
    · exact known
    · exact last
  · rintro ⟨known, seed, given, count, small, walk⟩
    refine ⟨seed, (mem_frontier seed).mpr ⟨given, ?_⟩, count, small, walk⟩
    rcases walk_build walk with rfl | ⟨first, -⟩
    · exact known
    · exact first

/-- An edge that leaves a node short of the depth joins nodes within the depth. -/
theorem leaving_reached {direction : GraphDirection} {relations seeds : List Text} {depth : Nat}
    {edge : GraphEdge}
    (leaving : (GraphView.build nodes edges).Leaving direction relations seeds depth edge) :
    (GraphView.build nodes edges).Reached direction relations seeds depth edge.source ∧
      (GraphView.build nodes edges).Reached direction relations seeds depth edge.target := by
  obtain ⟨known, allowed, smaller, below, first, second, near, follows⟩ := leaving
  have step : (GraphView.build nodes edges).Step direction relations first second :=
    ⟨edge, known, allowed, follows⟩
  have start : (GraphView.build nodes edges).Reached direction relations seeds depth first :=
    ⟨near.1, near.2.mono below.le⟩
  have finish : (GraphView.build nodes edges).Reached direction relations seeds depth second :=
    ⟨(step_build step).2, (near.2.step step).mono below⟩
  rcases follows with ⟨-, rfl, rfl⟩ | ⟨-, rfl, rfl⟩
  · exact ⟨start, finish⟩
  · exact ⟨finish, start⟩

end Build

/-! ## Searches that are not left -/

section Levels

variable {nodes : List GraphNode} {edges : List GraphEdge} {direction : GraphDirection}
  {relations : List Text}

theorem visitAdjacent_build {nodeId : Text} {joining : GraphEdge × Text}
    (among : joining ∈ (GraphView.build nodes edges).iterEdges direction relations nodeId)
    (visit : Visit Text GraphEdge) :
    (GraphView.build nodes edges).visitAdjacent visit joining =
      visitEdge GraphEdge.key visit joining := by
  have known : joining.2 ∈ (GraphView.build nodes edges).nodesById.map Prod.fst :=
    mem_nodesById_build.mpr (step_build ⟨joining.1, mem_iterEdges_build.mp among⟩).2
  unfold GraphView.visitAdjacent visitEdge
  by_cases old : joining.2 ∈ visit.visited
  · rw [if_pos old, if_neg fun fresh => fresh.1 old]
  · rw [if_neg old, if_pos ⟨old, known⟩]

theorem neighborhoodLevel_cut (limit : Nat) (visit : Visit Text GraphEdge) :
    Cut (GraphView.limitReached limit) Begins
      ((GraphView.build nodes edges).neighborhoodLevel direction relations limit visit)
      (exploreLevel ((GraphView.build nodes edges).iterEdges direction relations) GraphEdge.key
        visit) := by
  have inner : ∀ (visit : Visit Text GraphEdge) (nodeId : Text),
      foldUntil (GraphView.limitReached limit) (GraphView.build nodes edges).visitAdjacent
          ((GraphView.build nodes edges).iterEdges direction relations nodeId) visit =
        foldUntil (GraphView.limitReached limit) (visitEdge GraphEdge.key)
          ((GraphView.build nodes edges).iterEdges direction relations nodeId) visit :=
    fun visit nodeId => foldUntil_congr (fun joining among => visitAdjacent_build among) visit
  unfold GraphView.neighborhoodLevel exploreLevel
  simp only [inner, List.foldl_flatMap]
  refine foldUntil_cut Begins.refl Begins.trans (fun visit nodeId => ?_) (fun visit nodeId => ?_)
    visit.next _
  · exact foldl_behind Begins.refl Begins.trans (visitEdge_begins GraphEdge.key) _ visit
  · exact foldUntil_cut Begins.refl Begins.trans (visitEdge_begins GraphEdge.key)
      (fun _ _ => .inl rfl) _ visit

theorem neighborhoodLevels_stopped {view : GraphView} {limit : Nat} (depth : Nat)
    {visit : Visit Text GraphEdge} (stopped : GraphView.limitReached limit visit = true) :
    view.neighborhoodLevels direction relations limit depth visit = visit := by
  cases depth with
  | zero => rfl
  | succ depth => rw [GraphView.neighborhoodLevels, if_pos stopped]

theorem neighborhoodLevels_cut (limit depth : Nat) (visit : Visit Text GraphEdge) :
    Cut (GraphView.limitReached limit) Begins
      ((GraphView.build nodes edges).neighborhoodLevels direction relations limit depth visit)
      ((exploreLevel ((GraphView.build nodes edges).iterEdges direction relations)
        GraphEdge.key)^[depth] visit) := by
  induction depth generalizing visit with
  | zero => exact .inl rfl
  | succ depth inductionHypothesis =>
      by_cases stopped : GraphView.limitReached limit visit = true
      · rw [neighborhoodLevels_stopped _ stopped]
        exact .inr ⟨stopped, exploreLevels_begins GraphEdge.key (depth + 1) visit⟩
      · rw [GraphView.neighborhoodLevels, if_neg stopped, Function.iterate_succ_apply]
        rcases @neighborhoodLevel_cut nodes edges direction relations limit visit with
          same | ⟨halted, behind⟩
        · rw [same]
          dsimp only
          split
          next done => exact .inl (Function.iterate_fixed (exploreLevel_done done) depth).symm
          · exact inductionHypothesis _
        · dsimp only
          split
          · exact .inr ⟨halted, behind.trans (exploreLevels_begins GraphEdge.key depth _)⟩
          · rw [neighborhoodLevels_stopped _ halted]
            exact .inr ⟨halted, behind.trans (exploreLevels_begins GraphEdge.key depth _)⟩

/-- Without a limit, the search from the seeds. -/
def GraphView.unlimitedVisit (view : GraphView) (direction : GraphDirection)
    (relations seeds : List Text) (depth : Nat) : Visit Text GraphEdge :=
  (exploreLevel (view.iterEdges direction relations) GraphEdge.key)^[depth] (view.startVisit seeds)

theorem unlimitedVisit_explored (view : GraphView) (seeds : List Text) (depth : Nat) :
    Explored (view.iterEdges direction relations) GraphEdge.key (view.frontier seeds) depth
      (view.unlimitedVisit direction relations seeds depth) := by
  have start : Explored (view.iterEdges direction relations) GraphEdge.key (view.frontier seeds) 0
      (view.startVisit seeds) := by
    refine Explored.start _ ?_ fun node => ?_
    · simpa using Keyed.nodup_map_firstWins id (view.frontier seeds)
    · simpa using @Keyed.mem_map_firstWins_iff _ _ _ id (view.frontier seeds) node
  have run := start.levels depth
  rw [Nat.zero_add] at run
  exact run

theorem neighborhood_eq (view : GraphView) (seeds : List Text) (depth limit : Nat) :
    view.neighborhood seeds depth direction relations limit =
      view.returned limit
        (view.neighborhoodLevels direction relations limit depth (view.startVisit seeds)) := by
  unfold GraphView.neighborhood
  split
  next none_ =>
    subst none_
    have nothing : view.neighborhoodLevels direction relations limit depth (view.startVisit []) =
        ⟨[], [], []⟩ := by
      cases depth with
      | zero => rfl
      | succ depth =>
          rw [GraphView.neighborhoodLevels]
          split
          · rfl
          · rfl
    rw [nothing]
    simp [GraphView.returned, edgesBetween]
  · rfl

/-! ## What is returned -/

theorem unlimitedVisit_reached {seeds : List Text} {depth : Nat} {nodeId : Text} :
    nodeId ∈ ((GraphView.build nodes edges).unlimitedVisit direction relations seeds depth).visited ↔
      (GraphView.build nodes edges).Reached direction relations seeds depth nodeId := by
  rw [(unlimitedVisit_explored _ seeds depth).nodes, joined_build, within_frontier]

theorem unlimitedVisit_leaving
    (distinct : ((GraphView.build nodes edges).edges.map GraphEdge.key).Nodup) {seeds : List Text}
    {depth : Nat} {edge : GraphEdge} :
    edge ∈ ((GraphView.build nodes edges).unlimitedVisit direction relations seeds depth).edges ↔
      (GraphView.build nodes edges).Leaving direction relations seeds depth edge := by
  have explored := @unlimitedVisit_explored direction relations (GraphView.build nodes edges) seeds
    depth
  have taken : ∀ edge ∈
      ((GraphView.build nodes edges).unlimitedVisit direction relations seeds depth).edges,
      (GraphView.build nodes edges).Leaving direction relations seeds depth edge := by
    intro edge among
    obtain ⟨smaller, below, first, second, near, leaves⟩ := explored.taken edge among
    rw [joined_build, within_frontier] at near
    obtain ⟨known, allowed, follows⟩ := mem_iterEdges_build.mp leaves
    exact ⟨known, allowed, smaller, below, first, second, near, follows⟩
  refine ⟨taken edge, ?_⟩
  rintro ⟨known, allowed, smaller, below, first, second, near, follows⟩
  rw [← within_frontier, ← joined_build] at near
  have key := explored.complete smaller below first second edge near
    (mem_iterEdges_build.mpr ⟨known, allowed, follows⟩)
  obtain ⟨other, otherIn, same⟩ := List.mem_map.mp key
  rwa [← List.inj_on_of_nodup_map distinct (taken other otherIn).1 known same]

theorem map_id_filterMap {ids : List Text} (known : ∀ nodeId ∈ ids, nodeId ∈ nodes.map GraphNode.id) :
    (ids.filterMap (Keyed.get? (GraphView.build nodes edges).nodesById)).map GraphNode.id = ids := by
  induction ids with
  | nil => rfl
  | cons nodeId rest inductionHypothesis =>
      obtain ⟨node, found⟩ :=
        @exists_get?_nodesById_build nodes edges nodeId (known nodeId List.mem_cons_self)
      rw [List.filterMap_cons_some found, List.map_cons, (get?_nodesById_build found).2,
        inductionHypothesis fun other among => known other (List.mem_cons_of_mem nodeId among)]

theorem map_id_unlimitedVisit (nodes : List GraphNode) (edges : List GraphEdge)
    (direction : GraphDirection) (relations seeds : List Text) (depth : Nat) :
    (((GraphView.build nodes edges).unlimitedVisit direction relations seeds
        depth).visited.filterMap (Keyed.get? (GraphView.build nodes edges).nodesById)).map
          GraphNode.id =
      ((GraphView.build nodes edges).unlimitedVisit direction relations seeds depth).visited :=
  map_id_filterMap fun _ among => (unlimitedVisit_reached.mp among).1

theorem neighborhood_nodes (view : GraphView) {seeds : List Text} {depth limit : Nat}
    (cut : Cut (GraphView.limitReached limit) Begins
      (view.neighborhoodLevels direction relations limit depth (view.startVisit seeds))
      (view.unlimitedVisit direction relations seeds depth)) :
    (view.neighborhoodLevels direction relations limit depth
        (view.startVisit seeds)).visited.take limit =
      (view.unlimitedVisit direction relations seeds depth).visited.take limit := by
  rcases cut with same | ⟨stopped, begins⟩
  · rw [same]
  · exact (take_of_begins begins.1 (of_decide_eq_true stopped)).symm

/-- A search that stays below its limit finds all there is in its depth. -/
theorem neighborhood_complete
    (distinct : ((GraphView.build nodes edges).edges.map GraphEdge.key).Nodup) {seeds : List Text}
    {depth limit : Nat}
    (few : {nodeId | (GraphView.build nodes edges).Reached direction relations seeds depth
      nodeId}.ncard < limit)
    (fewEdges : {edge | (GraphView.build nodes edges).Leaving direction relations seeds depth
      edge}.ncard ≤ limit) :
    (GraphView.build nodes edges).neighborhood seeds depth direction relations limit =
      ⟨((GraphView.build nodes edges).unlimitedVisit direction relations seeds
          depth).visited.filterMap (Keyed.get? (GraphView.build nodes edges).nodesById),
        ((GraphView.build nodes edges).unlimitedVisit direction relations seeds depth).edges⟩ := by
  let view := GraphView.build nodes edges
  let full := view.unlimitedVisit direction relations seeds depth
  have explored : Explored (view.iterEdges direction relations) GraphEdge.key (view.frontier seeds)
      depth full := unlimitedVisit_explored view seeds depth
  have short : full.visited.length < limit := by
    rwa [← ncard_of_listed explored.distinctNodes fun nodeId => unlimitedVisit_reached]
  have shortEdges : full.edges.length ≤ limit := by
    rwa [← ncard_of_listed explored.distinctEdges.of_map fun edge => unlimitedVisit_leaving distinct]
  -- The limit is never reached, so the search goes on to its end.
  have complete : view.neighborhoodLevels direction relations limit depth (view.startVisit seeds) =
      full := by
    rcases @neighborhoodLevels_cut nodes edges direction relations limit depth
      (view.startVisit seeds) with same | ⟨stopped, behind⟩
    · exact same
    · have long := of_decide_eq_true stopped
      have shorter := behind.1.length_le
      exact absurd (long.trans shorter) (not_le.mpr short)
  have closed : edgesBetween full.visited full.edges = full.edges := by
    refine List.filter_eq_self.mpr fun edge among => ?_
    have ends := leaving_reached ((unlimitedVisit_leaving distinct).mp among)
    have source : edge.source ∈ full.visited := unlimitedVisit_reached.mpr ends.1
    have target : edge.target ∈ full.visited := unlimitedVisit_reached.mpr ends.2
    simp [source, target]
  rw [neighborhood_eq, complete]
  unfold GraphView.returned
  rw [List.take_of_length_le short.le, closed, List.take_of_length_le shortEdges]

/-- A neighborhood is a breadth-first search bounded by its depth and its limit. -/
theorem neighborhood_bounded (nodes : List GraphNode) (edges : List GraphEdge)
    (distinct : ((GraphView.build nodes edges).edges.map GraphEdge.key).Nodup)
    (seeds : List Text) (depth : Nat) (direction : GraphDirection) (relations : List Text)
    (limit : Nat) :
    let view := GraphView.build nodes edges
    let found := view.neighborhood seeds depth direction relations limit
    (found.nodes.map GraphNode.id).Nodup ∧ found.nodes.length ≤ limit ∧
      (∀ node ∈ found.nodes,
        node ∈ nodes ∧ view.Reached direction relations seeds depth node.id) ∧
      found.edges.length ≤ limit ∧
      (∀ edge ∈ found.edges, edge ∈ view.edges ∧ edge.Allowed relations ∧
        edge.source ∈ found.nodes.map GraphNode.id ∧
        edge.target ∈ found.nodes.map GraphNode.id) ∧
      (∀ larger, limit ≤ larger →
        found.nodes <+: (view.neighborhood seeds depth direction relations larger).nodes) ∧
      ({nodeId | view.Reached direction relations seeds depth nodeId}.ncard < limit →
        {edge | view.Leaving direction relations seeds depth edge}.ncard ≤ limit →
        (∀ nodeId, nodeId ∈ found.nodes.map GraphNode.id ↔
          view.Reached direction relations seeds depth nodeId) ∧
        ∀ edge, edge ∈ found.edges ↔ view.Leaving direction relations seeds depth edge) := by
  intro view found
  let full := view.unlimitedVisit direction relations seeds depth
  let visit := view.neighborhoodLevels direction relations limit depth (view.startVisit seeds)
  have explored : Explored (view.iterEdges direction relations) GraphEdge.key (view.frontier seeds)
      depth full := unlimitedVisit_explored view seeds depth
  have cut : ∀ limit, Cut (GraphView.limitReached limit) Begins
      (view.neighborhoodLevels direction relations limit depth (view.startVisit seeds)) full :=
    fun limit => neighborhoodLevels_cut limit depth _
  have begins : Begins visit full := by
    rcases cut limit with same | ⟨-, begins⟩
    · rw [show visit = full from same]
      exact Begins.refl full
    · exact begins
  have reached : ∀ nodeId ∈ visit.visited, view.Reached direction relations seeds depth nodeId :=
    fun nodeId among => unlimitedVisit_reached.mp (begins.1.subset among)
  have returned : found = view.returned limit visit := neighborhood_eq view seeds depth limit
  have ids : found.nodes.map GraphNode.id = visit.visited.take limit := by
    rw [returned]
    exact map_id_filterMap fun nodeId among => (reached nodeId (List.mem_of_mem_take among)).1
  have returnedEdges : found.edges =
      (edgesBetween (visit.visited.take limit) visit.edges).take limit := by
    rw [returned]
    rfl
  refine ⟨?_, ?_, ?_, ?_, ?_, ?_, ?_⟩
  · rw [ids]
    exact (explored.distinctNodes.sublist begins.1.sublist).sublist (List.take_sublist _ _)
  · rw [← List.length_map, ids]
    exact List.length_take_le _ _
  · intro node among
    have nodeId : node.id ∈ visit.visited.take limit := ids ▸ List.mem_map_of_mem among
    refine ⟨?_, reached node.id (List.mem_of_mem_take nodeId)⟩
    rw [returned] at among
    obtain ⟨id, -, found⟩ := List.mem_filterMap.mp among
    exact (get?_nodesById_build found).1
  · rw [returnedEdges]
    exact List.length_take_le _ _
  · intro edge among
    rw [returnedEdges] at among
    obtain ⟨taken, ends⟩ := List.mem_filter.mp (List.mem_of_mem_take among)
    obtain ⟨known, allowed, -⟩ :=
      (unlimitedVisit_leaving distinct).mp (begins.2.subset taken)
    rw [ids]
    exact ⟨known, allowed, by simpa using ends⟩
  · intro larger ordered
    rw [returned, show view.neighborhood seeds depth direction relations larger =
      view.returned larger _ from neighborhood_eq view seeds depth larger]
    have nodes : visit.visited.take limit = full.visited.take limit :=
      neighborhood_nodes view (cut limit)
    have largerNodes := neighborhood_nodes view (cut larger)
    unfold GraphView.returned
    dsimp only
    rw [nodes, largerNodes]
    exact (List.take_prefix_take_left ordered).filterMap _
  · intro few fewEdges
    have all := neighborhood_complete distinct few fewEdges
    refine ⟨fun nodeId => ?_, fun edge => ?_⟩
    · have visited := map_id_unlimitedVisit nodes edges direction relations seeds depth
      rw [show found = _ from all]
      dsimp only
      rw [visited]
      exact unlimitedVisit_reached
    · rw [show found = _ from all]
      exact unlimitedVisit_leaving distinct

end Levels

def rowNodes : List GraphNode :=
  [⟨"a", "A", "page", [], []⟩, ⟨"b", "B", "page", [], []⟩, ⟨"c", "C", "page", [], []⟩]

def rowEdges : List GraphEdge :=
  [⟨"a", "b", "links_to", []⟩, ⟨"b", "c", "links_to", []⟩]

/-- A limit of two cuts the row, and a limit of four does not. -/
theorem neighborhood_bounded_row :
    ((GraphView.build rowNodes rowEdges).neighborhood ["a"] 2 .both [] 2).nodes <+:
        ((GraphView.build rowNodes rowEdges).neighborhood ["a"] 2 .both [] 4).nodes ∧
      (∀ edge ∈ ((GraphView.build rowNodes rowEdges).neighborhood ["a"] 2 .both [] 2).edges,
        edge.source ∈ ((GraphView.build rowNodes rowEdges).neighborhood ["a"] 2 .both [] 2).nodes.map
            GraphNode.id ∧
          edge.target ∈
            ((GraphView.build rowNodes rowEdges).neighborhood ["a"] 2 .both [] 2).nodes.map
              GraphNode.id) ∧
      ((GraphView.build rowNodes rowEdges).neighborhood ["a"] 2 .both [] 2).nodes.length ≤ 2 := by
  obtain ⟨-, few, -, -, closed, longer, -⟩ :=
    neighborhood_bounded rowNodes rowEdges (by decide) ["a"] 2 .both [] 2
  exact ⟨longer 4 (by decide), fun edge among => (closed edge among).2.2, few⟩

end LlmWikiServe
