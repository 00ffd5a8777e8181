import LlmWikiServe.GraphQueries

/-!
# Queries for paths

The queue of partial paths runs through the simple paths of the graph in order of length, and a
query returns the first of those that end at the target.
-/

namespace LlmWikiServe

open Traversal

namespace QueryGraph

/-! ## Simple paths -/

/-- A path along allowed edges between known nodes, followed in the direction, that comes to no
node twice. -/
inductive SimplePath (graph : QueryGraph) (direction : GraphDirection) (startNodeId : Text) :
    PartialPath → Prop where
  | start : SimplePath graph direction startNodeId ⟨startNodeId, [startNodeId], []⟩
  | extend {path : PartialPath} {edge : GraphEdge} {index : Nat} {nodeId : Text} :
      SimplePath graph direction startNodeId path → graph.edges[index]? = some edge →
      edge.Allowed graph.allowedRelations → graph.Known edge.source → graph.Known edge.target →
      direction.Follows edge path.nodeId nodeId → nodeId ∉ path.nodeIds →
      SimplePath graph direction startNodeId (path.extend (index, nodeId))

variable {graph : QueryGraph} {direction : GraphDirection} {startNodeId targetNodeId : Text}

theorem SimplePath.nodeId_mem {path : PartialPath}
    (simple : graph.SimplePath direction startNodeId path) : path.nodeId ∈ path.nodeIds := by
  cases simple with
  | start => exact List.mem_singleton_self _
  | extend => exact List.mem_append_right _ (List.mem_singleton_self _)

theorem SimplePath.distinct {path : PartialPath}
    (simple : graph.SimplePath direction startNodeId path) : path.nodeIds.Nodup := by
  induction simple with
  | start => exact List.nodup_singleton _
  | extend _ _ _ _ _ _ fresh inductionHypothesis =>
      exact List.nodup_append'.mpr
        ⟨inductionHypothesis, List.nodup_singleton _, by simpa using fresh⟩

theorem SimplePath.known {path : PartialPath}
    (simple : graph.SimplePath direction startNodeId path) (startKnown : graph.Known startNodeId) :
    ∀ nodeId ∈ path.nodeIds, graph.Known nodeId := by
  induction simple with
  | start => simpa using startKnown
  | extend _ _ _ source target follows _ inductionHypothesis =>
      intro nodeId among
      rcases List.mem_append.mp among with earlier | last
      · exact inductionHypothesis nodeId earlier
      · rw [List.mem_singleton.mp last]
        rcases follows with ⟨-, -, rfl⟩ | ⟨-, -, rfl⟩
        · exact target
        · exact source

theorem SimplePath.joins {path : PartialPath}
    (simple : graph.SimplePath direction startNodeId path) :
    ∀ index ∈ path.edgeIndexes, ∃ edge, graph.edges[index]? = some edge ∧
      edge.source ∈ path.nodeIds ∧ edge.target ∈ path.nodeIds := by
  induction simple with
  | start => simp
  | @extend path edge index nodeId simple stored _ _ _ follows _ inductionHypothesis =>
      intro position among
      rcases List.mem_append.mp among with earlier | last
      · obtain ⟨other, found, source, target⟩ := inductionHypothesis position earlier
        exact ⟨other, found, List.mem_append_left _ source, List.mem_append_left _ target⟩
      · rw [List.mem_singleton.mp last]
        have here : path.nodeId ∈ (path.extend (index, nodeId)).nodeIds :=
          List.mem_append_left _ simple.nodeId_mem
        have there : nodeId ∈ (path.extend (index, nodeId)).nodeIds :=
          List.mem_append_right _ (List.mem_singleton_self _)
        rcases follows with ⟨-, source, target⟩ | ⟨-, target, source⟩
        · exact ⟨edge, stored, source ▸ here, target ▸ there⟩
        · exact ⟨edge, stored, source ▸ there, target ▸ here⟩

/-! ## Enumeration -/

/-- The paths that go one edge further, to a node that is new. -/
def extensions (graph : QueryGraph) (direction : GraphDirection) (path : PartialPath) :
    List PartialPath :=
  ((graph.adjacent direction path.nodeId).filter fun joining =>
    joining.2 ∉ path.nodeIds).map path.extend

theorem mem_extensions {path longer : PartialPath} :
    longer ∈ graph.extensions direction path ↔
      ∃ index edge nodeId, graph.edges[index]? = some edge ∧
        edge.Allowed graph.allowedRelations ∧ graph.Known edge.source ∧
        graph.Known edge.target ∧ direction.Follows edge path.nodeId nodeId ∧
        nodeId ∉ path.nodeIds ∧ longer = path.extend (index, nodeId) := by
  simp only [extensions, List.mem_map, List.mem_filter, decide_eq_true_eq]
  constructor
  · rintro ⟨⟨index, nodeId⟩, ⟨leads, fresh⟩, rfl⟩
    obtain ⟨edge, stored, allowed, source, target, follows⟩ := mem_adjacent.mp leads
    exact ⟨index, edge, nodeId, stored, allowed, source, target, follows, fresh, rfl⟩
  · rintro ⟨index, edge, nodeId, stored, allowed, source, target, follows, fresh, rfl⟩
    exact ⟨(index, nodeId),
      ⟨mem_adjacent.mpr ⟨edge, stored, allowed, source, target, follows⟩, fresh⟩, rfl⟩

/-- The paths of a number of edges that have not come to the target. -/
def pathsUnderWay (graph : QueryGraph) (direction : GraphDirection)
    (startNodeId targetNodeId : Text) : Nat → List PartialPath
  | 0 => [⟨startNodeId, [startNodeId], []⟩]
  | count + 1 =>
      ((pathsUnderWay graph direction startNodeId targetNodeId count).flatMap
        (graph.extensions direction)).filter fun path => path.nodeId ≠ targetNodeId

/-- The paths that come to the target with one edge more. -/
def pathsArriving (graph : QueryGraph) (direction : GraphDirection)
    (startNodeId targetNodeId : Text) (count : Nat) : List PartialPath :=
  ((graph.pathsUnderWay direction startNodeId targetNodeId count).flatMap
    (graph.extensions direction)).filter fun path => path.nodeId = targetNodeId

def simplePaths (graph : QueryGraph) (direction : GraphDirection)
    (startNodeId targetNodeId : Text) (maxDepth : Nat) : List PartialPath :=
  (List.range maxDepth).flatMap (graph.pathsArriving direction startNodeId targetNodeId)

theorem mem_pathsUnderWay (apart : startNodeId ≠ targetNodeId) {count : Nat} {path : PartialPath} :
    path ∈ graph.pathsUnderWay direction startNodeId targetNodeId count ↔
      graph.SimplePath direction startNodeId path ∧ path.edgeIndexes.length = count ∧
        targetNodeId ∉ path.nodeIds := by
  induction count generalizing path with
  | zero =>
      rw [pathsUnderWay, List.mem_singleton]
      constructor
      · rintro rfl
        exact ⟨.start, rfl, by simpa using apart.symm⟩
      · rintro ⟨simple, none_, -⟩
        cases simple with
        | start => rfl
        | extend => simp [PartialPath.extend] at none_
  | succ count inductionHypothesis =>
      simp only [pathsUnderWay, List.mem_filter, List.mem_flatMap, decide_eq_true_eq,
        inductionHypothesis, mem_extensions]
      constructor
      · rintro ⟨⟨shorter, ⟨simple, length, unmet⟩, index, edge, nodeId, stored, allowed, source,
          target, follows, fresh, rfl⟩, elsewhere⟩
        refine ⟨.extend simple stored allowed source target follows fresh, ?_, ?_⟩
        · simp [PartialPath.extend, length]
        · simpa [PartialPath.extend, unmet] using Ne.symm elsewhere
      · rintro ⟨simple, length, unmet⟩
        cases simple with
        | start => simp at length
        | @extend shorter edge index nodeId simple stored allowed source target follows fresh =>
            simp only [PartialPath.extend, List.length_append, List.length_singleton,
              Nat.add_right_cancel_iff, List.mem_append, List.mem_singleton, not_or]
              at length unmet
            exact ⟨⟨shorter, ⟨simple, length, unmet.1⟩, index, edge, nodeId, stored, allowed,
              source, target, follows, fresh, rfl⟩, fun same => unmet.2 same.symm⟩

theorem mem_pathsArriving (apart : startNodeId ≠ targetNodeId) {count : Nat} {path : PartialPath} :
    path ∈ graph.pathsArriving direction startNodeId targetNodeId count ↔
      graph.SimplePath direction startNodeId path ∧ path.edgeIndexes.length = count + 1 ∧
        path.nodeId = targetNodeId := by
  simp only [pathsArriving, List.mem_filter, List.mem_flatMap, decide_eq_true_eq,
    mem_pathsUnderWay apart, mem_extensions]
  constructor
  · rintro ⟨⟨shorter, ⟨simple, length, -⟩, index, edge, nodeId, stored, allowed, source, target,
      follows, fresh, rfl⟩, arrived⟩
    refine ⟨.extend simple stored allowed source target follows fresh, ?_, arrived⟩
    simp [PartialPath.extend, length]
  · rintro ⟨simple, length, arrived⟩
    cases simple with
    | start => simp at length
    | @extend shorter edge index nodeId simple stored allowed source target follows fresh =>
        simp only [PartialPath.extend, List.length_append, List.length_singleton,
          Nat.add_right_cancel_iff] at length arrived
        exact ⟨⟨shorter, ⟨simple, length, arrived ▸ fresh⟩, index, edge, nodeId, stored, allowed,
          source, target, follows, fresh, rfl⟩, arrived⟩

/-- The enumeration lists the simple paths to the target of at most so many edges. -/
theorem mem_simplePaths (apart : startNodeId ≠ targetNodeId) {maxDepth : Nat} {path : PartialPath} :
    path ∈ graph.simplePaths direction startNodeId targetNodeId maxDepth ↔
      graph.SimplePath direction startNodeId path ∧ path.nodeId = targetNodeId ∧
        path.edgeIndexes.length ≤ maxDepth := by
  simp only [simplePaths, List.mem_flatMap, List.mem_range, mem_pathsArriving apart]
  constructor
  · rintro ⟨count, below, simple, length, arrived⟩
    exact ⟨simple, arrived, by omega⟩
  · rintro ⟨simple, arrived, bounded⟩
    cases length : path.edgeIndexes.length with
    | zero =>
        cases simple with
        | start => exact absurd arrived apart
        | extend => simp [PartialPath.extend] at length
    | succ count => exact ⟨count, by omega, simple, rfl, arrived⟩

/-! ## Every path once, shorter paths first -/

/-- An edge leads to a new node in one way only. -/
theorem nodup_extensions {path : PartialPath} (here : path.nodeId ∈ path.nodeIds) :
    ((graph.extensions direction path).map PartialPath.edgeIndexes).Nodup := by
  have positions : (((graph.adjacent direction path.nodeId).filter fun joining =>
      joining.2 ∉ path.nodeIds).map Prod.fst).Sublist ((graph.iterEdges []).map Prod.snd) := by
    unfold adjacent
    induction graph.iterEdges [] with
    | nil => exact List.Sublist.refl _
    | cons entry rest inductionHypothesis =>
        rw [List.flatMap_cons, List.filter_append, List.map_append]
        change List.Sublist _ ([entry.2] ++ rest.map Prod.snd)
        refine List.Sublist.append ?_ inductionHypothesis
        rw [List.filter_append]
        by_cases outward : direction.outward ∧ entry.1.source = path.nodeId ∧
            graph.Known entry.1.target
        · by_cases inward : direction.inward ∧ entry.1.target = path.nodeId ∧
              graph.Known entry.1.source
          · simp [outward, inward, here]
          · rw [if_pos outward, if_neg inward, List.filter_nil, List.append_nil]
            exact (List.filter_sublist.map Prod.fst)
        · rw [if_neg outward, List.filter_nil, List.nil_append]
          split
          · exact (List.filter_sublist.map Prod.fst)
          · exact List.nil_sublist _
  have increasing : ((graph.iterEdges []).map Prod.snd).Nodup := by
    have all : (graph.edges.zipIdx.map Prod.snd).Nodup := by
      rw [List.zipIdx_map_snd]
      exact List.nodup_range'
    exact all.sublist (List.filter_sublist.map Prod.snd)
  have indexes := increasing.sublist positions
  have shape : (graph.extensions direction path).map PartialPath.edgeIndexes =
      (((graph.adjacent direction path.nodeId).filter fun joining =>
        joining.2 ∉ path.nodeIds).map Prod.fst).map fun index => path.edgeIndexes ++ [index] := by
    simp [extensions, PartialPath.extend, List.map_map, Function.comp_def]
  rw [shape]
  exact indexes.map fun first second same => by simpa using same

theorem edgeIndexes_extensions {path longer : PartialPath}
    (among : longer ∈ graph.extensions direction path) :
    ∃ index, longer.edgeIndexes = path.edgeIndexes ++ [index] := by
  obtain ⟨joining, -, rfl⟩ := List.mem_map.mp among
  exact ⟨joining.1, rfl⟩

/-- Different paths go further along different edges. -/
theorem nodup_flatMap_extensions {paths : List PartialPath}
    (distinct : (paths.map PartialPath.edgeIndexes).Nodup)
    (here : ∀ path ∈ paths, path.nodeId ∈ path.nodeIds) :
    ((paths.flatMap (graph.extensions direction)).map PartialPath.edgeIndexes).Nodup := by
  rw [List.map_flatMap, List.nodup_flatMap]
  refine ⟨fun path among => nodup_extensions (here path among), ?_⟩
  refine (List.pairwise_map.mp distinct).imp ?_
  intro first second apart indexes inFirst inSecond
  obtain ⟨longer, longerIn, rfl⟩ := List.mem_map.mp inFirst
  obtain ⟨other, otherIn, same⟩ := List.mem_map.mp inSecond
  obtain ⟨index, shape⟩ := edgeIndexes_extensions longerIn
  obtain ⟨otherIndex, otherShape⟩ := edgeIndexes_extensions otherIn
  rw [shape, otherShape] at same
  exact apart (List.append_inj_left' same rfl).symm

theorem nodup_pathsUnderWay (apart : startNodeId ≠ targetNodeId) (count : Nat) :
    ((graph.pathsUnderWay direction startNodeId targetNodeId count).map
      PartialPath.edgeIndexes).Nodup := by
  induction count with
  | zero => exact List.nodup_singleton _
  | succ count inductionHypothesis =>
      refine (nodup_flatMap_extensions inductionHypothesis fun path among => ?_).sublist
        (List.filter_sublist.map _)
      exact ((mem_pathsUnderWay apart).mp among).1.nodeId_mem

theorem nodup_simplePaths (apart : startNodeId ≠ targetNodeId) (maxDepth : Nat) :
    ((graph.simplePaths direction startNodeId targetNodeId maxDepth).map
      PartialPath.edgeIndexes).Nodup := by
  rw [simplePaths, List.map_flatMap, List.nodup_flatMap]
  constructor
  · intro count _
    refine (nodup_flatMap_extensions (nodup_pathsUnderWay apart count) fun path among => ?_).sublist
      (List.filter_sublist.map _)
    exact ((mem_pathsUnderWay apart).mp among).1.nodeId_mem
  · refine List.nodup_range.imp ?_
    intro first second differs indexes inFirst inSecond
    obtain ⟨path, pathIn, rfl⟩ := List.mem_map.mp inFirst
    obtain ⟨other, otherIn, same⟩ := List.mem_map.mp inSecond
    have length := ((mem_pathsArriving apart).mp pathIn).2.1
    have otherLength := ((mem_pathsArriving apart).mp otherIn).2.1
    rw [same, length] at otherLength
    exact differs (Nat.add_right_cancel otherLength)

theorem simplePaths_ordered (apart : startNodeId ≠ targetNodeId) (maxDepth : Nat) :
    (graph.simplePaths direction startNodeId targetNodeId maxDepth).Pairwise
      fun first second => first.edgeIndexes.length ≤ second.edgeIndexes.length := by
  rw [simplePaths, List.pairwise_flatMap]
  constructor
  · intro count _
    refine List.pairwise_of_forall_mem_list fun first firstIn second secondIn => ?_
    rw [((mem_pathsArriving apart).mp firstIn).2.1, ((mem_pathsArriving apart).mp secondIn).2.1]
  · refine List.pairwise_lt_range.imp ?_
    intro first second below path pathIn other otherIn
    rw [((mem_pathsArriving apart).mp pathIn).2.1, ((mem_pathsArriving apart).mp otherIn).2.1]
    omega

/-! ## The search without a limit -/

def expandPathFully (graph : QueryGraph) (direction : GraphDirection) (targetNodeId : Text)
    (maxDepth : Nat) (search : PathSearch) (path : PartialPath) : PathSearch × List PartialPath :=
  if maxDepth ≤ path.edgeIndexes.length then (search, [])
  else (graph.adjacent direction path.nodeId).foldl (extendPath targetNodeId path) (search, [])

def Finds (first second : PathSearch) : Prop := first.paths <+: second.paths

theorem Finds.refl (search : PathSearch) : Finds search search := List.prefix_rfl

theorem Finds.trans {first second third : PathSearch} (earlier : Finds first second)
    (later : Finds second third) : Finds first third :=
  List.IsPrefix.trans earlier later

theorem extendPath_finds (path : PartialPath) (state : PathSearch × List PartialPath)
    (joining : Nat × Text) : Finds state.1 (extendPath targetNodeId path state joining).1 := by
  unfold extendPath
  split
  · exact Finds.refl _
  · split
    · exact List.prefix_append _ _
    · exact Finds.refl _

theorem expandPathFully_finds {maxDepth : Nat} (search : PathSearch) (path : PartialPath) :
    Finds search (graph.expandPathFully direction targetNodeId maxDepth search path).1 := by
  unfold expandPathFully
  split
  · exact Finds.refl _
  · exact @foldl_behind _ _ (fun first second : PathSearch × List PartialPath =>
      Finds first.1 second.1) (fun state => Finds.refl state.1) Finds.trans _
      (extendPath_finds path) _ (search, [])

theorem expandPath_agree {maxDepth limit : Nat} (search : PathSearch) (path : PartialPath) :
    graph.expandPath direction targetNodeId maxDepth limit search path =
        graph.expandPathFully direction targetNodeId maxDepth search path ∨
      searchFull limit
          (graph.expandPath direction targetNodeId maxDepth limit search path).1 = true ∧
        Finds (graph.expandPath direction targetNodeId maxDepth limit search path).1
          (graph.expandPathFully direction targetNodeId maxDepth search path).1 := by
  unfold expandPath expandPathFully
  split
  · exact .inl rfl
  · exact @foldUntil_cut _ _ (fun state => searchFull limit state.1)
      (fun first second : PathSearch × List PartialPath => Finds first.1 second.1)
      (fun state => Finds.refl state.1) Finds.trans _ _ (extendPath_finds path)
      (fun _ _ => .inl rfl) _ _

theorem foldl_extendPath (path : PartialPath) (joinings : List (Nat × Text))
    (state : PathSearch × List PartialPath) :
    (joinings.foldl (extendPath targetNodeId path) state).1.paths =
        state.1.paths ++ ((joinings.filter fun joining => joining.2 ∉ path.nodeIds).map
          path.extend).filter (fun longer => longer.nodeId = targetNodeId) ∧
      (joinings.foldl (extendPath targetNodeId path) state).2 =
        state.2 ++ ((joinings.filter fun joining => joining.2 ∉ path.nodeIds).map
          path.extend).filter (fun longer => longer.nodeId ≠ targetNodeId) := by
  induction joinings generalizing state with
  | nil => simp
  | cons joining rest inductionHypothesis =>
      rw [List.foldl_cons]
      obtain ⟨found, queued⟩ := inductionHypothesis (extendPath targetNodeId path state joining)
      rw [found, queued]
      by_cases old : joining.2 ∈ path.nodeIds
      · simp [extendPath, old]
      · by_cases arrived : joining.2 = targetNodeId
        · rw [arrived] at old
          simp [extendPath, old, arrived, PathSearch.add, PartialPath.extend]
        · simp [extendPath, old, arrived, PartialPath.extend]

theorem level_expandPathFully {maxDepth : Nat} (paths : List PartialPath)
    (short : ∀ path ∈ paths, path.edgeIndexes.length < maxDepth) (search : PathSearch) :
    (level (graph.expandPathFully direction targetNodeId maxDepth) paths search).1.paths =
        search.paths ++ (paths.flatMap (graph.extensions direction)).filter
          (fun path => path.nodeId = targetNodeId) ∧
      (level (graph.expandPathFully direction targetNodeId maxDepth) paths search).2 =
        (paths.flatMap (graph.extensions direction)).filter
          (fun path => path.nodeId ≠ targetNodeId) := by
  induction paths generalizing search with
  | nil => simp [level]
  | cons path rest inductionHypothesis =>
      have goes : graph.expandPathFully direction targetNodeId maxDepth search path =
          (graph.adjacent direction path.nodeId).foldl (extendPath targetNodeId path)
            (search, []) := by
        rw [expandPathFully, if_neg (not_le.mpr (short path List.mem_cons_self))]
      obtain ⟨found, queued⟩ := @foldl_extendPath targetNodeId path
        (graph.adjacent direction path.nodeId) (search, [])
      obtain ⟨restFound, restQueued⟩ := inductionHypothesis
        (fun other among => short other (List.mem_cons_of_mem path among))
        (graph.expandPathFully direction targetNodeId maxDepth search path).1
      rw [level, restFound, restQueued, goes, found, queued, List.flatMap_cons,
        List.filter_append, List.filter_append, List.append_assoc]
      exact ⟨rfl, rfl⟩

theorem level_expandPathFully_done {maxDepth : Nat} (paths : List PartialPath)
    (long : ∀ path ∈ paths, maxDepth ≤ path.edgeIndexes.length) (search : PathSearch) :
    level (graph.expandPathFully direction targetNodeId maxDepth) paths search = (search, []) := by
  induction paths generalizing search with
  | nil => rfl
  | cons path rest inductionHypothesis =>
      have stays : graph.expandPathFully direction targetNodeId maxDepth search path =
          (search, []) := by
        rw [expandPathFully, if_pos (long path List.mem_cons_self)]
      have others := inductionHypothesis
        (fun other among => long other (List.mem_cons_of_mem path among)) search
      rw [level, stays, others]
      rfl

/-- The levels of the queue are the paths under way, and what they find are the paths that
arrive. -/
theorem rounds_expandPathFully (apart : startNodeId ≠ targetNodeId) {maxDepth : Nat} (count : Nat) :
    ∀ (depth : Nat), depth + count = maxDepth → ∀ search : PathSearch,
      (rounds (graph.expandPathFully direction targetNodeId maxDepth) (count + 1)
          (graph.pathsUnderWay direction startNodeId targetNodeId depth) search).2 = [] ∧
        (rounds (graph.expandPathFully direction targetNodeId maxDepth) (count + 1)
          (graph.pathsUnderWay direction startNodeId targetNodeId depth) search).1.paths =
          search.paths ++ (List.range' depth count).flatMap
            (graph.pathsArriving direction startNodeId targetNodeId) := by
  induction count with
  | zero =>
      intro depth total search
      have long : ∀ path ∈ graph.pathsUnderWay direction startNodeId targetNodeId depth,
          maxDepth ≤ path.edgeIndexes.length := by
        intro path among
        rw [((mem_pathsUnderWay apart).mp among).2.1]
        omega
      rw [rounds, level_expandPathFully_done _ long search, rounds]
      simp
  | succ count inductionHypothesis =>
      intro depth total search
      have short : ∀ path ∈ graph.pathsUnderWay direction startNodeId targetNodeId depth,
          path.edgeIndexes.length < maxDepth := by
        intro path among
        rw [((mem_pathsUnderWay apart).mp among).2.1]
        omega
      obtain ⟨found, queued⟩ := @level_expandPathFully graph direction targetNodeId maxDepth _ short
        search
      have next : (level (graph.expandPathFully direction targetNodeId maxDepth)
          (graph.pathsUnderWay direction startNodeId targetNodeId depth) search).2 =
            graph.pathsUnderWay direction startNodeId targetNodeId (depth + 1) := queued
      obtain ⟨done, arrived⟩ := inductionHypothesis (depth + 1) (by omega)
        (level (graph.expandPathFully direction targetNodeId maxDepth)
          (graph.pathsUnderWay direction startNodeId targetNodeId depth) search).1
      rw [rounds, next]
      refine ⟨done, arrived.trans ?_⟩
      rw [found, List.range'_succ, List.flatMap_cons, List.append_assoc]
      rfl

theorem length_expandPathFully_le {maxDepth : Nat} (search : PathSearch) (path : PartialPath) :
    (graph.expandPathFully direction targetNodeId maxDepth search path).2.length ≤
      2 * graph.edges.length := by
  unfold expandPathFully
  split
  · simp
  · rw [(foldl_extendPath path _ _).2, List.nil_append]
    refine (List.length_filter_le _ _).trans ?_
    rw [List.length_map]
    exact (List.length_filter_le _ _).trans (graph.length_adjacent_le direction path.nodeId)

theorem drain_expandPathFully (apart : startNodeId ≠ targetNodeId) (maxDepth : Nat) :
    (drain (fun _ => false) (graph.expandPathFully direction targetNodeId maxDepth)
        (graph.queueSteps maxDepth) [⟨startNodeId, [startNodeId], []⟩] {}).paths =
      graph.simplePaths direction startNodeId targetNodeId maxDepth := by
  obtain ⟨done, found⟩ := @rounds_expandPathFully graph direction startNodeId targetNodeId apart
    maxDepth maxDepth 0 (Nat.zero_add maxDepth) {}
  change PathSearch.paths
    (drain _ _ _ (graph.pathsUnderWay direction startNodeId targetNodeId 0) _) = _
  rw [drain_rounds _ length_expandPathFully_le (maxDepth + 1) done
    (by simp [queueSteps, pathsUnderWay])]
  refine found.trans ?_
  rw [simplePaths, List.range_eq_range']
  exact List.nil_append _

/-! ## The search with its limit -/

/-- No more paths than the limit, and the nodes and edges on them. -/
structure Recorded (limit : Nat) (search : PathSearch) : Prop where
  short : search.paths.length ≤ limit
  nodeIds : search.nodeIds = Keyed.firstWins id (search.paths.flatMap PartialPath.nodeIds)
  edgeIndexes :
    search.edgeIndexes = Keyed.firstWins id (search.paths.flatMap PartialPath.edgeIndexes)

theorem Recorded.add {limit : Nat} {search : PathSearch} (recorded : Recorded limit search)
    (running : searchFull limit search = false) (path : PartialPath) :
    Recorded limit (search.add path) := by
  have room : search.paths.length < limit := by simpa [searchFull] using running
  refine ⟨by simpa [PathSearch.add] using room, ?_, ?_⟩
  · simp only [PathSearch.add, recorded.nodeIds, ← foldl_takeEdge_nil, List.flatMap_append,
      List.foldl_append, List.flatMap_singleton]
  · simp only [PathSearch.add, recorded.edgeIndexes, ← foldl_takeEdge_nil, List.flatMap_append,
      List.foldl_append, List.flatMap_singleton]

theorem searchPaths_recorded (maxDepth limit : Nat) :
    Recorded limit (graph.searchPaths direction startNodeId targetNodeId maxDepth limit) := by
  refine drain_invariant (fun search path recorded running => ?_) _ _
    ⟨Nat.zero_le limit, rfl, rfl⟩
  unfold expandPath
  split
  · exact recorded
  · refine @foldUntil_invariant (PathSearch × List PartialPath) (Nat × Text)
      (fun state => searchFull limit state.1) _ (fun state => Recorded limit state.1) _
      (fun state joining _ recorded running => ?_) (search, []) recorded running
    unfold extendPath
    split
    · exact recorded
    · split
      · exact recorded.add running _
      · exact recorded

theorem searchPaths_paths (apart : startNodeId ≠ targetNodeId) (maxDepth limit : Nat) :
    (graph.searchPaths direction startNodeId targetNodeId maxDepth limit).paths =
      (graph.simplePaths direction startNodeId targetNodeId maxDepth).take limit := by
  have short :=
    (@searchPaths_recorded graph direction startNodeId targetNodeId maxDepth limit).short
  have cut := drain_cut Finds.refl Finds.trans
    (@expandPathFully_finds graph direction targetNodeId maxDepth)
    (@expandPath_agree graph direction targetNodeId maxDepth limit) (graph.queueSteps maxDepth)
    [⟨startNodeId, [startNodeId], []⟩] {}
  rw [← drain_expandPathFully apart]
  rcases cut with same | ⟨stopped, finds⟩
  · rw [← same]
    exact (List.take_of_length_le short).symm
  · rw [take_of_begins finds (of_decide_eq_true stopped)]
    exact (List.take_of_length_le short).symm

/-! ## Responses -/

theorem paths_answered {request : GraphQueryRequest} {response : GraphQueryResponse}
    (answered : graph.paths request = .ok response) :
    graph.Known request.startNodeId ∧ graph.Known request.targetNodeId ∧
      response =
        if request.startNodeId = request.targetNodeId then
          graph.response request [request.startNodeId] [] [⟨[request.startNodeId], []⟩]
        else
          let search := graph.searchPaths request.direction request.startNodeId
            request.targetNodeId request.maxDepth request.limit
          graph.response request search.nodeIds search.edgeIndexes
            (search.paths.map graph.queryPath) := by
  unfold paths at answered
  split at answered
  · cases answered
  · by_cases startKnown : graph.Known request.startNodeId
    · obtain ⟨first, startRequired⟩ := requireNode_eq startKnown
      by_cases targetKnown : graph.Known request.targetNodeId
      · obtain ⟨last, targetRequired⟩ := requireNode_eq targetKnown
        rw [startRequired, targetRequired] at answered
        refine ⟨startKnown, targetKnown, ?_⟩
        by_cases same : request.startNodeId = request.targetNodeId
        · rw [if_pos same]
          simp only [if_pos same] at answered
          exact (Except.ok.inj answered).symm
        · rw [if_neg same]
          simp only [if_neg same] at answered
          exact (Except.ok.inj answered).symm
      · rw [startRequired, requireNode_error targetKnown] at answered
        cases answered
    · rw [requireNode_error startKnown] at answered
      cases answered

def firstSimplePaths (graph : QueryGraph) (request : GraphQueryRequest) : List PartialPath :=
  (graph.simplePaths request.direction request.startNodeId request.targetNodeId
    request.maxDepth).take request.limit

theorem mem_firstSimplePaths {request : GraphQueryRequest}
    (apart : request.startNodeId ≠ request.targetNodeId) {path : PartialPath}
    (among : path ∈ graph.firstSimplePaths request) :
    graph.SimplePath request.direction request.startNodeId path ∧
      path.nodeId = request.targetNodeId ∧ path.edgeIndexes.length ≤ request.maxDepth :=
  (mem_simplePaths apart).mp (List.mem_of_mem_take among)

/-- The edges of the positions of a simple path are told apart by them. -/
theorem edgesAt_injective (distinct : graph.edges.Nodup) {first second : List Nat}
    (firstStored : ∀ index ∈ first, ∃ edge, graph.edges[index]? = some edge)
    (secondStored : ∀ index ∈ second, ∃ edge, graph.edges[index]? = some edge)
    (same : graph.edgesAt first = graph.edgesAt second) : first = second := by
  induction first generalizing second with
  | nil =>
      cases second with
      | nil => rfl
      | cons index rest =>
          obtain ⟨edge, stored⟩ := secondStored index List.mem_cons_self
          rw [edgesAt, edgesAt, List.filterMap_nil, List.filterMap_cons_some stored] at same
          cases same
  | cons index rest inductionHypothesis =>
      obtain ⟨edge, stored⟩ := firstStored index List.mem_cons_self
      cases second with
      | nil =>
          rw [edgesAt, edgesAt, List.filterMap_nil, List.filterMap_cons_some stored] at same
          cases same
      | cons other others =>
          obtain ⟨otherEdge, otherStored⟩ := secondStored other List.mem_cons_self
          rw [edgesAt, edgesAt, List.filterMap_cons_some stored,
            List.filterMap_cons_some otherStored] at same
          obtain ⟨sameEdge, sameRest⟩ := List.cons.inj same
          have bound := (List.getElem?_eq_some_iff.mp stored).1
          have samePosition : index = other :=
            (List.getElem?_inj bound distinct).mp (by rw [stored, otherStored, sameEdge])
          rw [samePosition, inductionHypothesis
            (fun index among => firstStored index (List.mem_cons_of_mem _ among))
            (fun index among => secondStored index (List.mem_cons_of_mem _ among)) sameRest]

end QueryGraph

open QueryGraph

/-- A query for paths between different nodes returns simple paths, shortest first, different in
the positions of their edges, and leaves out only longer ones when its limit is reached. -/
theorem graphQuery_paths (nodes : List GraphNode) (edges : List GraphEdge)
    (request : GraphQueryRequest) (operation : request.operation = .paths)
    (apart : request.startNodeId ≠ request.targetNodeId) (response : GraphQueryResponse)
    (answered : graphQuery nodes edges request = .ok response) :
    let graph := QueryGraph.of nodes edges request.relationAllowlist
    ∃ found : List PartialPath, response.paths = found.map graph.queryPath ∧
      found.length ≤ request.limit ∧
      (found.Pairwise fun first second =>
        first.edgeIndexes.length ≤ second.edgeIndexes.length) ∧
      (found.map PartialPath.edgeIndexes).Nodup ∧
      (edges.Nodup → (response.paths.map GraphQueryPath.edges).Nodup) ∧
      (∀ path ∈ found, graph.SimplePath request.direction request.startNodeId path ∧
        path.nodeId = request.targetNodeId ∧ path.edgeIndexes.length ≤ request.maxDepth) ∧
      (found.length < request.limit →
        ∀ path, graph.SimplePath request.direction request.startNodeId path →
          path.nodeId = request.targetNodeId → path.edgeIndexes.length ≤ request.maxDepth →
          path ∈ found) ∧
      ∀ path, graph.SimplePath request.direction request.startNodeId path →
        path.nodeId = request.targetNodeId → path.edgeIndexes.length ≤ request.maxDepth →
        path ∉ found → ∀ kept ∈ found, kept.edgeIndexes.length ≤ path.edgeIndexes.length := by
  intro graph
  unfold graphQuery at answered
  rw [operation] at answered
  obtain ⟨-, -, shape⟩ := paths_answered answered
  rw [if_neg apart] at shape
  let all := graph.simplePaths request.direction request.startNodeId request.targetNodeId
    request.maxDepth
  have ordered := @simplePaths_ordered graph request.direction _ _ apart request.maxDepth
  have distinct : ((graph.firstSimplePaths request).map PartialPath.edgeIndexes).Nodup :=
    (nodup_simplePaths apart request.maxDepth).sublist ((List.take_sublist _ _).map _)
  have returned : response.paths = (graph.firstSimplePaths request).map graph.queryPath := by
    rw [shape]
    exact congrArg (List.map graph.queryPath) (searchPaths_paths apart _ _)
  refine ⟨graph.firstSimplePaths request, returned, List.length_take_le _ _,
    ordered.sublist (List.take_sublist _ _), distinct, ?_,
    fun path among => mem_firstSimplePaths apart among, ?_, ?_⟩
  · intro distinctEdges
    rw [returned, List.map_map]
    rw [List.Nodup, List.pairwise_map] at distinct ⊢
    refine distinct.imp_of_mem ?_
    intro first second firstIn secondIn differs same
    have stored : ∀ path ∈ graph.firstSimplePaths request, ∀ index ∈ path.edgeIndexes,
        ∃ edge, graph.edges[index]? = some edge := by
      intro path among index indexIn
      obtain ⟨edge, found, -⟩ := (mem_firstSimplePaths apart among).1.joins index indexIn
      exact ⟨edge, found⟩
    exact differs (edgesAt_injective distinctEdges (stored first firstIn) (stored second secondIn)
      same)
  · intro few path simple arrived bounded
    have listed : path ∈ all := (mem_simplePaths apart).mpr ⟨simple, arrived, bounded⟩
    have whole : graph.firstSimplePaths request = all := by
      refine List.take_of_length_le ?_
      by_contra long
      rw [firstSimplePaths, List.length_take_of_le (not_le.mp long).le] at few
      exact lt_irrefl _ few
    exact whole ▸ listed
  · intro path simple arrived bounded omitted kept keptIn
    have listed : path ∈ all := (mem_simplePaths apart).mpr ⟨simple, arrived, bounded⟩
    have split : all.take request.limit ++ all.drop request.limit = all :=
      List.take_append_drop request.limit all
    rw [← split] at listed
    have later := (List.mem_append.mp listed).resolve_left omitted
    have pairs := ordered
    rw [show graph.simplePaths request.direction request.startNodeId request.targetNodeId
      request.maxDepth = all.take request.limit ++ all.drop request.limit from split.symm] at pairs
    exact (List.pairwise_append.mp pairs).2.2 kept keptIn path later

theorem graphQuery_paths_row :
    graphQuery rowNodes rowEdges
        { operation := .paths, startNodeId := "a", targetNodeId := "c", maxDepth := 2 } =
      .ok ⟨.paths, rowNodes, rowEdges, [⟨["a", "b", "c"], rowEdges⟩]⟩ ∧
    ∃ found : List PartialPath, [(⟨["a", "b", "c"], rowEdges⟩ : GraphQueryPath)] =
      found.map (QueryGraph.of rowNodes rowEdges []).queryPath ∧ found.length ≤ 50 := by
  have answered : graphQuery rowNodes rowEdges
      { operation := .paths, startNodeId := "a", targetNodeId := "c", maxDepth := 2 } =
      .ok ⟨.paths, rowNodes, rowEdges, [⟨["a", "b", "c"], rowEdges⟩]⟩ := rfl
  obtain ⟨found, shape, short, -⟩ := graphQuery_paths rowNodes rowEdges
    { operation := .paths, startNodeId := "a", targetNodeId := "c", maxDepth := 2 } rfl (by decide)
    _ answered
  exact ⟨answered, found, shape, short⟩

/-! ## Self-contained responses -/

structure GraphQueryResponse.SelfContained (response : GraphQueryResponse) : Prop where
  nodes : ∀ path ∈ response.paths, ∀ nodeId ∈ path.nodeIds,
    nodeId ∈ response.nodes.map GraphNode.id
  edges : ∀ path ∈ response.paths, ∀ edge ∈ path.edges, edge ∈ response.edges

namespace QueryGraph

/-- The different edges on the first simple paths a request asks for, in order. -/
def pathPositions (graph : QueryGraph) (request : GraphQueryRequest) : List Nat :=
  Keyed.firstWins id ((graph.firstSimplePaths request).flatMap PartialPath.edgeIndexes)

/-- After as many edges as the limit of paths, the paths run along equal edges only. -/
def EdgesFit (graph : QueryGraph) (request : GraphQueryRequest) : Prop :=
  request.startNodeId = request.targetNodeId ∨
    ∀ index ∈ (graph.pathPositions request).drop request.limit,
      ∃ earlier ∈ (graph.pathPositions request).take request.limit,
        graph.edges[earlier]? = graph.edges[index]?

/-- The first edges are those at the first positions. -/
theorem take_edgesAt {graph : QueryGraph} {indexes : List Nat}
    (stored : ∀ index ∈ indexes, ∃ edge, graph.edges[index]? = some edge) (limit : Nat) :
    (graph.edgesAt indexes).take limit = graph.edgesAt (indexes.take limit) := by
  induction indexes generalizing limit with
  | nil => simp [edgesAt]
  | cons index rest inductionHypothesis =>
      obtain ⟨edge, found⟩ := stored index List.mem_cons_self
      cases limit with
      | zero => simp [edgesAt]
      | succ limit =>
          have later := inductionHypothesis
            (fun other among => stored other (List.mem_cons_of_mem index among)) limit
          rw [edgesAt, List.filterMap_cons_some found, List.take_succ_cons, List.take_succ_cons,
            edgesAt, List.filterMap_cons_some found]
          exact congrArg (List.cons edge) later

/-- A response for paths is self-contained if and only if the edges on the paths fit its limit. -/
theorem graphQuery_selfContained (nodes : List GraphNode) (edges : List GraphEdge)
    (request : GraphQueryRequest) (operation : request.operation = .paths)
    (response : GraphQueryResponse) (answered : graphQuery nodes edges request = .ok response) :
    response.SelfContained ↔
      (QueryGraph.of nodes edges request.relationAllowlist).EdgesFit request := by
  let graph := QueryGraph.of nodes edges request.relationAllowlist
  unfold graphQuery at answered
  rw [operation] at answered
  obtain ⟨startKnown, -, shape⟩ := paths_answered answered
  by_cases same : request.startNodeId = request.targetNodeId
  · rw [if_pos same] at shape
    refine ⟨fun _ => .inl same, fun _ => ?_⟩
    have ids := @map_id_response nodes edges request.relationAllowlist request
      [request.startNodeId] [] [⟨[request.startNodeId], []⟩] (by simpa using startKnown)
    rw [← shape] at ids
    constructor
    · intro path among
      rw [shape] at among
      rw [List.mem_singleton.mp among, ids]
      exact fun _ among => among
    · intro path among
      rw [shape] at among
      rw [List.mem_singleton.mp among]
      simp
  · rw [if_neg same] at shape
    let search := graph.searchPaths request.direction request.startNodeId request.targetNodeId
      request.maxDepth request.limit
    have found : search.paths = graph.firstSimplePaths request := searchPaths_paths same _ _
    have recorded : Recorded request.limit search := searchPaths_recorded _ _
    have simple : ∀ path ∈ graph.firstSimplePaths request,
        graph.SimplePath request.direction request.startNodeId path :=
      fun path among => (mem_firstSimplePaths same among).1
    have mem_nodeIds : ∀ path ∈ graph.firstSimplePaths request, ∀ nodeId ∈ path.nodeIds,
        nodeId ∈ search.nodeIds := by
      intro path among nodeId nodeIn
      have listed := @Keyed.mem_map_firstWins_iff _ _ _ id
        (search.paths.flatMap PartialPath.nodeIds) nodeId
      rw [List.map_id, List.map_id] at listed
      rw [recorded.nodeIds, listed, found]
      exact List.mem_flatMap.mpr ⟨path, among, nodeIn⟩
    have ids : response.nodes.map GraphNode.id = search.nodeIds := by
      rw [shape]
      refine map_id_response fun nodeId among => ?_
      have listed := Keyed.mem_of_mem_firstWins (recorded.nodeIds ▸ among)
      rw [found] at listed
      obtain ⟨path, pathIn, nodeIn⟩ := List.mem_flatMap.mp listed
      exact (simple path pathIn).known startKnown nodeId nodeIn
    have positions : search.edgeIndexes = graph.pathPositions request := by
      rw [recorded.edgeIndexes, found]
      rfl
    have mem_positions : ∀ index, index ∈ graph.pathPositions request ↔
        ∃ path ∈ graph.firstSimplePaths request, index ∈ path.edgeIndexes := by
      intro index
      have listed := @Keyed.mem_map_firstWins_iff _ _ _ id
        ((graph.firstSimplePaths request).flatMap PartialPath.edgeIndexes) index
      rw [List.map_id, List.map_id] at listed
      rw [pathPositions, listed, List.mem_flatMap]
    have joined : ∀ index ∈ graph.pathPositions request, ∃ edge,
        graph.edges[index]? = some edge ∧ edge.source ∈ search.nodeIds ∧
          edge.target ∈ search.nodeIds := by
      intro index among
      obtain ⟨path, pathIn, onPath⟩ := (mem_positions index).mp among
      obtain ⟨edge, stored, source, target⟩ := (simple path pathIn).joins index onPath
      exact ⟨edge, stored, mem_nodeIds path pathIn _ source, mem_nodeIds path pathIn _ target⟩
    have responseEdges : response.edges =
        graph.edgesAt ((graph.pathPositions request).take request.limit) := by
      have closed : edgesBetween search.nodeIds (graph.edgesAt (graph.pathPositions request)) =
          graph.edgesAt (graph.pathPositions request) := by
        refine List.filter_eq_self.mpr fun edge among => ?_
        obtain ⟨index, indexIn, stored⟩ := mem_edgesAt.mp among
        obtain ⟨other, otherStored, source, target⟩ := joined index indexIn
        obtain rfl := Option.some.inj (stored.symm.trans otherStored)
        simp [source, target]
      have cut := take_edgesAt (fun index among => (joined index among).imp fun _ all => all.1)
        request.limit
      rw [← cut, ← closed, shape]
      change (edgesBetween search.nodeIds
        (graph.edgesAt (Keyed.firstWins id search.edgeIndexes))).take request.limit = _
      rw [positions, firstWins_distinct]
      have distinct := Keyed.nodup_map_firstWins id
        ((graph.firstSimplePaths request).flatMap PartialPath.edgeIndexes)
      rwa [List.map_id] at distinct
    have paths : response.paths = (graph.firstSimplePaths request).map graph.queryPath := by
      rw [shape]
      exact congrArg (List.map graph.queryPath) found
    constructor
    · rintro ⟨-, contained⟩
      refine .inr fun index among => ?_
      have listed := List.mem_of_mem_drop among
      obtain ⟨path, pathIn, onPath⟩ := (mem_positions index).mp listed
      obtain ⟨edge, stored, -⟩ := joined index listed
      have returned := contained (graph.queryPath path) (paths ▸ List.mem_map_of_mem pathIn) edge
        (mem_edgesAt.mpr ⟨index, onPath, stored⟩)
      rw [responseEdges] at returned
      obtain ⟨earlier, earlierIn, earlierStored⟩ := mem_edgesAt.mp returned
      exact ⟨earlier, earlierIn, earlierStored.trans stored.symm⟩
    · rintro (equal | fit)
      · exact absurd equal same
      · constructor
        · intro path among nodeId nodeIn
          rw [paths] at among
          obtain ⟨simplePath, pathIn, rfl⟩ := List.mem_map.mp among
          exact ids ▸ mem_nodeIds simplePath pathIn nodeId nodeIn
        · intro path among edge onPath
          rw [paths] at among
          obtain ⟨simplePath, pathIn, rfl⟩ := List.mem_map.mp among
          obtain ⟨index, indexIn, stored⟩ := mem_edgesAt.mp onPath
          have listed := (mem_positions index).mpr ⟨simplePath, pathIn, indexIn⟩
          rw [responseEdges]
          rw [← List.take_append_drop request.limit (graph.pathPositions request)] at listed
          rcases List.mem_append.mp listed with early | late
          · exact mem_edgesAt.mpr ⟨index, early, stored⟩
          · obtain ⟨earlier, earlierIn, equal⟩ := fit index late
            exact mem_edgesAt.mpr ⟨earlier, earlierIn, equal.trans stored⟩

theorem graphQuery_selfContained_row :
    (QueryGraph.of rowNodes rowEdges []).EdgesFit
      { operation := .paths, startNodeId := "a", targetNodeId := "c", maxDepth := 2 } := by
  refine (graphQuery_selfContained rowNodes rowEdges
    { operation := .paths, startNodeId := "a", targetNodeId := "c", maxDepth := 2 } rfl
    ⟨.paths, rowNodes, rowEdges, [⟨["a", "b", "c"], rowEdges⟩]⟩ rfl).mp ⟨by decide, ?_⟩
  intro path among edge inside
  obtain rfl := List.mem_singleton.mp among
  exact inside

/-- One path of two edges is asked for, and one of them is returned. -/
theorem graphQuery_row_cut :
    ¬ ∀ (nodes : List GraphNode) (edges : List GraphEdge) (request : GraphQueryRequest)
        (response : GraphQueryResponse), request.operation = .paths →
        graphQuery nodes edges request = .ok response → response.SelfContained := by
  intro claimed
  have contained := claimed rowNodes rowEdges
    { operation := .paths, startNodeId := "a", targetNodeId := "c", maxDepth := 2, limit := 1 }
    ⟨.paths, rowNodes, rowEdges.take 1, [⟨["a", "b", "c"], rowEdges⟩]⟩ rfl rfl
  have returned := contained.edges ⟨["a", "b", "c"], rowEdges⟩ List.mem_cons_self
    ⟨"b", "c", "links_to", []⟩ (List.mem_cons_of_mem _ List.mem_cons_self)
  have single : (⟨"b", "c", "links_to", []⟩ : GraphEdge) = ⟨"a", "b", "links_to", []⟩ :=
    List.mem_singleton.mp returned
  exact absurd (congrArg GraphEdge.source single) (by decide)

end QueryGraph

end LlmWikiServe
