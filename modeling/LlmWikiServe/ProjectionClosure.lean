import LlmWikiServe.GraphView
import LlmWikiServe.ProjectionShape

/-!
# The projected graph is closed

Every part of the projection joins nodes it brings along and nodes of pages only, so no edge of a
projected wiki dangles.
-/

namespace LlmWikiServe

/-- A part of the projection whose edges join its own nodes and page nodes. -/
def Emission.Closed (pages : List WikiPage) (part : Emission) : Prop :=
  ∀ edge ∈ part.edges, ∀ id ∈ [edge.source, edge.target],
    id ∈ part.nodes.map GraphNode.id ∨ ∃ page ∈ pages, id = pageNodeId page.id

namespace Emission.Closed

variable {pages : List WikiPage}

theorem none : Closed pages Emission.none := by
  intro edge edgeIn
  cases edgeIn

theorem concat {parts : List Emission} (closed : ∀ part ∈ parts, Closed pages part) :
    Closed pages (Emission.concat parts) := by
  intro edge edgeIn id endpoint
  obtain ⟨part, partIn, edgeInPart⟩ := List.mem_flatMap.mp edgeIn
  refine (closed part partIn edge edgeInPart id endpoint).imp_left fun among => ?_
  obtain ⟨node, nodeIn, same⟩ := List.mem_map.mp among
  exact List.mem_map.mpr ⟨node, List.mem_flatMap.mpr ⟨part, partIn, nodeIn⟩, same⟩

theorem append {first second : Emission} (firstClosed : Closed pages first)
    (secondClosed : Closed pages second) : Closed pages (first.append second) := by
  have parts : Closed pages (Emission.concat [first, second]) := by
    apply concat
    intro part partIn
    rcases List.mem_cons.mp partIn with rfl | later
    · exact firstClosed
    · rw [List.mem_singleton.mp later]
      exact secondClosed
  simpa [Emission.concat, Emission.append] using parts

theorem single {owner : WikiPage} (ownerIn : owner ∈ pages) (node : GraphNode) (edge : GraphEdge)
    (source : edge.source = pageNodeId owner.id) (target : edge.target = node.id) :
    Closed pages ⟨[node], [edge]⟩ := by
  intro other edgeIn id endpoint
  obtain rfl := List.mem_singleton.mp edgeIn
  rw [source, target] at endpoint
  rcases List.mem_cons.mp endpoint with rfl | later
  · exact .inr ⟨owner, ownerIn, rfl⟩
  · exact .inl (by simpa using later)

/-- Two pages joined to each other. -/
theorem between {first second : WikiPage} (firstIn : first ∈ pages) (secondIn : second ∈ pages)
    (edge : GraphEdge) (source : edge.source = pageNodeId first.id)
    (target : edge.target = pageNodeId second.id) : Closed pages ⟨[], [edge]⟩ := by
  intro other edgeIn id endpoint
  obtain rfl := List.mem_singleton.mp edgeIn
  rw [source, target] at endpoint
  rcases List.mem_cons.mp endpoint with rfl | later
  · exact .inr ⟨first, firstIn, rfl⟩
  · exact .inr ⟨second, secondIn, List.mem_singleton.mp later⟩

end Emission.Closed

open Emission

/-! ## The producers -/

section Producers

variable [Unicode]

def LookupKnown (pages : List WikiPage) (lookup : List (Text × WikiPage)) : Prop :=
  ∀ key page, Keyed.get? lookup key = some page → page ∈ pages

variable {pages : List WikiPage} {page : WikiPage}

omit [Unicode] in
theorem projectHeading_closed (pageIn : page ∈ pages) (heading : Text) :
    Closed pages (projectHeading page heading) :=
  .single pageIn _ _ rfl rfl

theorem projectOkfMetadata_closed (pageIn : page ∈ pages) (okf : OkfMetadata) :
    Closed pages (projectOkfMetadata page okf) := by
  apply Closed.append
  · split
    · exact .none
    · exact .single pageIn _ _ rfl rfl
  · split
    · exact .none
    · exact .single pageIn _ _ rfl rfl

omit [Unicode] in
theorem projectSourceRef_closed (pageIn : page ∈ pages) (ref : Text) :
    Closed pages (projectSourceRef page ref) := by
  unfold projectSourceRef
  split
  · exact .none
  · exact .single pageIn _ _ rfl rfl

theorem projectTag_closed (pageIn : page ∈ pages) (tag : Text) :
    Closed pages (projectTag page tag) :=
  .single pageIn _ _ rfl rfl

theorem projectLink_closed {lookup : List (Text × WikiPage)} (known : LookupKnown pages lookup)
    (pageIn : page ∈ pages) (link : Text) : Closed pages (projectLink lookup page link) := by
  unfold projectLink
  split
  next target found => exact .between pageIn (known _ target found) _ rfl rfl
  · exact .single pageIn _ _ rfl rfl

theorem projectDendronParent_closed {lookup : List (Text × WikiPage)}
    (known : LookupKnown pages lookup) (pageIn : page ∈ pages) :
    Closed pages (projectDendronParent lookup page) := by
  unfold projectDendronParent
  dsimp only
  split
  · split
    next parent found => exact .between (known _ parent found) pageIn _ rfl rfl
    · -- The placeholder is the source here, the page the target.
      intro edge edgeIn id endpoint
      obtain rfl := List.mem_singleton.mp edgeIn
      rcases List.mem_cons.mp endpoint with rfl | later
      · exact .inl List.mem_cons_self
      · exact .inr ⟨page, pageIn, List.mem_singleton.mp later⟩
  · exact .none

variable [Interpreter]

omit [Unicode] in
theorem projectOkfSource_closed (pageIn : page ∈ pages) (source : OkfSource) :
    Closed pages (projectOkfSource page source) :=
  .single pageIn _ _ rfl rfl

theorem projectOkf_closed (pageIn : page ∈ pages) : Closed pages (projectOkf page) := by
  unfold projectOkf
  split
  · exact .none
  next okf _ =>
    refine (projectOkfMetadata_closed pageIn okf).append (.concat fun part partIn => ?_)
    obtain ⟨source, -, rfl⟩ := List.mem_map.mp partIn
    exact projectOkfSource_closed pageIn source

theorem projectPage_closed {lookup : List (Text × WikiPage)} (known : LookupKnown pages lookup)
    (pageIn : page ∈ pages) : Closed pages (projectPage lookup page) := by
  apply Closed.concat
  intro part partIn
  simp only [List.mem_cons, List.not_mem_nil, or_false] at partIn
  rcases partIn with rfl | rfl | rfl | rfl | rfl
  · refine .concat fun part partIn => ?_
    obtain ⟨heading, -, rfl⟩ := List.mem_map.mp partIn
    exact projectHeading_closed pageIn heading
  · exact projectOkf_closed pageIn
  · refine .concat fun part partIn => ?_
    obtain ⟨ref, -, rfl⟩ := List.mem_map.mp partIn
    exact projectSourceRef_closed pageIn ref
  · refine .concat fun part partIn => ?_
    obtain ⟨tag, -, rfl⟩ := List.mem_map.mp partIn
    exact projectTag_closed pageIn tag
  · refine .concat fun part partIn => ?_
    obtain ⟨link, -, rfl⟩ := List.mem_map.mp partIn
    exact projectLink_closed known pageIn link

omit [Interpreter] in
/-- An endpoint of a sidecar edge is a page or the node it brings along. -/
theorem graphEndpoint_closed {value : Text} {found : Option WikiPage} (path : Text)
    (known : ∀ page, found = some page → page ∈ pages) :
    (graphEndpoint value found path).1 ∈ (graphEndpoint value found path).2.map GraphNode.id ∨
      ∃ page ∈ pages, (graphEndpoint value found path).1 = pageNodeId page.id := by
  cases found with
  | some page => exact .inr ⟨page, known page rfl, rfl⟩
  | none => exact .inl List.mem_cons_self

theorem projectGraphFact_closed {lookup : List (Text × WikiPage)} (known : LookupKnown pages lookup)
    (fact : SidecarGraphEdgeFact) : Closed pages (projectGraphFact lookup fact) := by
  unfold projectGraphFact
  dsimp only
  split
  · exact .none
  · intro edge edgeIn id endpoint
    obtain rfl := List.mem_singleton.mp edgeIn
    rw [List.map_append]
    rcases List.mem_cons.mp endpoint with rfl | later
    · exact (graphEndpoint_closed _ (known _)).imp_left fun among => List.mem_append_left _ among
    · obtain rfl := List.mem_singleton.mp later
      exact (graphEndpoint_closed _ (known _)).imp_left fun among => List.mem_append_right _ among

omit [Interpreter] in
theorem lookup_known (loaded : LoadedWiki) : LookupKnown loaded.pages loaded.lookup :=
  fun _ _ found => lookup_page_mem loaded.pages loaded.sourceRoot found

theorem contributions_closed (loaded : LoadedWiki) :
    Closed loaded.pages loaded.contributions := by
  refine .concat fun part partIn => ?_
  obtain ⟨page, pageIn, rfl⟩ := List.mem_map.mp partIn
  exact projectPage_closed (lookup_known loaded) pageIn

theorem structuralContributions_closed (loaded : LoadedWiki) :
    Closed loaded.pages loaded.structuralContributions := by
  apply Closed.append
  · unfold projectDendronHierarchy
    split
    · exact .none
    · refine .concat fun part partIn => ?_
      obtain ⟨page, pageIn, rfl⟩ := List.mem_map.mp partIn
      exact projectDendronParent_closed (lookup_known loaded) pageIn
  · refine .concat fun part partIn => ?_
    obtain ⟨fact, -, rfl⟩ := List.mem_map.mp partIn
    exact projectGraphFact_closed (lookup_known loaded) fact

/-! ## The projection -/

/-- Before deduplication every edge joins two nodes. -/
theorem emission_closed (loaded : LoadedWiki) :
    ∀ edge ∈ loaded.emission.edges, ∀ id ∈ [edge.source, edge.target],
      id ∈ loaded.emission.nodes.map GraphNode.id := by
  intro edge edgeIn id endpoint
  have closed := (contributions_closed loaded).append (structuralContributions_closed loaded)
  have nodes : loaded.emission.nodes.map GraphNode.id =
      loaded.pages.map (fun page => pageNodeId page.id) ++
        (loaded.contributions.append loaded.structuralContributions).nodes.map GraphNode.id := by
    simp only [LoadedWiki.emission, Emission.append_nodes, List.map_append, List.map_map]
    rfl
  rw [nodes, List.mem_append]
  rcases closed edge edgeIn id endpoint with own | ⟨page, pageIn, rfl⟩
  · exact .inr own
  · exact .inl (List.mem_map_of_mem pageIn)

omit [Unicode] [Interpreter] in
theorem mem_dedupeEdges_key {edges : List GraphEdge} {edge : GraphEdge}
    (kept : edge ∈ dedupeEdges edges) : ∃ original ∈ edges, original.key = edge.key :=
  List.mem_map.mp ((Keyed.mem_map_mergeWins_iff mergeEdge_key).mp (List.mem_map_of_mem kept))

/-- Ids and triples of a projected wiki are distinct, its edges join its nodes, and the view of
all nodes drops none of them. -/
theorem projectWiki_wellFormed (loaded : LoadedWiki) :
    ((projectWiki loaded).nodes.map GraphNode.id).Nodup ∧
      ((projectWiki loaded).edges.map GraphEdge.key).Nodup ∧
      (∀ edge ∈ (projectWiki loaded).edges,
        edge.source ∈ (projectWiki loaded).nodes.map GraphNode.id ∧
          edge.target ∈ (projectWiki loaded).nodes.map GraphNode.id) ∧
      (GraphView.build (projectWiki loaded).nodes (projectWiki loaded).edges).edges =
        (projectWiki loaded).edges := by
  have joined : ∀ edge ∈ (projectWiki loaded).edges,
      edge.source ∈ (projectWiki loaded).nodes.map GraphNode.id ∧
        edge.target ∈ (projectWiki loaded).nodes.map GraphNode.id := by
    intro edge edgeIn
    obtain ⟨original, originalIn, same⟩ := mem_dedupeEdges_key edgeIn
    have source : original.source = edge.source := congrArg Prod.fst same
    have target : original.target = edge.target := congrArg (fun key => key.2.1) same
    have closed := emission_closed loaded original originalIn
    exact ⟨Keyed.mem_map_firstWins_iff.mpr (source ▸ closed original.source (by simp)),
      Keyed.mem_map_firstWins_iff.mpr (target ▸ closed original.target (by simp))⟩
  refine ⟨Keyed.nodup_map_firstWins _ _, Keyed.nodup_map_mergeWins mergeEdge_key _, joined, ?_⟩
  refine List.filter_eq_self.mpr fun edge edgeIn => ?_
  simpa using joined edge edgeIn

end Producers

end LlmWikiServe
