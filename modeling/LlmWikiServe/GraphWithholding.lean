import LlmWikiServe.GraphView
import LlmWikiServe.ProjectionShape

/-!
# The approved view shows nothing of an unapproved page

With distinct ids and paths, neither the nodes of unapproved pages nor their paths
survive in the approved view, and every edge joins two nodes of the view.
-/

namespace LlmWikiServe

/-! ## Edges between ids -/

theorem mem_edgesBetween {ids : List Text} {edges : List GraphEdge} {edge : GraphEdge} :
    edge ∈ edgesBetween ids edges ↔ edge ∈ edges ∧ edge.source ∈ ids ∧ edge.target ∈ ids := by
  simp [edgesBetween]

theorem GraphView.build_closed {nodes : List GraphNode} {edges : List GraphEdge} {edge : GraphEdge}
    (membership : edge ∈ (GraphView.build nodes edges).edges) :
    edge.source ∈ (GraphView.build nodes edges).nodes.map GraphNode.id ∧
      edge.target ∈ (GraphView.build nodes edges).nodes.map GraphNode.id :=
  (mem_edgesBetween.mp membership).2

@[simp]
theorem approvedGraphNode_id (lent : List (Text × Text)) (withheld : List Text)
    (node : GraphNode) : (approvedGraphNode lent withheld node).id = node.id := by
  unfold approvedGraphNode
  split <;> rfl

theorem approvedGraphNode_of_page {lent : List (Text × Text)} {withheld : List Text}
    {node : GraphNode} (page : isPageNodeId node.id = true) :
    approvedGraphNode lent withheld node = node := by
  simp [approvedGraphNode, page]

theorem approvedGraphNode_of_nonPage {lent : List (Text × Text)} {withheld : List Text}
    {node : GraphNode} (nonPage : isPageNodeId node.id = false) :
    approvedGraphNode lent withheld node =
      { node with
        path := (Keyed.get? lent node.id).getD node.path
        metadata := sanitizeGraphNodeMetadata withheld node.metadata } := by
  simp [approvedGraphNode, nonPage]

theorem mem_adjacentNonPageNodes {approvedPages : List Text} {edges : List GraphEdge} {id : Text} :
    id ∈ adjacentNonPageNodes approvedPages edges ↔
      ∃ edge ∈ edges, (edge.source ∈ approvedPages ∨ edge.target ∈ approvedPages) ∧
        (id = edge.source ∨ id = edge.target) ∧ isPageNodeId id = false := by
  simp only [adjacentNonPageNodes, nonPageEndpoints, List.mem_flatMap, List.mem_filter,
    decide_eq_true_eq, List.mem_cons, List.not_mem_nil, or_false, Bool.not_eq_true',
    and_assoc]

section Visibility

variable [Unicode]

theorem mem_approvedPaths {pages : List WikiPage} {path : Text} :
    path ∈ approvedPaths pages ↔
      ∃ page ∈ pages, page.approvedForServing = true ∧ page.path = path := by
  simp [approvedPaths, and_assoc]

theorem mem_unapprovedPaths {pages : List WikiPage} {path : Text} :
    path ∈ unapprovedPaths pages ↔
      ∃ page ∈ pages, page.approvedForServing = false ∧ page.path = path := by
  simp [unapprovedPaths, and_assoc]

theorem mem_approvedPageIds {pages : List WikiPage} {id : Text} :
    id ∈ approvedPageIds pages ↔
      ∃ page ∈ pages, page.approvedForServing = true ∧ pageNodeId page.id = id := by
  simp [approvedPageIds, and_assoc]

/-! ## Paths lent by approved pages -/

theorem approvedPagePaths_mem {pages : List WikiPage} {id path : Text}
    (found : Keyed.get? (approvedPagePaths pages) id = some path) :
    ∃ page ∈ pages, page.approvedForServing = true ∧ pageNodeId page.id = id ∧
      page.path = path := by
  rcases Keyed.mem_update (Keyed.mem_of_get? found) with inEmpty | stored
  · simp at inEmpty
  · rcases List.mem_map.mp stored with ⟨page, pageIn, same⟩
    rcases List.mem_filter.mp pageIn with ⟨known, approved⟩
    cases same
    exact ⟨page, known, approved, rfl, rfl⟩

theorem approvedPagePaths_isSome {pages : List WikiPage} {id : Text}
    (approved : id ∈ approvedPageIds pages) :
    ∃ path, Keyed.get? (approvedPagePaths pages) id = some path := by
  apply Option.isSome_iff_exists.mp
  rw [Keyed.get?_isSome_iff]
  apply Keyed.mem_map_fst_update.mpr
  right
  rcases mem_approvedPageIds.mp approved with ⟨page, pageIn, pageApproved, rfl⟩
  simp only [List.map_map, List.mem_map, List.mem_filter]
  exact ⟨page, ⟨pageIn, pageApproved⟩, rfl⟩

theorem mem_lentPaths {pages : List WikiPage} {edge : GraphEdge} {entry : Text × Text}
    (membership : entry ∈ lentPaths (approvedPagePaths pages) edge) :
    entry.2 ∈ approvedPaths pages ∧ isPageNodeId entry.1 = false := by
  have lend : ∀ {owner receiver path : Text},
      Keyed.get? (approvedPagePaths pages) owner = some path →
      path ≠ [] ∧ isPageNodeId receiver = false → entry = (receiver, path) →
      entry.2 ∈ approvedPaths pages ∧ isPageNodeId entry.1 = false := by
    rintro owner receiver path found usable rfl
    rcases approvedPagePaths_mem found with ⟨page, pageIn, approved, _, rfl⟩
    exact ⟨mem_approvedPaths.mpr ⟨page, pageIn, approved, rfl⟩, usable.2⟩
  simp only [lentPaths, List.mem_append] at membership
  rcases membership with given | given
  all_goals
    split at given
    next path found =>
      split at given
      next usable => exact lend found usable (List.mem_singleton.mp given)
      next => simp at given
    next => simp at given

theorem adjacentNonPagePaths_approved {pages : List WikiPage} {edges : List GraphEdge}
    {id path : Text} (found : Keyed.get? (adjacentNonPagePaths pages edges) id = some path) :
    path ∈ approvedPaths pages := by
  rw [adjacentNonPagePaths, Keyed.get?_setDefaults] at found
  rcases List.mem_flatMap.mp (Keyed.mem_of_get? found) with ⟨edge, _, lent⟩
  exact (mem_lentPaths lent).1

theorem isPageNodeId_of_approved {pages : List WikiPage} {id : Text}
    (approved : id ∈ approvedPageIds pages) : isPageNodeId id = true := by
  rcases mem_approvedPageIds.mp approved with ⟨page, _, _, rfl⟩
  exact isPageNodeId_pageNodeId page.id

theorem adjacent_iff_joined {pages : List WikiPage} {edges : List GraphEdge} {id : Text} :
    id ∈ adjacentNonPageNodes (approvedPageIds pages) edges ↔
      isPageNodeId id = false ∧ ∃ edge ∈ edges,
        (edge.source ∈ approvedPageIds pages ∧ edge.target = id) ∨
          (edge.target ∈ approvedPageIds pages ∧ edge.source = id) := by
  rw [mem_adjacentNonPageNodes]
  constructor
  · rintro ⟨edge, edgeIn, touches, endpoint, nonPage⟩
    refine ⟨nonPage, edge, edgeIn, ?_⟩
    rcases touches with sourceApproved | targetApproved
    · rcases endpoint with rfl | rfl
      · simp [isPageNodeId_of_approved sourceApproved] at nonPage
      · exact Or.inl ⟨sourceApproved, rfl⟩
    · rcases endpoint with rfl | rfl
      · exact Or.inr ⟨targetApproved, rfl⟩
      · simp [isPageNodeId_of_approved targetApproved] at nonPage
  · rintro ⟨nonPage, edge, edgeIn, ⟨approved, rfl⟩ | ⟨approved, rfl⟩⟩
    · exact ⟨edge, edgeIn, Or.inl approved, Or.inr rfl, nonPage⟩
    · exact ⟨edge, edgeIn, Or.inr approved, Or.inl rfl, nonPage⟩

theorem adjacent_lent {pages : List WikiPage} {edges : List GraphEdge} {id : Text}
    (located : ∀ page ∈ pages, page.approvedForServing = true → page.path ≠ [])
    (adjacent : id ∈ adjacentNonPageNodes (approvedPageIds pages) edges) :
    ∃ path, Keyed.get? (adjacentNonPagePaths pages edges) id = some path := by
  rcases adjacent_iff_joined.mp adjacent with ⟨nonPage, edge, edgeIn, joined⟩
  rw [adjacentNonPagePaths, Keyed.get?_setDefaults]
  apply Option.isSome_iff_exists.mp
  rw [Keyed.get?_isSome_iff]
  have usable : ∀ owner, owner ∈ approvedPageIds pages →
      ∃ path, Keyed.get? (approvedPagePaths pages) owner = some path ∧ path ≠ [] := by
    intro owner approved
    rcases approvedPagePaths_isSome approved with ⟨path, found⟩
    rcases approvedPagePaths_mem found with ⟨page, pageIn, pageApproved, _, rfl⟩
    exact ⟨_, found, located page pageIn pageApproved⟩
  rcases joined with ⟨approved, rfl⟩ | ⟨approved, rfl⟩
  · rcases usable _ approved with ⟨path, found, nonempty⟩
    apply List.mem_map.mpr
    refine ⟨(edge.target, path), List.mem_flatMap.mpr ⟨edge, edgeIn, ?_⟩, rfl⟩
    simp [lentPaths, found, nonempty, nonPage]
  · rcases usable _ approved with ⟨path, found, nonempty⟩
    apply List.mem_map.mpr
    refine ⟨(edge.source, path), List.mem_flatMap.mpr ⟨edge, edgeIn, ?_⟩, rfl⟩
    simp [lentPaths, found, nonempty, nonPage]

/-! ## Nodes of the view -/

structure LoadedWiki.DraftsApart (loaded : LoadedWiki) : Prop where
  id : ∀ draft ∈ loaded.pages, draft.approvedForServing = false →
    ∀ page ∈ loaded.pages, page.approvedForServing = true → draft.id ≠ page.id
  path : ∀ draft ∈ loaded.pages, draft.approvedForServing = false →
    ∀ page ∈ loaded.pages, page.approvedForServing = true → draft.path ≠ page.path
  located : ∀ page ∈ loaded.pages, page.approvedForServing = true → page.path ≠ []

theorem LoadedWiki.draftsApart_of_distinct {loaded : LoadedWiki}
    (ids : (loaded.pages.map WikiPage.id).Nodup) (paths : (loaded.pages.map WikiPage.path).Nodup)
    (located : ∀ page ∈ loaded.pages, page.path ≠ []) : loaded.DraftsApart where
  id := by
    intro draft draftIn unapproved page pageIn approved same
    rw [List.inj_on_of_nodup_map ids draftIn pageIn same, approved] at unapproved
    exact Bool.noConfusion unapproved
  path := by
    intro draft draftIn unapproved page pageIn approved same
    rw [List.inj_on_of_nodup_map paths draftIn pageIn same, approved] at unapproved
    exact Bool.noConfusion unapproved
  located page pageIn _ := located page pageIn

theorem nodeVisible_iff {index : WikiIndex} {node : GraphNode} :
    nodeVisible index node = true ↔
      node.id ∈ approvedPageIds index.pages ∨
        (node.path ≠ [] ∧ node.path ∈ approvedPaths index.pages) ∨
        node.id ∈ adjacentNonPageNodes (approvedPageIds index.pages) index.edges := by
  simp [nodeVisible, or_assoc]

theorem visibleNodeIds_iff {index : WikiIndex} (distinct : (index.nodes.map GraphNode.id).Nodup)
    {node : GraphNode} (membership : node ∈ index.nodes) :
    node.id ∈ visibleNodeIds index ↔ nodeVisible index node = true := by
  simp only [visibleNodeIds, List.mem_map, List.mem_filter]
  constructor
  · rintro ⟨other, ⟨otherIn, visible⟩, same⟩
    have equality : other = node := List.inj_on_of_nodup_map distinct otherIn membership same
    exact equality ▸ visible
  · exact fun visible => ⟨node, ⟨membership, visible⟩, rfl⟩

variable [Interpreter]

theorem projectWiki_nodes_nodup (loaded : LoadedWiki) :
    ((projectWiki loaded).nodes.map GraphNode.id).Nodup :=
  Keyed.nodup_map_firstWins GraphNode.id loaded.emission.nodes

theorem mem_approvedGraphView_nodes {loaded : LoadedWiki} {shown : GraphNode} :
    shown ∈ (approvedGraphView (projectWiki loaded)).nodes ↔
      ∃ node ∈ (projectWiki loaded).nodes, nodeVisible (projectWiki loaded) node = true ∧
        shown = approvedGraphNode
          (adjacentNonPagePaths loaded.pages (projectWiki loaded).edges)
          (unapprovedPaths loaded.pages) node := by
  have distinct := projectWiki_nodes_nodup loaded
  simp only [approvedGraphView, GraphView.build, List.mem_map, List.mem_filter,
    decide_eq_true_eq]
  constructor
  · rintro ⟨node, ⟨nodeIn, visible⟩, rfl⟩
    exact ⟨node, nodeIn, (visibleNodeIds_iff distinct nodeIn).mp visible, rfl⟩
  · rintro ⟨node, nodeIn, visible, rfl⟩
    exact ⟨node, ⟨nodeIn, (visibleNodeIds_iff distinct nodeIn).mpr visible⟩, rfl⟩

/-- When drafts share no id and no path with them, only approved pages have visible nodes. -/
theorem approved_of_visible_pageNode {loaded : LoadedWiki} (apart : loaded.DraftsApart)
    {page : WikiPage} (pageIn : page ∈ loaded.pages)
    (visible : nodeVisible (projectWiki loaded) (pageNode loaded page) = true) :
    page.approvedForServing = true := by
  by_contra draft
  have draft : page.approvedForServing = false := by simpa using draft
  rcases nodeVisible_iff.mp visible with byId | ⟨_, byPath⟩ | adjacent
  · rcases mem_approvedPageIds.mp byId with ⟨other, otherIn, approved, sameId⟩
    exact apart.id page pageIn draft other otherIn approved (pageNodeId_injective.mp sameId).symm
  · rcases mem_approvedPaths.mp byPath with ⟨other, otherIn, approved, samePath⟩
    exact apart.path page pageIn draft other otherIn approved samePath.symm
  · have nonPage := (adjacent_iff_joined.mp adjacent).1
    simp [pageNode] at nonPage

theorem visible_path_approved {loaded : LoadedWiki} (apart : loaded.DraftsApart)
    {node : GraphNode} (nonPage : isPageNodeId node.id = false)
    (visible : nodeVisible (projectWiki loaded) node = true) :
    (Keyed.get? (adjacentNonPagePaths loaded.pages (projectWiki loaded).edges) node.id).getD
      node.path ∈ approvedPaths loaded.pages := by
  cases lent : Keyed.get? (adjacentNonPagePaths loaded.pages (projectWiki loaded).edges) node.id with
  | some path => exact adjacentNonPagePaths_approved lent
  | none =>
      rcases nodeVisible_iff.mp visible with byId | ⟨_, byPath⟩ | adjacent
      · simp [isPageNodeId_of_approved byId] at nonPage
      · exact byPath
      · rcases adjacent_lent apart.located adjacent with ⟨path, found⟩
        simp [lent] at found

/-- The approved view holds no node of an unapproved page, no path of one, no metadata that
mentions one, and no edge that leaves the view. -/
theorem approvedGraphView_withholds (loaded : LoadedWiki)
    (ids : (loaded.pages.map WikiPage.id).Nodup) (paths : (loaded.pages.map WikiPage.path).Nodup)
    (named : ∀ page ∈ loaded.pages, page.id ≠ [] ∧ page.path ≠ []) :
    (∀ page ∈ loaded.pages, page.approvedForServing = false →
      ∀ node ∈ (approvedGraphView (projectWiki loaded)).nodes,
        node.id ≠ pageNodeId page.id ∧ node.path ≠ page.path ∧
          (isPageNodeId node.id = false → ∀ entry ∈ node.metadata, ∀ text,
            entry.2.Holds text → ¬ page.path <:+: text)) ∧
      ∀ edge ∈ (approvedGraphView (projectWiki loaded)).edges,
        edge.source ∈ (approvedGraphView (projectWiki loaded)).nodes.map GraphNode.id ∧
          edge.target ∈ (approvedGraphView (projectWiki loaded)).nodes.map GraphNode.id := by
  refine ⟨?_, fun edge edgeIn => GraphView.build_closed edgeIn⟩
  intro page pageIn unapproved shown shownIn
  rcases mem_approvedGraphView_nodes.mp shownIn with ⟨node, nodeIn, visible, rfl⟩
  have apart : loaded.DraftsApart :=
    loaded.draftsApart_of_distinct ids paths fun other otherIn => (named other otherIn).2
  have withheldPath : page.path ∉ approvedPaths loaded.pages := by
    intro served
    rcases mem_approvedPaths.mp served with ⟨other, otherIn, approved, samePath⟩
    exact apart.path page pageIn unapproved other otherIn approved samePath.symm
  rcases mem_emission_nodes (Keyed.mem_of_mem_firstWins nodeIn) with
    ⟨owner, ownerIn, rfl⟩ | ⟨nonPage, _⟩
  · have approved := approved_of_visible_pageNode apart ownerIn visible
    rw [approvedGraphNode_of_page (isPageNodeId_pageNodeId owner.id)]
    refine ⟨?_, ?_, ?_⟩
    · intro sameId
      exact apart.id page pageIn unapproved owner ownerIn approved
        (pageNodeId_injective.mp sameId).symm
    · intro samePath
      have samePath : owner.path = page.path := samePath
      exact withheldPath (mem_approvedPaths.mpr ⟨owner, ownerIn, approved, samePath⟩)
    · intro nonPage
      simp [pageNode] at nonPage
  · rw [approvedGraphNode_of_nonPage nonPage]
    refine ⟨?_, ?_, ?_⟩
    · intro sameId
      have sameId : node.id = pageNodeId page.id := sameId
      rw [sameId] at nonPage
      simp at nonPage
    · intro samePath
      have served := visible_path_approved apart nonPage visible
      dsimp only at samePath
      rw [samePath] at served
      exact withheldPath served
    · intro _ entry entryIn text holds
      exact sanitized_withholds (mem_unapprovedPaths.mpr ⟨page, pageIn, unapproved, rfl⟩)
        (named page pageIn).2 entryIn holds

end Visibility

section Sample

attribute [local instance] Unicode.ascii Value.plainInterpreter

/-- An approved page and a draft that share a tag and a link target. -/
def sharingWiki : LoadedWiki where
  root := ["srv", "wiki"]
  title := "Sample"
  pages :=
    [{ id := "intro", title := "Intro", path := "intro.md", role := .topic, text := [],
        tags := ["#Shared"], links := ["missing"] },
      { id := "plan", title := "Plan", path := "plan.md", role := .topic, text := [],
        reviewState := .draft, tags := ["shared"], links := ["missing", "intro"] }]
  sourceRootReadable := sourceRoot?_nil

theorem sharingWiki_withholds :
    (sharingWiki.pages.map WikiPage.path = ["intro.md", "plan.md"]) ∧
      ∀ page ∈ sharingWiki.pages, page.approvedForServing = false →
        ∀ node ∈ (approvedGraphView (projectWiki sharingWiki)).nodes,
          node.id ≠ pageNodeId page.id ∧ node.path ≠ page.path ∧
            (isPageNodeId node.id = false → ∀ entry ∈ node.metadata, ∀ text,
              entry.2.Holds text → ¬ page.path <:+: text) :=
  ⟨by decide, (approvedGraphView_withholds sharingWiki (by decide) (by decide) (by decide)).1⟩

end Sample

end LlmWikiServe
