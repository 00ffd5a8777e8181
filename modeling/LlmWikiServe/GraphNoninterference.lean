import LlmWikiServe.GraphWithholding

/-!
# What drafts change in the approved view

Two wikis that differ in the contents of their drafts only have the same approved
view up to what drafts bring into it: a node that an approved page uses as well
carries the label, kind and metadata of the page that mentions it first, and a draft
with the id or the path of an approved page is shown with its own node and edges.
-/

namespace LlmWikiServe

section Wikis

variable [Unicode]

/-- Pages at the same position of two wikis that differ in their drafts only. -/
structure WikiPage.SameExceptDrafts (first second : WikiPage) : Prop where
  id : first.id = second.id
  path : first.path = second.path
  title : first.title = second.title
  role : first.role = second.role
  approved : first.approvedForServing = second.approvedForServing
  served : first.approvedForServing = true → first = second

structure LoadedWiki.SameExceptDrafts (first second : LoadedWiki) : Prop where
  root : first.root = second.root
  adapter : first.adapter = second.adapter
  implementation : first.implementation = second.implementation
  metadata : first.metadata = second.metadata
  sidecar : first.sidecarGraphEdges = second.sidecarGraphEdges
  pages : List.Forall₂ WikiPage.SameExceptDrafts first.pages second.pages

end Wikis

/-- Views with the same node ids, the same data for every node and the same edges. -/
structure GraphView.Agrees (first second : GraphView) : Prop where
  nodeIds : ∀ id, id ∈ first.nodes.map GraphNode.id ↔ id ∈ second.nodes.map GraphNode.id
  nodes : ∀ node ∈ first.nodes, ∀ other ∈ second.nodes, node.id = other.id →
    node.label = other.label ∧ node.kind = other.kind ∧ node.path = other.path ∧
      node.metadata = other.metadata
  edges : ∀ edge, edge ∈ first.edges ↔ edge ∈ second.edges

section Mentions

variable [Unicode] [Interpreter]

namespace LoadedWiki

/-- The nodes a page mentions: its headings, OKF data, references, tags and open links. -/
def mentions (loaded : LoadedWiki) (page : WikiPage) : List GraphNode :=
  (projectPage loaded.lookup page).nodes

/-- The first mention of a node in page order, then in the hierarchy and the sidecar files. -/
def firstMention (loaded : LoadedWiki) (id : Text) : Option GraphNode :=
  Keyed.first? GraphNode.id id
    (loaded.pages.flatMap loaded.mentions ++ loaded.structuralContributions.nodes)

/-- The first page with an id, whose node stands for all of them. -/
def owner (loaded : LoadedWiki) (pageId : Text) : Option WikiPage :=
  loaded.pages.find? fun page => page.id = pageId

/-- A page stands for its id, which is an approved page's, or has the path of an approved page. -/
def ShowsPage (loaded : LoadedWiki) (page : WikiPage) : Prop :=
  loaded.owner page.id = some page ∧
    (pageNodeId page.id ∈ approvedPageIds loaded.pages ∨
      (page.path ≠ [] ∧ page.path ∈ approvedPaths loaded.pages))

/-- A page with an approved page's id mentions the node, or the hierarchy or a sidecar file joins
it to one. -/
def JoinedToApproved (loaded : LoadedWiki) (id : Text) : Prop :=
  (∃ page ∈ loaded.pages, pageNodeId page.id ∈ approvedPageIds loaded.pages ∧
      id ∈ (loaded.mentions page).map GraphNode.id) ∨
    ∃ edge ∈ loaded.structuralContributions.edges,
      (edge.source ∈ approvedPageIds loaded.pages ∧ edge.target = id) ∨
        (edge.target ∈ approvedPageIds loaded.pages ∧ edge.source = id)

/-- A node that is no page node is joined to an approved page or first mentioned under the path of
one. -/
def BringsIn (loaded : LoadedWiki) (id : Text) : Prop :=
  isPageNodeId id = false ∧
    (loaded.JoinedToApproved id ∨
      ∃ node, loaded.firstMention id = some node ∧ node.path ≠ [] ∧
        node.path ∈ approvedPaths loaded.pages)

def Shows (loaded : LoadedWiki) (id : Text) : Prop :=
  (∃ page, loaded.ShowsPage page ∧ pageNodeId page.id = id) ∨ loaded.BringsIn id

/-- The path of the first page that lends one to a node. -/
def lentPath (loaded : LoadedWiki) (id : Text) : Option Text :=
  Keyed.get? (loaded.emission.edges.flatMap (lentPaths (approvedPagePaths loaded.pages))) id

/-- What the approved view shows of a mentioned node. -/
def shownData (loaded : LoadedWiki) (node : GraphNode) : Text × Text × Text × Metadata :=
  (node.label, node.kind, (loaded.lentPath node.id).getD node.path,
    sanitizeGraphNodeMetadata (unapprovedPaths loaded.pages) node.metadata)

def saidUnder (loaded : LoadedWiki) (key : Text × Text × Text) : List GraphEdge :=
  dedupeEdges (loaded.emission.edges.filter fun edge => edge.key = key)

structure DraftsShowAlike (first second : LoadedWiki) : Prop where
  pages : ∀ draft, first.ShowsPage draft → draft.approvedForServing = false →
    (second.owner draft.id).map (pageNode second) = some (pageNode first draft)
  brought : ∀ id, first.BringsIn id ↔ second.BringsIn id
  mentions : ∀ id, first.BringsIn id →
    (first.firstMention id).map first.shownData = (second.firstMention id).map second.shownData
  edges : ∀ draft ∈ first.pages, draft.approvedForServing = false → ∀ target relation,
    first.Shows (pageNodeId draft.id) → first.Shows target →
      first.saidUnder (pageNodeId draft.id, target, relation) =
        second.saidUnder (pageNodeId draft.id, target, relation)

end LoadedWiki

end Mentions

/-! ## What both wikis compute alike -/

section Alike

variable [Unicode] {first second : LoadedWiki}

theorem filter_approved_congr {pages others : List WikiPage}
    (same : List.Forall₂ WikiPage.SameExceptDrafts pages others) :
    pages.filter WikiPage.approvedForServing = others.filter WikiPage.approvedForServing := by
  induction same with
  | nil => rfl
  | @cons page other _ _ agrees _ inductionHypothesis =>
      cases approved : page.approvedForServing with
      | true =>
          have equality := agrees.served approved
          subst equality
          simp [approved, inductionHypothesis]
      | false =>
          have otherUnapproved : other.approvedForServing = false := agrees.approved ▸ approved
          simp [approved, otherUnapproved, inductionHypothesis]

theorem approvedPageIds_congr {pages others : List WikiPage}
    (same : List.Forall₂ WikiPage.SameExceptDrafts pages others) :
    approvedPageIds pages = approvedPageIds others := by
  rw [approvedPageIds, filter_approved_congr same, approvedPageIds]

theorem approvedPaths_congr {pages others : List WikiPage}
    (same : List.Forall₂ WikiPage.SameExceptDrafts pages others) :
    approvedPaths pages = approvedPaths others := by
  rw [approvedPaths, filter_approved_congr same, approvedPaths]

theorem WikiPage.SameExceptDrafts.symm {page other : WikiPage}
    (agrees : page.SameExceptDrafts other) : other.SameExceptDrafts page where
  id := agrees.id.symm
  path := agrees.path.symm
  title := agrees.title.symm
  role := agrees.role.symm
  approved := agrees.approved.symm
  served served := (agrees.served (agrees.approved.trans served)).symm

theorem LoadedWiki.SameExceptDrafts.symm (same : first.SameExceptDrafts second) :
    second.SameExceptDrafts first where
  root := same.root.symm
  adapter := same.adapter.symm
  implementation := same.implementation.symm
  metadata := same.metadata.symm
  sidecar := same.sidecar.symm
  pages := same.pages.flip.imp fun _ _ agrees => agrees.symm

theorem find?_related {pages others : List WikiPage}
    (same : List.Forall₂ WikiPage.SameExceptDrafts pages others) {pageId : Text} {page : WikiPage}
    (found : (pages.find? fun page => page.id = pageId) = some page) :
    ∃ other, (others.find? fun page => page.id = pageId) = some other ∧
      page.SameExceptDrafts other := by
  induction same with
  | nil => simp at found
  | @cons head other _ _ agrees _ inductionHypothesis =>
      rw [List.find?_cons] at found ⊢
      rw [← agrees.id]
      split at found
      next => exact ⟨other, rfl, Option.some.inj found ▸ agrees⟩
      next => exact inductionHypothesis found

theorem showsPage_related (same : first.SameExceptDrafts second) {page : WikiPage}
    (shown : first.ShowsPage page) :
    ∃ other, second.ShowsPage other ∧ page.SameExceptDrafts other := by
  obtain ⟨owned, reached⟩ := shown
  obtain ⟨other, found, agrees⟩ := find?_related same.pages owned
  rw [approvedPageIds_congr same.pages, approvedPaths_congr same.pages, agrees.id,
    agrees.path] at reached
  exact ⟨other, ⟨agrees.id ▸ found, reached⟩, agrees⟩

theorem lookupKeys_congr (sourceRoot : Text) {page other : WikiPage}
    (agrees : page.SameExceptDrafts other) :
    lookupKeys sourceRoot page = lookupKeys sourceRoot other := by
  simp [lookupKeys, agrees.id, agrees.path, agrees.title]

theorem setKeys_related (keys : List Text) {page other : WikiPage}
    (agrees : page.SameExceptDrafts other) {lookup others : List (Text × WikiPage)}
    (related : Keyed.Related WikiPage.SameExceptDrafts lookup others) :
    Keyed.Related WikiPage.SameExceptDrafts
      (keys.foldl (fun current key => Keyed.set current (normalizeKey key) page) lookup)
      (keys.foldl (fun current key => Keyed.set current (normalizeKey key) other) others) := by
  induction keys generalizing lookup others with
  | nil => exact related
  | cons key _ inductionHypothesis => exact inductionHypothesis (related.set agrees)

theorem pageLookup_related (sourceRoot : Text) {pages others : List WikiPage}
    (same : List.Forall₂ WikiPage.SameExceptDrafts pages others) :
    Keyed.Related WikiPage.SameExceptDrafts (pageLookup pages sourceRoot)
      (pageLookup others sourceRoot) := by
  have general : ∀ {lookup otherLookup : List (Text × WikiPage)},
      Keyed.Related WikiPage.SameExceptDrafts lookup otherLookup →
      Keyed.Related WikiPage.SameExceptDrafts
        (pages.foldl (fun lookup page => (lookupKeys sourceRoot page).foldl
          (fun current key => Keyed.set current (normalizeKey key) page) lookup) lookup)
        (others.foldl (fun lookup page => (lookupKeys sourceRoot page).foldl
          (fun current key => Keyed.set current (normalizeKey key) page) lookup) otherLookup) := by
    induction same with
    | nil => exact id
    | cons agrees _ inductionHypothesis =>
        intro lookup otherLookup related
        apply inductionHypothesis
        dsimp only
        rw [lookupKeys_congr sourceRoot agrees]
        exact setKeys_related _ agrees related
  exact general .nil

theorem lookup_related (same : first.SameExceptDrafts second) :
    Keyed.Related WikiPage.SameExceptDrafts first.lookup second.lookup := by
  have roots : first.sourceRoot = second.sourceRoot := by
    simp only [LoadedWiki.sourceRoot, same.metadata]
  rw [LoadedWiki.lookup, roots]
  exact pageLookup_related second.sourceRoot same.pages

omit [Unicode] in
theorem map_congr_of_forall₂ {Result : Type} {relation : WikiPage → WikiPage → Prop}
    {pages others : List WikiPage} (related : List.Forall₂ relation pages others)
    {left right : WikiPage → Result}
    (same : ∀ page other, relation page other → left page = right other) :
    pages.map left = others.map right := by
  induction related with
  | nil => rfl
  | cons agrees _ inductionHypothesis => simp [same _ _ agrees, inductionHypothesis]

theorem graphEndpoint_congr (value path : Text) {page other : Option WikiPage}
    (ids : page.map WikiPage.id = other.map WikiPage.id) :
    graphEndpoint value page path = graphEndpoint value other path := by
  cases page <;> cases other <;> simp_all [graphEndpoint]

omit [Unicode] in
theorem endpointPath_congr {page other fallback otherFallback : Option WikiPage}
    (paths : page.map WikiPage.path = other.map WikiPage.path)
    (fallbacks : fallback.map WikiPage.path = otherFallback.map WikiPage.path) :
    endpointPath page fallback = endpointPath other otherFallback := by
  cases page <;> cases other <;> simp_all [endpointPath]

theorem projectDendronParent_congr {lookup others : List (Text × WikiPage)}
    (related : Keyed.Related WikiPage.SameExceptDrafts lookup others) {page other : WikiPage}
    (agrees : page.SameExceptDrafts other) :
    projectDendronParent lookup page = projectDendronParent others other := by
  unfold projectDendronParent
  simp only [agrees.path, agrees.id]
  split
  · rcases related.get? (normalizeKey (Text.beforeLast '.' (Text.beforeLast '.' other.path))) with
      ⟨left, right⟩ | ⟨parent, otherParent, left, right, parents⟩
    · rw [left, right]
    · rw [left, right]
      simp [parents.id]
  · rfl

variable [Interpreter]

theorem projectPage_congr {lookup others : List (Text × WikiPage)}
    (related : Keyed.Related WikiPage.SameExceptDrafts lookup others) (page : WikiPage) :
    projectPage lookup page = projectPage others page := by
  have links : ∀ link, projectLink lookup page link = projectLink others page link := by
    intro link
    unfold projectLink
    rcases related.get? (normalizeKey link) with
      ⟨left, right⟩ | ⟨target, otherTarget, left, right, agrees⟩
    · rw [left, right]
    · rw [left, right]
      simp [agrees.id]
  rw [projectPage, projectPage, funext links]

theorem projectGraphFact_congr {lookup others : List (Text × WikiPage)}
    (related : Keyed.Related WikiPage.SameExceptDrafts lookup others)
    (fact : SidecarGraphEdgeFact) :
    projectGraphFact lookup fact = projectGraphFact others fact := by
  have found : ∀ key, (Keyed.get? lookup key).map WikiPage.id =
        (Keyed.get? others key).map WikiPage.id ∧
      (Keyed.get? lookup key).map WikiPage.path = (Keyed.get? others key).map WikiPage.path := by
    intro key
    rcases related.get? key with ⟨left, right⟩ | ⟨page, other, left, right, agrees⟩
    · simp [left, right]
    · simp [left, right, agrees.id, agrees.path]
  have sources := found (normalizeKey (endpointValue fact.data ["from", "source"]))
  have targets := found (normalizeKey (endpointValue fact.data ["to", "target"]))
  unfold projectGraphFact
  dsimp only
  rw [endpointPath_congr sources.2 targets.2, endpointPath_congr targets.2 sources.2,
    graphEndpoint_congr _ _ sources.1, graphEndpoint_congr _ _ targets.1]

theorem structuralContributions_congr (same : first.SameExceptDrafts second) :
    first.structuralContributions = second.structuralContributions := by
  have related := lookup_related same
  unfold LoadedWiki.structuralContributions
  congr 1
  · unfold projectDendronHierarchy
    rw [same.adapter]
    split
    · rfl
    · congr 1
      exact map_congr_of_forall₂ same.pages fun _ _ agrees =>
        projectDendronParent_congr related agrees
  · unfold projectGraphJson
    rw [same.sidecar]
    congr 2
    exact funext (projectGraphFact_congr related)

/-! ## Edges no draft contributes -/

/-- Edges picked by a test that refuses what drafts contribute are the same in both wikis. -/
theorem filter_contributions_congr {lookup others : List (Text × WikiPage)}
    (related : Keyed.Related WikiPage.SameExceptDrafts lookup others)
    (keep : Text × Text × Text → Bool) {pages otherPages : List WikiPage}
    (same : List.Forall₂ WikiPage.SameExceptDrafts pages otherPages)
    (refuses : ∀ page ∈ pages, page.approvedForServing = false → ∀ target relation,
      keep (pageNodeId page.id, target, relation) = false) :
    (pages.flatMap fun page => (projectPage lookup page).edges).filter
        (fun edge => keep edge.key) =
      (otherPages.flatMap fun page => (projectPage others page).edges).filter
        (fun edge => keep edge.key) := by
  induction same with
  | nil => rfl
  | @cons page other rest otherRest agrees _ inductionHypothesis =>
      have tails := inductionHypothesis fun page pageIn =>
        refuses page (List.mem_cons_of_mem _ pageIn)
      simp only [List.flatMap_cons, List.filter_append, tails]
      congr 1
      cases approved : page.approvedForServing with
      | true => rw [agrees.served approved, projectPage_congr related]
      | false =>
          -- Every edge of a draft starts at its page node, which the test refuses.
          have dropped : ∀ table (draft : WikiPage), draft.id = page.id →
              (projectPage table draft).edges.filter (fun edge => keep edge.key) = [] := by
            intro table draft sameId
            rw [List.filter_eq_nil_iff]
            intro edge edgeIn
            have source := (projectPage_attached table draft).edge_source edge edgeIn
            have refused := refuses page List.mem_cons_self approved edge.target edge.relation
            rw [GraphEdge.key, source, sameId, refused]
            exact Bool.false_ne_true
          rw [dropped lookup page rfl, dropped others other agrees.id.symm]

theorem filter_projectWiki_edges_congr (same : first.SameExceptDrafts second)
    (keep : Text × Text × Text → Bool)
    (refuses : ∀ page ∈ first.pages, page.approvedForServing = false → ∀ target relation,
      keep (pageNodeId page.id, target, relation) = false) :
    (projectWiki first).edges.filter (fun edge => keep edge.key) =
      (projectWiki second).edges.filter (fun edge => keep edge.key) := by
  have contributed := filter_contributions_congr (lookup_related same) keep same.pages refuses
  have emitted : first.emission.edges.filter (fun edge => keep edge.key) =
      second.emission.edges.filter (fun edge => keep edge.key) := by
    simp only [LoadedWiki.emission, LoadedWiki.contributions, Emission.append_edges,
      Emission.concat_edges, List.flatMap_map, List.nil_append, List.filter_append,
      structuralContributions_congr same]
    rw [contributed]
  have merged := fun loaded : LoadedWiki =>
    Keyed.filter_mergeWins mergeEdge_key keep loaded.emission.edges
  exact (merged first).trans ((congrArg _ emitted).trans (merged second).symm)

end Alike

/-! ## Visible nodes -/

section Visible

variable [Unicode] [Interpreter] {loaded : LoadedWiki}

/-- A join of two ids survives deduplication. -/
theorem exists_projectWiki_edge_iff {joins : Text → Text → Prop} :
    (∃ edge ∈ (projectWiki loaded).edges, joins edge.source edge.target) ↔
      ∃ edge ∈ loaded.emission.edges, joins edge.source edge.target := by
  have transfer : ∀ {edges others : List GraphEdge},
      (∀ key, key ∈ edges.map GraphEdge.key → key ∈ others.map GraphEdge.key) →
      (∃ edge ∈ edges, joins edge.source edge.target) →
      ∃ edge ∈ others, joins edge.source edge.target := by
    rintro edges others keys ⟨edge, edgeIn, joined⟩
    rcases List.mem_map.mp (keys edge.key (List.mem_map_of_mem edgeIn)) with ⟨other, otherIn, same⟩
    simp only [GraphEdge.key, Prod.mk.injEq] at same
    exact ⟨other, otherIn, by rw [same.1, same.2.1]; exact joined⟩
  exact ⟨transfer fun _ => (Keyed.mem_map_mergeWins_iff mergeEdge_key).mp,
    transfer fun _ => (Keyed.mem_map_mergeWins_iff mergeEdge_key).mpr⟩

theorem adjacent_iff_joinedToApproved {id : Text} :
    id ∈ adjacentNonPageNodes (approvedPageIds loaded.pages) (projectWiki loaded).edges ↔
      isPageNodeId id = false ∧ loaded.JoinedToApproved id := by
  rw [adjacent_iff_joined, @exists_projectWiki_edge_iff _ _ loaded (fun source target =>
    (source ∈ approvedPageIds loaded.pages ∧ target = id) ∨
      (target ∈ approvedPageIds loaded.pages ∧ source = id)), LoadedWiki.JoinedToApproved]
  refine and_congr_right fun nonPage => ?_
  simp only [LoadedWiki.emission, Emission.append_edges, List.nil_append, List.mem_append]
  constructor
  · rintro ⟨edge, contributed | structural, joined⟩
    · rcases mem_contributions_edges.mp contributed with ⟨page, pageIn, edgeIn⟩
      have attached := projectPage_attached loaded.lookup page
      have source := attached.edge_source edge edgeIn
      rcases joined with ⟨approved, rfl⟩ | ⟨_, rfl⟩
      · exact Or.inl ⟨page, pageIn, source ▸ approved, attached.edge_target edge edgeIn nonPage⟩
      · simp [source] at nonPage
    · exact Or.inr ⟨edge, structural, joined⟩
  · rintro (⟨page, pageIn, approved, mentioned⟩ | ⟨edge, structural, joined⟩)
    · rcases List.mem_map.mp mentioned with ⟨node, nodeIn, rfl⟩
      rcases (projectPage_attached loaded.lookup page).node_joined node nodeIn with
        ⟨edge, edgeIn, source, target⟩
      exact ⟨edge, Or.inl (mem_contributions_edges.mpr ⟨page, pageIn, edgeIn⟩),
        Or.inl ⟨source ▸ approved, target⟩⟩
    · exact ⟨edge, Or.inr structural, joined⟩

theorem joined_mem_nodes {id : Text} (nonPage : isPageNodeId id = false)
    (joined : loaded.JoinedToApproved id) : id ∈ (projectWiki loaded).nodes.map GraphNode.id := by
  apply Keyed.mem_map_firstWins_iff.mpr
  simp only [LoadedWiki.emission, Emission.append_nodes, List.map_append, List.mem_append]
  rcases joined with ⟨page, pageIn, _, mentioned⟩ | ⟨edge, edgeIn, joined⟩
  · rcases List.mem_map.mp mentioned with ⟨node, nodeIn, rfl⟩
    exact Or.inr (Or.inl (List.mem_map_of_mem
      (mem_contributions_nodes.mpr ⟨page, pageIn, nodeIn⟩)))
  · have endpoint : id = edge.source ∨ id = edge.target := by
      rcases joined with ⟨_, target⟩ | ⟨_, source⟩
      · exact Or.inr target.symm
      · exact Or.inl source.symm
    exact Or.inr (Or.inr ((structuralContributions_structural loaded).edge_endpoint edge edgeIn id
      endpoint nonPage))

theorem first?_emission_of_nonPage {id : Text} (nonPage : isPageNodeId id = false) :
    Keyed.first? GraphNode.id id loaded.emission.nodes = loaded.firstMention id := by
  have pages : Keyed.first? GraphNode.id id (loaded.pages.map (pageNode loaded)) = none := by
    rw [Keyed.first?_eq_none_iff]
    intro node nodeIn same
    rcases List.mem_map.mp nodeIn with ⟨page, _, rfl⟩
    simp [← same, pageNode] at nonPage
  simp only [LoadedWiki.emission, Emission.append_nodes, Keyed.first?_append, pages,
    Option.none_or, LoadedWiki.firstMention, LoadedWiki.contributions, Emission.concat_nodes,
    List.flatMap_map]
  rfl

theorem first?_emission_of_page (pageId : Text) :
    Keyed.first? GraphNode.id (pageNodeId pageId) loaded.emission.nodes =
      (loaded.owner pageId).map (pageNode loaded) := by
  have pages : Keyed.first? GraphNode.id (pageNodeId pageId) (loaded.pages.map (pageNode loaded)) =
      (loaded.owner pageId).map (pageNode loaded) := by
    rw [Keyed.first?, List.find?_map, LoadedWiki.owner]
    congr 2
    funext page
    simp [pageNode, pageNodeId_injective]
  have others : Keyed.first? GraphNode.id (pageNodeId pageId)
      (loaded.contributions.append loaded.structuralContributions).nodes = none := by
    rw [Keyed.first?_eq_none_iff]
    intro node nodeIn same
    have nonPage : isPageNodeId node.id = false := by
      rw [Emission.append_nodes, List.mem_append] at nodeIn
      rcases nodeIn with contributed | structural
      · rcases mem_contributions_nodes.mp contributed with ⟨page, _, nodeIn⟩
        exact (projectPage_attached _ page).node_id node nodeIn
      · exact (structuralContributions_structural loaded).node_id node structural
    simp [same] at nonPage
  rw [LoadedWiki.emission, Emission.append_nodes, Keyed.first?_append, pages, others, Option.or_none]

theorem pageNode_mem_nodes {page : WikiPage} (owned : loaded.owner page.id = some page) :
    pageNode loaded page ∈ (projectWiki loaded).nodes := by
  apply Keyed.mem_firstWins_iff.mpr
  have found := @first?_emission_of_page _ _ loaded page.id
  rw [owned] at found
  exact found

theorem nodeVisible_pageNode {page : WikiPage} :
    nodeVisible (projectWiki loaded) (pageNode loaded page) = true ↔
      pageNodeId page.id ∈ approvedPageIds loaded.pages ∨
        (page.path ≠ [] ∧ page.path ∈ approvedPaths loaded.pages) := by
  have unjoined : pageNodeId page.id ∉
      adjacentNonPageNodes (approvedPageIds loaded.pages) (projectWiki loaded).edges := by
    intro adjacent
    have nonPage := (adjacent_iff_joined.mp adjacent).1
    simp at nonPage
  rw [nodeVisible_iff]
  exact or_congr_right (or_iff_left unjoined)

/-- The view holds the pages shown and the nodes brought in. -/
theorem visibleNodeIds_iff_shows {id : Text} :
    id ∈ visibleNodeIds (projectWiki loaded) ↔ loaded.Shows id := by
  constructor
  · intro visible
    rcases List.mem_map.mp visible with ⟨node, nodeIn, rfl⟩
    rcases List.mem_filter.mp nodeIn with ⟨known, shown⟩
    have first := Keyed.mem_firstWins_iff.mp known
    rcases mem_emission_nodes (Keyed.mem_of_mem_firstWins known) with
      ⟨page, pageIn, rfl⟩ | ⟨nonPage, _⟩
    · rw [show (pageNode loaded page).id = pageNodeId page.id from rfl,
        first?_emission_of_page] at first
      obtain ⟨owner, owned, same⟩ := Option.map_eq_some_iff.mp first
      have sameId : owner.id = page.id := pageNodeId_injective.mp (congrArg GraphNode.id same)
      rw [← same, nodeVisible_pageNode] at shown
      exact Or.inl ⟨owner, ⟨sameId ▸ owned, shown⟩, congrArg GraphNode.id same⟩
    · refine Or.inr ⟨nonPage, ?_⟩
      rcases nodeVisible_iff.mp shown with byId | ⟨located, byPath⟩ | adjacent
      · simp [isPageNodeId_of_approved byId] at nonPage
      · exact Or.inr ⟨node, (first?_emission_of_nonPage nonPage).symm.trans first, located, byPath⟩
      · exact Or.inl (adjacent_iff_joinedToApproved.mp adjacent).2
  · rintro (⟨page, ⟨owned, reached⟩, rfl⟩ | ⟨nonPage, joined | ⟨node, mentioned, located, byPath⟩⟩)
    · have known := pageNode_mem_nodes owned
      exact (visibleNodeIds_iff (projectWiki_nodes_nodup loaded) known).mpr
        (nodeVisible_pageNode.mpr reached)
    · rcases List.mem_map.mp (joined_mem_nodes nonPage joined) with ⟨node, nodeIn, rfl⟩
      apply (visibleNodeIds_iff (projectWiki_nodes_nodup loaded) nodeIn).mpr
      exact nodeVisible_iff.mpr
        (Or.inr (Or.inr (adjacent_iff_joinedToApproved.mpr ⟨nonPage, joined⟩)))
    · rw [← first?_emission_of_nonPage nonPage] at mentioned
      obtain rfl : node.id = id := Keyed.first?_key mentioned
      apply (visibleNodeIds_iff (projectWiki_nodes_nodup loaded)
        (Keyed.mem_firstWins_iff.mpr mentioned)).mpr
      exact nodeVisible_iff.mpr (Or.inr (Or.inl ⟨located, byPath⟩))

theorem bringsIn_iff {id : Text} :
    loaded.BringsIn id ↔ isPageNodeId id = false ∧ loaded.Shows id := by
  constructor
  · exact fun brought => ⟨brought.1, Or.inr brought⟩
  · rintro ⟨nonPage, ⟨page, _, rfl⟩ | brought⟩
    · simp at nonPage
    · exact brought

/-! ## Lent paths -/

omit [Unicode] [Interpreter] in
/-- Items that follow another one with their key do not matter to what is found first. -/
theorem get?_flatMap_firstWins {Item Key Name Value : Type} [DecidableEq Key] [DecidableEq Name]
    {key : Item → Key} {lent : Item → List (Name × Value)}
    (keyed : ∀ item other, key item = key other → lent item = lent other) (items : List Item)
    (name : Name) :
    Keyed.get? ((Keyed.firstWins key items).flatMap lent) name =
      Keyed.get? (items.flatMap lent) name := by
  have general : ∀ (items : List Item) (seen : List Key),
      (∀ item, key item ∈ seen → Keyed.get? (lent item) name = none) →
      Keyed.get? ((Keyed.firstWinsFrom key seen items).flatMap lent) name =
        Keyed.get? (items.flatMap lent) name := by
    intro items
    induction items with
    | nil => simp [Keyed.firstWinsFrom]
    | cons item rest inductionHypothesis =>
        intro seen without
        rw [Keyed.firstWinsFrom, List.flatMap_cons, Keyed.get?_append]
        split
        next present =>
          rw [without item present, Option.none_or]
          exact inductionHypothesis seen without
        next =>
          rw [List.flatMap_cons, Keyed.get?_append]
          cases here : Keyed.get? (lent item) name with
          | some value => rfl
          | none =>
              rw [Option.none_or, Option.none_or]
              apply inductionHypothesis
              intro other among
              rcases List.mem_cons.mp among with same | earlier
              · rw [keyed other item same, here]
              · exact without other earlier
  exact general items [] (by simp)

theorem get?_adjacentNonPagePaths (id : Text) :
    Keyed.get? (adjacentNonPagePaths loaded.pages (projectWiki loaded).edges) id =
      loaded.lentPath id := by
  have keyed : ∀ edge other : GraphEdge, edge.key = other.key →
      lentPaths (approvedPagePaths loaded.pages) edge =
        lentPaths (approvedPagePaths loaded.pages) other := by
    intro edge other same
    simp only [GraphEdge.key, Prod.mk.injEq] at same
    rw [lentPaths, lentPaths, same.1, same.2.1]
  have lent : ∀ {edges others : List GraphEdge},
      edges.map GraphEdge.key = others.map GraphEdge.key →
      edges.flatMap (lentPaths (approvedPagePaths loaded.pages)) =
        others.flatMap (lentPaths (approvedPagePaths loaded.pages)) := by
    intro edges
    induction edges with
    | nil => simp
    | cons edge rest inductionHypothesis =>
        intro others same
        cases others with
        | nil => simp at same
        | cons other others =>
            rw [List.map_cons, List.map_cons, List.cons.injEq] at same
            rw [List.flatMap_cons, List.flatMap_cons, keyed edge other same.1,
              inductionHypothesis same.2]
  rw [adjacentNonPagePaths, Keyed.get?_setDefaults, LoadedWiki.lentPath]
  exact (congrArg (Keyed.get? · id) (lent (Keyed.map_key_mergeWins mergeEdge_key _))).trans
    (get?_flatMap_firstWins keyed _ _)

/-! ## The view -/

theorem mem_view_nodeIds {id : Text} :
    id ∈ (approvedGraphView (projectWiki loaded)).nodes.map GraphNode.id ↔
      id ∈ visibleNodeIds (projectWiki loaded) := by
  constructor
  · intro membership
    rcases List.mem_map.mp membership with ⟨shown, shownIn, rfl⟩
    rcases mem_approvedGraphView_nodes.mp shownIn with ⟨node, nodeIn, visible, rfl⟩
    rw [approvedGraphNode_id]
    exact (visibleNodeIds_iff (projectWiki_nodes_nodup loaded) nodeIn).mpr visible
  · intro membership
    rcases List.mem_map.mp membership with ⟨node, nodeIn, rfl⟩
    rcases List.mem_filter.mp nodeIn with ⟨known, visible⟩
    exact List.mem_map.mpr ⟨_, mem_approvedGraphView_nodes.mpr ⟨node, known, visible, rfl⟩,
      approvedGraphNode_id _ _ node⟩

theorem mem_view_edges {edge : GraphEdge} :
    edge ∈ (approvedGraphView (projectWiki loaded)).edges ↔
      edge ∈ (projectWiki loaded).edges ∧
        edge.source ∈ visibleNodeIds (projectWiki loaded) ∧
          edge.target ∈ visibleNodeIds (projectWiki loaded) := by
  have closed : edge ∈ (approvedGraphView (projectWiki loaded)).edges ↔
      edge ∈ edgesBetween (visibleNodeIds (projectWiki loaded)) (projectWiki loaded).edges ∧
        edge.source ∈ (approvedGraphView (projectWiki loaded)).nodes.map GraphNode.id ∧
          edge.target ∈ (approvedGraphView (projectWiki loaded)).nodes.map GraphNode.id :=
    mem_edgesBetween
  rw [closed, mem_view_nodeIds, mem_view_nodeIds, mem_edgesBetween]
  tauto

theorem pageNode_mem_view {page : WikiPage} (shown : loaded.ShowsPage page) :
    pageNode loaded page ∈ (approvedGraphView (projectWiki loaded)).nodes :=
  mem_approvedGraphView_nodes.mpr ⟨pageNode loaded page, pageNode_mem_nodes shown.1,
    nodeVisible_pageNode.mpr shown.2,
    (approvedGraphNode_of_page (isPageNodeId_pageNodeId page.id)).symm⟩

theorem pageNode_of_mem_view {node : GraphNode}
    (nodeIn : node ∈ (approvedGraphView (projectWiki loaded)).nodes)
    (isPage : isPageNodeId node.id = true) :
    ∃ page, loaded.ShowsPage page ∧ node = pageNode loaded page := by
  have shows := visibleNodeIds_iff_shows.mp (mem_view_nodeIds.mp (List.mem_map_of_mem nodeIn))
  rcases shows with ⟨page, shown, sameId⟩ | ⟨nonPage, _⟩
  · rcases mem_approvedGraphView_nodes.mp nodeIn with ⟨kept, keptIn, _, rfl⟩
    rw [approvedGraphNode_id] at sameId isPage
    rw [approvedGraphNode_of_page isPage]
    have first := Keyed.mem_firstWins_iff.mp keptIn
    rw [← sameId, first?_emission_of_page, shown.1] at first
    exact ⟨page, shown, (Option.some.inj first).symm⟩
  · rw [isPage] at nonPage
    exact Bool.noConfusion nonPage

theorem mention_of_mem_view {node : GraphNode}
    (nodeIn : node ∈ (approvedGraphView (projectWiki loaded)).nodes)
    (nonPage : isPageNodeId node.id = false) :
    (loaded.firstMention node.id).map loaded.shownData =
      some (node.label, node.kind, node.path, node.metadata) := by
  rcases mem_approvedGraphView_nodes.mp nodeIn with ⟨kept, keptIn, _, rfl⟩
  rw [approvedGraphNode_id] at nonPage ⊢
  have first := Keyed.mem_firstWins_iff.mp keptIn
  rw [first?_emission_of_nonPage nonPage] at first
  rw [approvedGraphNode_of_nonPage nonPage, first, get?_adjacentNonPagePaths]
  rfl

theorem view_nodes_eq {node other : GraphNode}
    (nodeIn : node ∈ (approvedGraphView (projectWiki loaded)).nodes)
    (otherIn : other ∈ (approvedGraphView (projectWiki loaded)).nodes)
    (sameId : node.id = other.id) : node = other := by
  rcases mem_approvedGraphView_nodes.mp nodeIn with ⟨kept, keptIn, _, rfl⟩
  rcases mem_approvedGraphView_nodes.mp otherIn with ⟨otherKept, otherKeptIn, _, rfl⟩
  rw [approvedGraphNode_id, approvedGraphNode_id] at sameId
  rw [List.inj_on_of_nodup_map (projectWiki_nodes_nodup loaded) keptIn otherKeptIn sameId]

theorem saidUnder_eq (key : Text × Text × Text) :
    loaded.saidUnder key = (projectWiki loaded).edges.filter fun edge => edge.key = key :=
  (Keyed.filter_mergeWins mergeEdge_key (fun other => decide (other = key)) _).symm

theorem mem_saidUnder {edge : GraphEdge} :
    edge ∈ loaded.saidUnder edge.key ↔ edge ∈ (projectWiki loaded).edges := by
  simp [saidUnder_eq]

/-- At most one edge stands under a key. -/
theorem saidUnder_single (key : Text × Text × Text) :
    (loaded.saidUnder key).Pairwise fun _ _ => False := by
  have distinct := List.pairwise_map.mp
    (Keyed.nodup_map_mergeWins mergeEdge_key loaded.emission.edges)
  rw [saidUnder_eq]
  refine (distinct.filter _).imp_of_mem ?_
  intro edge other edgeIn otherIn different
  have edgeKey : edge.key = key := by simpa using (List.mem_filter.mp edgeIn).2
  have otherKey : other.key = key := by simpa using (List.mem_filter.mp otherIn).2
  exact different (edgeKey.trans otherKey.symm)

end Visible

section Noninterference

variable [Unicode] [Interpreter] {first second : LoadedWiki}

omit [Unicode] [Interpreter] in
theorem GraphNode.eq_of_data {node other : GraphNode} (id : node.id = other.id)
    (data : node.label = other.label ∧ node.kind = other.kind ∧ node.path = other.path ∧
      node.metadata = other.metadata) : node = other := by
  cases node
  cases other
  simp_all

theorem draftsShowAlike_of_agrees
    (agrees : (approvedGraphView (projectWiki first)).Agrees
      (approvedGraphView (projectWiki second))) : first.DraftsShowAlike second := by
  have shows : ∀ id, first.Shows id ↔ second.Shows id := by
    intro id
    rw [← visibleNodeIds_iff_shows, ← mem_view_nodeIds, agrees.nodeIds, mem_view_nodeIds,
      visibleNodeIds_iff_shows]
  have counterpart : ∀ node ∈ (approvedGraphView (projectWiki first)).nodes,
      ∃ other ∈ (approvedGraphView (projectWiki second)).nodes, other = node := by
    intro node nodeIn
    rcases List.mem_map.mp ((agrees.nodeIds _).mp (List.mem_map_of_mem nodeIn)) with
      ⟨other, otherIn, sameId⟩
    exact ⟨other, otherIn,
      (GraphNode.eq_of_data sameId.symm (agrees.nodes node nodeIn other otherIn sameId.symm)).symm⟩
  refine ⟨?_, ?_, ?_, ?_⟩
  · intro draft shown _
    rcases counterpart _ (pageNode_mem_view shown) with ⟨_, otherIn, rfl⟩
    obtain ⟨page, pageShown, same⟩ :=
      pageNode_of_mem_view otherIn (isPageNodeId_pageNodeId draft.id)
    have sameId : draft.id = page.id := pageNodeId_injective.mp (congrArg GraphNode.id same)
    rw [sameId, pageShown.1, Option.map_some, same]
  · intro id
    rw [bringsIn_iff, bringsIn_iff, shows]
  · intro id brought
    have shown := mem_view_nodeIds.mpr (visibleNodeIds_iff_shows.mpr (Or.inr brought))
    rcases List.mem_map.mp shown with ⟨node, nodeIn, rfl⟩
    rcases counterpart node nodeIn with ⟨_, otherIn, rfl⟩
    rw [mention_of_mem_view nodeIn brought.1, mention_of_mem_view otherIn brought.1]
  · intro draft _ _ target relation sourceShown targetShown
    have irreflexive : Std.Irrefl fun _ _ : GraphEdge => False := ⟨fun _ => id⟩
    have antisymmetric : Std.Antisymm fun _ _ : GraphEdge => False := ⟨fun _ _ => False.elim⟩
    refine List.Pairwise.eq_of_mem_iff (saidUnder_single _) (saidUnder_single _) fun edge => ?_
    rw [saidUnder_eq, saidUnder_eq, List.mem_filter, List.mem_filter]
    refine and_congr_left fun sameKey => ?_
    have sameKey : edge.key = (pageNodeId draft.id, target, relation) := by simpa using sameKey
    simp only [GraphEdge.key, Prod.mk.injEq] at sameKey
    have member := agrees.edges edge
    simp only [mem_view_edges, visibleNodeIds_iff_shows, ← shows, sameKey.1, sameKey.2.1,
      sourceShown, targetShown, and_true] at member
    exact member

theorem shows_of_showsAlike (same : first.SameExceptDrafts second)
    (alike : first.DraftsShowAlike second) {id : Text} : first.Shows id ↔ second.Shows id := by
  refine or_congr ⟨?_, ?_⟩ (alike.brought id)
  · rintro ⟨page, shown, rfl⟩
    obtain ⟨other, otherShown, agrees⟩ := showsPage_related same shown
    exact ⟨other, otherShown, congrArg pageNodeId agrees.id.symm⟩
  · rintro ⟨page, shown, rfl⟩
    obtain ⟨other, otherShown, agrees⟩ := showsPage_related same.symm shown
    exact ⟨other, otherShown, congrArg pageNodeId agrees.id.symm⟩

theorem pageNode_congr (same : first.SameExceptDrafts second)
    (alike : first.DraftsShowAlike second) {page other : WikiPage} (shown : first.ShowsPage page)
    (otherShown : second.ShowsPage other) (sameId : page.id = other.id) :
    pageNode first page = pageNode second other := by
  cases approved : page.approvedForServing with
  | true =>
      obtain ⟨found, foundShown, agrees⟩ := showsPage_related same shown
      have equality := agrees.served approved
      subst equality
      have owned := foundShown.1
      rw [sameId, otherShown.1] at owned
      obtain rfl := Option.some.inj owned
      simp only [pageNode, same.adapter, same.implementation, same.metadata]
  | false =>
      have shownAlike := alike.pages page shown approved
      rw [sameId, otherShown.1] at shownAlike
      exact (Option.some.inj shownAlike).symm

/-- An edge between nodes shown is the same in both wikis. -/
theorem mem_edges_congr (same : first.SameExceptDrafts second)
    (alike : first.DraftsShowAlike second) {edge : GraphEdge} (source : first.Shows edge.source)
    (target : first.Shows edge.target) :
    edge ∈ (projectWiki first).edges ↔ edge ∈ (projectWiki second).edges := by
  by_cases drafted : ∃ draft ∈ first.pages, draft.approvedForServing = false ∧
      pageNodeId draft.id = edge.source
  · obtain ⟨draft, draftIn, unapproved, sameId⟩ := drafted
    have said := alike.edges draft draftIn unapproved edge.target edge.relation (sameId ▸ source)
      target
    rw [sameId] at said
    rw [← mem_saidUnder, ← mem_saidUnder]
    exact Iff.of_eq (congrArg (edge ∈ ·) said)
  · -- No draft says anything under this key.
    have kept := filter_projectWiki_edges_congr same (fun key => decide (key = edge.key)) <| by
      intro page pageIn unapproved target relation
      rw [decide_eq_false_iff_not]
      intro sameKey
      simp only [GraphEdge.key, Prod.mk.injEq] at sameKey
      exact drafted ⟨page, pageIn, unapproved, sameKey.1⟩
    have member := congrArg (edge ∈ ·) kept
    simpa using member

/-- Wikis that differ in drafts only have the same approved view exactly when the drafts bring the
same into it. -/
theorem approvedGraphView_agrees_iff (same : first.SameExceptDrafts second) :
    (approvedGraphView (projectWiki first)).Agrees (approvedGraphView (projectWiki second)) ↔
      first.DraftsShowAlike second := by
  refine ⟨draftsShowAlike_of_agrees, fun alike => ⟨?_, ?_, ?_⟩⟩
  · intro id
    rw [mem_view_nodeIds, mem_view_nodeIds, visibleNodeIds_iff_shows, visibleNodeIds_iff_shows,
      shows_of_showsAlike same alike]
  · intro node nodeIn other otherIn sameId
    cases isPage : isPageNodeId node.id with
    | true =>
        obtain ⟨page, shown, rfl⟩ := pageNode_of_mem_view nodeIn isPage
        obtain ⟨otherPage, otherShown, rfl⟩ := pageNode_of_mem_view otherIn (sameId ▸ isPage)
        rw [pageNode_congr same alike shown otherShown (pageNodeId_injective.mp sameId)]
        exact ⟨rfl, rfl, rfl, rfl⟩
    | false =>
        have shown := visibleNodeIds_iff_shows.mp (mem_view_nodeIds.mp (List.mem_map_of_mem nodeIn))
        have data := alike.mentions node.id (bringsIn_iff.mpr ⟨isPage, shown⟩)
        rw [mention_of_mem_view nodeIn isPage, sameId,
          mention_of_mem_view otherIn (sameId ▸ isPage)] at data
        simpa using data
  · intro edge
    simp only [mem_view_edges, visibleNodeIds_iff_shows, ← shows_of_showsAlike same alike]
    exact and_congr_left fun shown => mem_edges_congr same alike shown.1 shown.2

end Noninterference

section Sample

attribute [local instance] Unicode.ascii Value.plainInterpreter

/-- A draft that may spell a tag of a later approved page differently. -/
def taggedWiki (draftTags : List Text) : LoadedWiki where
  root := ["srv", "wiki"]
  title := "Sample"
  pages :=
    [{ id := "a", title := "A", path := "a.md", role := .topic, text := [],
        reviewState := .draft, tags := draftTags },
      { id := "b", title := "B", path := "b.md", role := .topic, text := [], tags := ["foo"] }]
  sourceRootReadable := sourceRoot?_nil

theorem taggedWiki_sameExceptDrafts (tags others : List Text) :
    (taggedWiki tags).SameExceptDrafts (taggedWiki others) where
  root := rfl
  adapter := rfl
  implementation := rfl
  metadata := rfl
  sidecar := rfl
  pages :=
    .cons ⟨rfl, rfl, rfl, rfl, rfl, fun approved => Bool.noConfusion approved⟩
      (.cons ⟨rfl, rfl, rfl, rfl, rfl, fun _ => rfl⟩ .nil)

/-- A draft with this text that has the path of the approved page after it. -/
def pathSharingWiki (text : Text) : LoadedWiki where
  root := ["srv", "wiki"]
  title := "Sample"
  pages :=
    [{ id := "a", title := "A", path := "b.md", role := .topic, text := text,
        reviewState := .draft, tags := ["#foo"], links := ["b"] },
      { id := "b", title := "B", path := "b.md", role := .topic, text := [], tags := ["foo"] }]
  sourceRootReadable := sourceRoot?_nil

theorem pathSharingWiki_sameExceptDrafts (text other : Text) :
    (pathSharingWiki text).SameExceptDrafts (pathSharingWiki other) where
  root := rfl
  adapter := rfl
  implementation := rfl
  metadata := rfl
  sidecar := rfl
  pages :=
    .cons ⟨rfl, rfl, rfl, rfl, rfl, fun approved => Bool.noConfusion approved⟩
      (.cons ⟨rfl, rfl, rfl, rfl, rfl, fun _ => rfl⟩ .nil)

/-- A draft's spelling of a tag labels the tag node of an approved page. -/
theorem taggedWiki_disagrees :
    ¬ (approvedGraphView (projectWiki (taggedWiki ["Foo"]))).Agrees
        (approvedGraphView (projectWiki (taggedWiki []))) := by
  intro agrees
  have labelled : (("tag:foo", "Foo") : Text × Text) ∈
      (approvedGraphView (projectWiki (taggedWiki ["Foo"]))).nodes.map
        (fun node => (node.id, node.label)) := by decide
  have unlabelled : (("tag:foo", "foo") : Text × Text) ∈
      (approvedGraphView (projectWiki (taggedWiki []))).nodes.map
        (fun node => (node.id, node.label)) := by decide
  rcases List.mem_map.mp labelled with ⟨node, nodeIn, shown⟩
  rcases List.mem_map.mp unlabelled with ⟨other, otherIn, otherShown⟩
  simp only [Prod.mk.injEq] at shown otherShown
  have labels := (agrees.nodes node nodeIn other otherIn (shown.1.trans otherShown.1.symm)).1
  rw [shown.2, otherShown.2] at labels
  exact absurd labels (by decide)

/-- The draft shown under an approved path brings in the same with any text, and the draft's tag
brings in a label. -/
theorem taggedWiki_agrees_iff :
    (pathSharingWiki "old").DraftsShowAlike (pathSharingWiki "new") ∧
      ¬ (taggedWiki ["Foo"]).DraftsShowAlike (taggedWiki []) := by
  constructor
  · refine (approvedGraphView_agrees_iff (pathSharingWiki_sameExceptDrafts "old" "new")).mp ?_
    have same : approvedGraphView (projectWiki (pathSharingWiki "old")) =
        approvedGraphView (projectWiki (pathSharingWiki "new")) := rfl
    rw [same]
    refine ⟨fun _ => Iff.rfl, fun node nodeIn other otherIn sameId => ?_, fun _ => Iff.rfl⟩
    rw [view_nodes_eq nodeIn otherIn sameId]
    exact ⟨rfl, rfl, rfl, rfl⟩
  · intro alike
    exact taggedWiki_disagrees
      ((approvedGraphView_agrees_iff (taggedWiki_sameExceptDrafts ["Foo"] [])).mpr alike)

theorem taggedWiki_leaks_label :
    ∃ first second : LoadedWiki, first.SameExceptDrafts second ∧
      ¬ (approvedGraphView (projectWiki first)).Agrees
          (approvedGraphView (projectWiki second)) :=
  ⟨taggedWiki ["Foo"], taggedWiki [], taggedWiki_sameExceptDrafts _ _, taggedWiki_disagrees⟩

end Sample

end LlmWikiServe
