import LlmWikiServe.Projection

/-!
# What each part of the projection contributes

Every contribution of a page is attached to the page's own node and carries its path;
hierarchy and sidecar contributions carry the path of a page they are joined to.
-/

namespace LlmWikiServe

structure Emission.AttachedTo (owner : WikiPage) (part : Emission) : Prop where
  node_path : ∀ node ∈ part.nodes, node.path = owner.path
  node_id : ∀ node ∈ part.nodes, isPageNodeId node.id = false
  node_joined : ∀ node ∈ part.nodes, ∃ edge ∈ part.edges,
    edge.source = pageNodeId owner.id ∧ edge.target = node.id
  edge_source : ∀ edge ∈ part.edges, edge.source = pageNodeId owner.id
  edge_target : ∀ edge ∈ part.edges, isPageNodeId edge.target = false →
    edge.target ∈ part.nodes.map GraphNode.id

namespace Emission.AttachedTo

variable {owner : WikiPage}

theorem none : AttachedTo owner Emission.none where
  node_path := by simp
  node_id := by simp
  node_joined := by simp
  edge_source := by simp
  edge_target := by simp

theorem concat {parts : List Emission} (attached : ∀ part ∈ parts, AttachedTo owner part) :
    AttachedTo owner (Emission.concat parts) where
  node_path := by
    intro node nodeIn
    rcases List.mem_flatMap.mp nodeIn with ⟨part, partIn, nodeInPart⟩
    exact (attached part partIn).node_path node nodeInPart
  node_id := by
    intro node nodeIn
    rcases List.mem_flatMap.mp nodeIn with ⟨part, partIn, nodeInPart⟩
    exact (attached part partIn).node_id node nodeInPart
  node_joined := by
    intro node nodeIn
    rcases List.mem_flatMap.mp nodeIn with ⟨part, partIn, nodeInPart⟩
    rcases (attached part partIn).node_joined node nodeInPart with ⟨edge, edgeIn, joined⟩
    exact ⟨edge, List.mem_flatMap.mpr ⟨part, partIn, edgeIn⟩, joined⟩
  edge_source := by
    intro edge edgeIn
    rcases List.mem_flatMap.mp edgeIn with ⟨part, partIn, edgeInPart⟩
    exact (attached part partIn).edge_source edge edgeInPart
  edge_target := by
    intro edge edgeIn external
    rcases List.mem_flatMap.mp edgeIn with ⟨part, partIn, edgeInPart⟩
    have targetIn := (attached part partIn).edge_target edge edgeInPart external
    rcases List.mem_map.mp targetIn with ⟨node, nodeInPart, same⟩
    exact List.mem_map.mpr ⟨node, List.mem_flatMap.mpr ⟨part, partIn, nodeInPart⟩, same⟩

theorem append {first second : Emission} (firstAttached : AttachedTo owner first)
    (secondAttached : AttachedTo owner second) : AttachedTo owner (first.append second) := by
  have parts : AttachedTo owner (Emission.concat [first, second]) := by
    apply concat
    intro part partIn
    rcases List.mem_cons.mp partIn with rfl | later
    · exact firstAttached
    · rw [List.mem_singleton.mp later]
      exact secondAttached
  simpa [Emission.concat, Emission.append] using parts

theorem single (node : GraphNode) (edge : GraphEdge) (path : node.path = owner.path)
    (id : isPageNodeId node.id = false) (source : edge.source = pageNodeId owner.id)
    (target : edge.target = node.id) : AttachedTo owner ⟨[node], [edge]⟩ where
  node_path := by simpa using path
  node_id := by simpa using id
  node_joined := by simpa using ⟨source, target⟩
  edge_source := by simpa using source
  edge_target := by simp [target]

end Emission.AttachedTo

structure Emission.Structural (pages : List WikiPage) (part : Emission) : Prop where
  node_id : ∀ node ∈ part.nodes, isPageNodeId node.id = false
  node_joined : ∀ node ∈ part.nodes, node.path ≠ [] → ∃ page ∈ pages, node.path = page.path ∧
    ∃ edge ∈ part.edges, (edge.source = pageNodeId page.id ∧ edge.target = node.id) ∨
      (edge.source = node.id ∧ edge.target = pageNodeId page.id)
  edge_endpoint : ∀ edge ∈ part.edges, ∀ id, id = edge.source ∨ id = edge.target →
    isPageNodeId id = false → id ∈ part.nodes.map GraphNode.id

namespace Emission.Structural

variable {pages : List WikiPage}

theorem none : Structural pages Emission.none where
  node_id := by simp
  node_joined := by simp
  edge_endpoint := by simp

theorem concat {parts : List Emission} (structural : ∀ part ∈ parts, Structural pages part) :
    Structural pages (Emission.concat parts) where
  node_id := by
    intro node nodeIn
    rcases List.mem_flatMap.mp nodeIn with ⟨part, partIn, nodeInPart⟩
    exact (structural part partIn).node_id node nodeInPart
  node_joined := by
    intro node nodeIn located
    rcases List.mem_flatMap.mp nodeIn with ⟨part, partIn, nodeInPart⟩
    rcases (structural part partIn).node_joined node nodeInPart located with
      ⟨page, pageIn, samePath, edge, edgeIn, joined⟩
    exact ⟨page, pageIn, samePath, edge, List.mem_flatMap.mpr ⟨part, partIn, edgeIn⟩, joined⟩
  edge_endpoint := by
    intro edge edgeIn id endpoint external
    rcases List.mem_flatMap.mp edgeIn with ⟨part, partIn, edgeInPart⟩
    have endpointIn := (structural part partIn).edge_endpoint edge edgeInPart id endpoint external
    rcases List.mem_map.mp endpointIn with ⟨node, nodeInPart, same⟩
    exact List.mem_map.mpr ⟨node, List.mem_flatMap.mpr ⟨part, partIn, nodeInPart⟩, same⟩

theorem append {first second : Emission} (firstStructural : Structural pages first)
    (secondStructural : Structural pages second) : Structural pages (first.append second) := by
  have parts : Structural pages (Emission.concat [first, second]) := by
    apply concat
    intro part partIn
    rcases List.mem_cons.mp partIn with rfl | later
    · exact firstStructural
    · rw [List.mem_singleton.mp later]
      exact secondStructural
  simpa [Emission.concat, Emission.append] using parts

end Emission.Structural

open Emission

theorem isPageNodeId_append_false {kind : Text} (value : Text)
    (differs : kind.take 4 ≠ "page") (long : 4 ≤ kind.length) :
    isPageNodeId (kind ++ value) = false := by
  rw [Bool.eq_false_iff]
  intro starts
  rw [isPageNodeId, Text.startsWith, List.isPrefixOf_iff_prefix] at starts
  have front := congrArg (List.take 4) (List.prefix_iff_eq_take.mp starts)
  rw [List.take_take, List.take_append_of_le_length (by simpa using long)] at front
  exact differs front.symm

theorem projectHeading_attached (page : WikiPage) (heading : Text) :
    AttachedTo page (projectHeading page heading) :=
  .single _ _ rfl (isPageNodeId_append_false _ (by decide) (by decide)) rfl rfl

theorem projectSourceRef_attached (page : WikiPage) (ref : Text) :
    AttachedTo page (projectSourceRef page ref) := by
  unfold projectSourceRef
  split
  · exact .none
  · exact .single _ _ rfl (isPageNodeId_append_false _ (by decide) (by decide)) rfl rfl

section Keys

variable [Unicode]

@[simp]
theorem isPageNodeId_unresolvedNodeId (value : Text) :
    isPageNodeId (unresolvedNodeId value) = false := by
  rcases unresolvedNodeId_cases value with shape | shape <;> rw [shape]
  · exact isPageNodeId_append_false _ (by decide) (by decide)
  · exact isPageNodeId_append_false _ (by decide) (by decide)

theorem projectOkfMetadata_attached (page : WikiPage) (okf : OkfMetadata) :
    AttachedTo page (projectOkfMetadata page okf) := by
  apply AttachedTo.append
  · split
    · exact .none
    · exact .single _ _ rfl (isPageNodeId_append_false _ (by decide) (by decide)) rfl rfl
  · split
    · exact .none
    · exact .single _ _ rfl (isPageNodeId_append_false _ (by decide) (by decide)) rfl rfl

theorem projectTag_attached (page : WikiPage) (tag : Text) :
    AttachedTo page (projectTag page tag) :=
  .single _ _ rfl (isPageNodeId_append_false _ (by decide) (by decide)) rfl rfl

theorem projectLink_attached (lookup : List (Text × WikiPage)) (page : WikiPage) (link : Text) :
    AttachedTo page (projectLink lookup page link) := by
  unfold projectLink
  split
  · exact ⟨by simp, by simp, by simp, by simp, by simp⟩
  · exact .single _ _ rfl (isPageNodeId_unresolvedNodeId link) rfl rfl

/-! ## Lookup -/

theorem mem_of_lookup_foldl (keys : List Text) (page : WikiPage) (lookup : List (Text × WikiPage))
    {entry : Text × WikiPage}
    (membership : entry ∈ keys.foldl
      (fun current key => Keyed.set current (normalizeKey key) page) lookup) :
    entry.2 = page ∨ entry ∈ lookup := by
  induction keys generalizing lookup with
  | nil => exact Or.inr membership
  | cons key rest inductionHypothesis =>
      rcases inductionHypothesis _ membership with same | earlier
      · exact Or.inl same
      · rcases Keyed.mem_set earlier with rfl | old
        · exact Or.inl rfl
        · exact Or.inr old

theorem lookup_page_mem (pages : List WikiPage) (sourceRoot : Text) {key : Text} {page : WikiPage}
    (found : Keyed.get? (pageLookup pages sourceRoot) key = some page) : page ∈ pages := by
  have general : ∀ (rest : List WikiPage) (lookup : List (Text × WikiPage)),
      ∀ entry ∈ rest.foldl (fun lookup page =>
        (lookupKeys sourceRoot page).foldl
          (fun current key => Keyed.set current (normalizeKey key) page) lookup) lookup,
        entry.2 ∈ rest ∨ entry ∈ lookup := by
    intro rest
    induction rest with
    | nil => exact fun lookup entry membership => Or.inr membership
    | cons head tail inductionHypothesis =>
        intro lookup entry membership
        rcases inductionHypothesis _ entry membership with later | earlier
        · exact Or.inl (List.mem_cons_of_mem head later)
        · rcases mem_of_lookup_foldl _ head lookup earlier with same | old
          · exact Or.inl (same ▸ List.mem_cons_self)
          · exact Or.inr old
  rcases general pages [] _ (Keyed.mem_of_get? found) with inPages | inEmpty
  · exact inPages
  · simp at inEmpty

theorem projectDendronParent_structural {pages : List WikiPage} (lookup : List (Text × WikiPage))
    {page : WikiPage} (pageIn : page ∈ pages) :
    Structural pages (projectDendronParent lookup page) := by
  unfold projectDendronParent
  dsimp only
  split
  · split
    · refine ⟨by simp, by simp, ?_⟩
      intro edge edgeIn id endpoint external
      rw [List.mem_singleton.mp edgeIn] at endpoint
      rcases endpoint with rfl | rfl <;> simp at external
    · refine ⟨by simp, ?_, ?_⟩
      · intro node nodeIn _
        rw [List.mem_singleton.mp nodeIn]
        exact ⟨page, pageIn, rfl, _, List.mem_singleton_self _, Or.inr ⟨rfl, rfl⟩⟩
      · intro edge edgeIn id endpoint external
        rw [List.mem_singleton.mp edgeIn] at endpoint
        rcases endpoint with rfl | rfl
        · simp
        · simp at external
  · exact .none

/-- The endpoint of a sidecar edge: a page, or a placeholder with the path it was given. -/
theorem graphEndpoint_cases (value : Text) (page : Option WikiPage) (path : Text) :
    (∃ found, page = some found ∧ graphEndpoint value page path = (pageNodeId found.id, [])) ∨
      (page = Option.none ∧ ∃ node : GraphNode, graphEndpoint value page path = (node.id, [node]) ∧
        node.path = path ∧ isPageNodeId node.id = false) := by
  cases page with
  | some found => exact Or.inl ⟨found, rfl, rfl⟩
  | none =>
      exact Or.inr ⟨rfl, ⟨unresolvedNodeId value, value, externalNodeKind value, path,
        unresolvedMetadata "graph.json"⟩, rfl, rfl, isPageNodeId_unresolvedNodeId value⟩

end Keys

section Pages

variable [Unicode] [Interpreter]

theorem projectOkf_attached (page : WikiPage) : AttachedTo page (projectOkf page) := by
  unfold projectOkf
  split
  · exact .none
  · apply AttachedTo.append (projectOkfMetadata_attached page _)
    apply AttachedTo.concat
    intro part partIn
    rcases List.mem_map.mp partIn with ⟨source, _, rfl⟩
    exact .single _ _ rfl (isPageNodeId_append_false _ (by decide) (by decide)) rfl rfl

theorem projectPage_attached (lookup : List (Text × WikiPage)) (page : WikiPage) :
    AttachedTo page (projectPage lookup page) := by
  apply AttachedTo.concat
  intro part partIn
  simp only [List.mem_cons, List.not_mem_nil, or_false] at partIn
  rcases partIn with rfl | rfl | rfl | rfl | rfl
  · apply AttachedTo.concat
    intro part partIn
    rcases List.mem_map.mp partIn with ⟨heading, _, rfl⟩
    exact projectHeading_attached page heading
  · exact projectOkf_attached page
  · apply AttachedTo.concat
    intro part partIn
    rcases List.mem_map.mp partIn with ⟨ref, _, rfl⟩
    exact projectSourceRef_attached page ref
  · apply AttachedTo.concat
    intro part partIn
    rcases List.mem_map.mp partIn with ⟨tag, _, rfl⟩
    exact projectTag_attached page tag
  · apply AttachedTo.concat
    intro part partIn
    rcases List.mem_map.mp partIn with ⟨link, _, rfl⟩
    exact projectLink_attached lookup page link

/-! ## Hierarchy and sidecar contributions -/

theorem projectGraphFact_structural {pages : List WikiPage} {lookup : List (Text × WikiPage)}
    (known : ∀ key page, Keyed.get? lookup key = some page → page ∈ pages)
    (fact : SidecarGraphEdgeFact) : Structural pages (projectGraphFact lookup fact) := by
  unfold projectGraphFact
  dsimp only
  split
  · exact .none
  · generalize endpointValue fact.data ["from", "source"] = sourceValue
    generalize endpointValue fact.data ["to", "target"] = targetValue
    have sourceKnown := known (normalizeKey sourceValue)
    have targetKnown := known (normalizeKey targetValue)
    generalize Keyed.get? lookup (normalizeKey sourceValue) = sourcePage at sourceKnown ⊢
    generalize Keyed.get? lookup (normalizeKey targetValue) = targetPage at targetKnown ⊢
    rcases graphEndpoint_cases sourceValue sourcePage (endpointPath sourcePage targetPage) with
      ⟨source, rfl, sourceShape⟩ | ⟨rfl, sourceNode, sourceShape, sourcePath, sourceId⟩ <;>
    rcases graphEndpoint_cases targetValue targetPage (endpointPath targetPage _) with
      ⟨target, rfl, targetShape⟩ | ⟨rfl, targetNode, targetShape, targetPath, targetId⟩ <;>
    rw [sourceShape, targetShape]
    · refine ⟨by simp, by simp, ?_⟩
      intro edge edgeIn id endpoint external
      rw [List.mem_singleton.mp edgeIn] at endpoint
      rcases endpoint with rfl | rfl <;> simp at external
    · refine ⟨by simpa using targetId, ?_, ?_⟩
      · intro node nodeIn _
        rw [List.mem_singleton.mp nodeIn]
        exact ⟨source, sourceKnown source rfl, targetPath, _, List.mem_singleton_self _,
          Or.inl ⟨rfl, rfl⟩⟩
      · intro edge edgeIn id endpoint external
        rw [List.mem_singleton.mp edgeIn] at endpoint
        rcases endpoint with rfl | rfl
        · simp at external
        · simp
    · refine ⟨by simpa using sourceId, ?_, ?_⟩
      · intro node nodeIn _
        simp only [List.append_nil, List.mem_singleton] at nodeIn
        rw [nodeIn]
        exact ⟨target, targetKnown target rfl, sourcePath, _, List.mem_singleton_self _,
          Or.inr ⟨rfl, rfl⟩⟩
      · intro edge edgeIn id endpoint external
        rw [List.mem_singleton.mp edgeIn] at endpoint
        rcases endpoint with rfl | rfl
        · simp
        · simp at external
    · refine ⟨by simpa using ⟨sourceId, targetId⟩, ?_, ?_⟩
      · intro node nodeIn located
        simp only [List.cons_append, List.nil_append, List.mem_cons, List.not_mem_nil,
          or_false] at nodeIn
        rcases nodeIn with rfl | rfl
        · exact absurd sourcePath located
        · exact absurd targetPath located
      · intro edge edgeIn id endpoint _
        rw [List.mem_singleton.mp edgeIn] at endpoint
        rcases endpoint with rfl | rfl <;> simp

theorem structuralContributions_structural (loaded : LoadedWiki) :
    Structural loaded.pages loaded.structuralContributions := by
  apply Structural.append
  · unfold projectDendronHierarchy
    split
    · exact .none
    · apply Structural.concat
      intro part partIn
      rcases List.mem_map.mp partIn with ⟨page, pageIn, rfl⟩
      exact projectDendronParent_structural loaded.lookup pageIn
  · apply Structural.concat
    intro part partIn
    rcases List.mem_map.mp partIn with ⟨fact, _, rfl⟩
    exact projectGraphFact_structural
      (fun key page found => lookup_page_mem loaded.pages loaded.sourceRoot found) fact

/-! ## All graph items -/

theorem mem_contributions_nodes {loaded : LoadedWiki} {node : GraphNode} :
    node ∈ loaded.contributions.nodes ↔
      ∃ page ∈ loaded.pages, node ∈ (projectPage loaded.lookup page).nodes := by
  simp [LoadedWiki.contributions]

theorem mem_contributions_edges {loaded : LoadedWiki} {edge : GraphEdge} :
    edge ∈ loaded.contributions.edges ↔
      ∃ page ∈ loaded.pages, edge ∈ (projectPage loaded.lookup page).edges := by
  simp [LoadedWiki.contributions]

theorem mem_emission_nodes {loaded : LoadedWiki} {node : GraphNode}
    (membership : node ∈ loaded.emission.nodes) :
    (∃ page ∈ loaded.pages, node = pageNode loaded page) ∨
      (isPageNodeId node.id = false ∧
        (node ∈ loaded.contributions.nodes ∨ node ∈ loaded.structuralContributions.nodes)) := by
  simp only [LoadedWiki.emission, Emission.append_nodes, List.mem_append, List.mem_map]
    at membership
  rcases membership with ⟨page, pageIn, same⟩ | contributed | structural
  · exact Or.inl ⟨page, pageIn, same.symm⟩
  · rcases mem_contributions_nodes.mp contributed with ⟨page, _, nodeIn⟩
    exact Or.inr ⟨(projectPage_attached _ page).node_id node nodeIn, Or.inl contributed⟩
  · exact Or.inr ⟨(structuralContributions_structural loaded).node_id node structural,
      Or.inr structural⟩

end Pages

end LlmWikiServe
