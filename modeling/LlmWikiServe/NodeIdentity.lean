import LlmWikiServe.LinkResolution
import LlmWikiServe.SourceReferences

/-!
# Identity of graph nodes

A node stands for the slug of a value.  Different values share a node exactly when the slug does
not tell them apart.
-/

namespace LlmWikiServe

section Identity

variable [Unicode] [Interpreter]

/-- A tag up to letter case and enclosing `#` marks. -/
def foldTag (tag : Text) : Text := Text.lower (Text.stripBy (· = '#') tag)

/-- What a page contributes for its OKF sources and its source references. -/
def projectSources (page : WikiPage) : Emission :=
  .concat
    [.concat (((page.okf.map OkfMetadata.sources).getD []).map (projectOkfSource page)),
      .concat (page.sourceRefs.map (projectSourceRef page))]

def Emission.Brings (part : Emission) (node : GraphNode) : Prop :=
  node.id ∈ part.nodes.map GraphNode.id

structure LoadedWiki.NodesFollowValues (loaded : LoadedWiki) : Prop where
  tags : ∀ node ∈ (projectWiki loaded).nodes, ∀ first ∈ loaded.pages, ∀ second ∈ loaded.pages,
    (∃ tag ∈ first.tags, (projectTag first tag).Brings node) →
    (∃ tag ∈ second.tags, (projectTag second tag).Brings node) →
    ∃ tag ∈ first.tags, ∃ other ∈ second.tags, foldTag tag = foldTag other
  sources : ∀ node ∈ (projectWiki loaded).nodes, ∀ first ∈ loaded.pages, ∀ second ∈ loaded.pages,
    (projectSources first).Brings node → (projectSources second).Brings node →
    ∃ key, first.Cites key ∧ second.Cites key
  headings : ∀ node ∈ (projectWiki loaded).nodes, ∀ first ∈ loaded.pages, ∀ second ∈ loaded.pages,
    ∀ heading ∈ first.headings, ∀ other ∈ second.headings,
    (projectHeading first heading).Brings node → (projectHeading second other).Brings node →
    first.id = second.id ∧ heading = other
  links : ∀ node ∈ (projectWiki loaded).nodes, ∀ first ∈ loaded.pages, ∀ second ∈ loaded.pages,
    ∀ link ∈ first.links, ∀ other ∈ second.links,
    (projectLink loaded.lookup first link).Brings node →
    (projectLink loaded.lookup second other).Brings node → link = other

/-- No page has the normalized key of the link. -/
def LoadedWiki.Unresolved (loaded : LoadedWiki) (link : Text) : Prop :=
  ∀ page ∈ loaded.pages, ¬ HasKey loaded.sourceRoot (normalizeKey link) page

/-- A URL or an issue number. -/
def isExternal (link : Text) : Bool := Text.startsWith (externalNodeKind link) "external"

/-- Pages whose tags or source keys have one slug also have one of them in common, and different
headings and different unresolved links of one kind have different slugs. -/
structure LoadedWiki.SlugsTellApart (loaded : LoadedWiki) : Prop where
  tags : ∀ first ∈ loaded.pages, ∀ second ∈ loaded.pages, ∀ tag ∈ first.tags,
    ∀ other ∈ second.tags, slug (foldTag tag) = slug (foldTag other) →
    ∃ tag ∈ first.tags, ∃ other ∈ second.tags, foldTag tag = foldTag other
  sources : ∀ first ∈ loaded.pages, ∀ second ∈ loaded.pages, ∀ key other, first.Cites key →
    second.Cites other → slug key = slug other → ∃ shared, first.Cites shared ∧ second.Cites shared
  headings : ∀ first ∈ loaded.pages, ∀ second ∈ loaded.pages, ∀ heading ∈ first.headings,
    ∀ other ∈ second.headings,
    slug (first.id ++ (":" : Text) ++ heading) = slug (second.id ++ (":" : Text) ++ other) →
    first.id = second.id ∧ heading = other
  links : ∀ first ∈ loaded.pages, ∀ second ∈ loaded.pages, ∀ link ∈ first.links,
    ∀ other ∈ second.links, loaded.Unresolved link → loaded.Unresolved other →
    isExternal link = isExternal other → slug link = slug other → link = other

/-! ## Nodes of values -/

omit [Interpreter] in
theorem projectTag_brings {page : WikiPage} {tag : Text} {node : GraphNode} :
    (projectTag page tag).Brings node ↔ node.id = ("tag:" : Text) ++ slug (foldTag tag) := by
  simp [Emission.Brings, projectTag, foldTag]

omit [Unicode] [Interpreter] in
theorem projectHeading_brings {page : WikiPage} {heading : Text} {node : GraphNode} :
    (projectHeading page heading).Brings node ↔
      node.id = ("heading:" : Text) ++ slug (page.id ++ (":" : Text) ++ heading) := by
  simp [Emission.Brings, projectHeading]

omit [Unicode] [Interpreter] in
theorem projectedOkfSourceRefs_eq (page : WikiPage) :
    projectedOkfSourceRefs page =
      ((page.okf.map OkfMetadata.sources).getD []).map OkfSource.refKey := by
  unfold projectedOkfSourceRefs
  cases page.okf <;> rfl

omit [Unicode] in
theorem projectSources_brings {page : WikiPage} {node : GraphNode} :
    (projectSources page).Brings node ↔
      ∃ key, page.Cites key ∧ node.id = ("source:" : Text) ++ slug key := by
  have okf : (Emission.concat (((page.okf.map OkfMetadata.sources).getD []).map
      (projectOkfSource page))).Brings node ↔
        ∃ key ∈ projectedOkfSourceRefs page, node.id = ("source:" : Text) ++ slug key := by
    rw [projectedOkfSourceRefs_eq]
    simp [Emission.Brings, projectOkfSource, eq_comm]
  have label : (Emission.concat (page.sourceRefs.map (projectSourceRef page))).Brings node ↔
      ∃ key ∈ page.sourceRefs, key ∉ projectedOkfSourceRefs page ∧
        node.id = ("source:" : Text) ++ slug key := by
    simp only [Emission.Brings, Emission.concat_nodes, List.mem_map, List.mem_flatMap]
    constructor
    · rintro ⟨other, ⟨_, ⟨key, keyIn, rfl⟩, otherIn⟩, same⟩
      unfold projectSourceRef at otherIn
      split at otherIn
      · cases otherIn
      next fresh =>
        obtain rfl := List.mem_singleton.mp otherIn
        exact ⟨key, keyIn, fresh, same.symm⟩
    · rintro ⟨key, keyIn, fresh, same⟩
      refine ⟨⟨("source:" : Text) ++ slug key, key, "source_ref", page.path, []⟩,
        ⟨_, ⟨key, keyIn, rfl⟩, ?_⟩, same.symm⟩
      rw [projectSourceRef, if_neg fresh]
      exact List.mem_singleton_self _
  have both : (projectSources page).Brings node ↔
      (Emission.concat (((page.okf.map OkfMetadata.sources).getD []).map
        (projectOkfSource page))).Brings node ∨
      (Emission.concat (page.sourceRefs.map (projectSourceRef page))).Brings node := by
    simp only [Emission.Brings, projectSources, Emission.concat_nodes, List.flatMap_cons,
      List.flatMap_nil, List.append_nil, List.map_append, List.mem_append]
  rw [both, okf, label]
  constructor
  · rintro (⟨key, keyIn, same⟩ | ⟨key, keyIn, -, same⟩)
    · exact ⟨key, .inl keyIn, same⟩
    · exact ⟨key, .inr keyIn, same⟩
  · rintro ⟨key, cites, same⟩
    by_cases projected : key ∈ projectedOkfSourceRefs page
    · exact .inl ⟨key, projected, same⟩
    · exact .inr ⟨key, cites.resolve_left projected, projected, same⟩

omit [Interpreter] in
theorem unresolvedNodeId_eq_iff {link other : Text} :
    unresolvedNodeId link = unresolvedNodeId other ↔
      isExternal link = isExternal other ∧ slug link = slug other := by
  unfold unresolvedNodeId isExternal
  cases Text.startsWith (externalNodeKind link) "external" <;>
    cases Text.startsWith (externalNodeKind other) "external" <;> simp

omit [Interpreter] in
theorem projectLink_brings {loaded : LoadedWiki} {page : WikiPage} {link : Text}
    {node : GraphNode} :
    (projectLink loaded.lookup page link).Brings node ↔
      loaded.Unresolved link ∧ node.id = unresolvedNodeId link := by
  have missing := @get?_pageLookup_eq_none_iff _ loaded.pages loaded.sourceRoot (normalizeKey link)
  unfold LoadedWiki.Unresolved
  rw [← missing]
  change _ ↔ Keyed.get? loaded.lookup (normalizeKey link) = none ∧ _
  unfold projectLink
  cases Keyed.get? loaded.lookup (normalizeKey link) with
  | some target => simp [Emission.Brings]
  | none => simp [Emission.Brings]

theorem exists_projected {loaded : LoadedWiki} {page : WikiPage} (pageIn : page ∈ loaded.pages)
    {part : Emission} (within : part.nodes ⊆ (projectPage loaded.lookup page).nodes) {id : Text}
    (among : id ∈ part.nodes.map GraphNode.id) :
    ∃ node ∈ (projectWiki loaded).nodes, node.id = id := by
  obtain ⟨node, nodeIn, rfl⟩ := List.mem_map.mp among
  have listed : node.id ∈ loaded.emission.nodes.map GraphNode.id :=
    List.mem_map_of_mem (List.mem_append_right _ (List.mem_append_left _
      (mem_contributions_nodes.mpr ⟨page, pageIn, within nodeIn⟩)))
  exact List.mem_map.mp (Keyed.mem_map_firstWins_iff.mpr listed)

theorem projectTag_within {page : WikiPage} {tag : Text} (tagIn : tag ∈ page.tags)
    (lookup : List (Text × WikiPage)) :
    (projectTag page tag).nodes ⊆ (projectPage lookup page).nodes := by
  intro node among
  simp only [projectPage, Emission.concat_nodes, List.flatMap_cons, List.mem_append,
    List.mem_flatMap, List.mem_map]
  exact .inr (.inr (.inr (.inl ⟨_, ⟨tag, tagIn, rfl⟩, among⟩)))

theorem projectHeading_within {page : WikiPage} {heading : Text} (headingIn : heading ∈ page.headings)
    (lookup : List (Text × WikiPage)) :
    (projectHeading page heading).nodes ⊆ (projectPage lookup page).nodes := by
  intro node among
  simp only [projectPage, Emission.concat_nodes, List.flatMap_cons, List.mem_append,
    List.mem_flatMap, List.mem_map]
  exact .inl ⟨_, ⟨heading, headingIn, rfl⟩, among⟩

theorem projectLink_within {page : WikiPage} {link : Text} (linkIn : link ∈ page.links)
    (lookup : List (Text × WikiPage)) :
    (projectLink lookup page link).nodes ⊆ (projectPage lookup page).nodes := by
  intro node among
  simp only [projectPage, Emission.concat_nodes, List.flatMap_cons, List.mem_append,
    List.mem_flatMap, List.mem_map]
  exact .inr (.inr (.inr (.inr (.inl ⟨_, ⟨link, linkIn, rfl⟩, among⟩))))

theorem projectSources_within (page : WikiPage) (lookup : List (Text × WikiPage)) :
    (projectSources page).nodes ⊆ (projectPage lookup page).nodes := by
  intro node among
  simp only [projectSources, Emission.concat_nodes, List.flatMap_cons, List.flatMap_nil,
    List.append_nil, List.mem_append] at among
  simp only [projectPage, Emission.concat_nodes, List.flatMap_cons, List.mem_append]
  rcases among with okf | label
  · refine .inr (.inl ?_)
    unfold projectOkf
    cases found : page.okf with
    | none => simp [found] at okf
    | some data =>
      rw [found] at okf
      exact List.mem_append_right _ okf
  · exact .inr (.inr (.inl label))

/-- Values that share a slug share a node. -/
theorem LoadedWiki.NodesFollowValues.slugsTellApart {loaded : LoadedWiki}
    (follow : loaded.NodesFollowValues) : loaded.SlugsTellApart := by
  constructor
  · intro first firstIn second secondIn tag tagIn other otherIn same
    have brought : (projectTag first tag).Brings
        ⟨("tag:" : Text) ++ slug (foldTag tag), [], [], [], []⟩ := projectTag_brings.mpr rfl
    obtain ⟨node, nodeIn, id⟩ := exists_projected firstIn
      (projectTag_within tagIn loaded.lookup) brought
    exact follow.tags node nodeIn first firstIn second secondIn
      ⟨tag, tagIn, projectTag_brings.mpr id⟩
      ⟨other, otherIn, projectTag_brings.mpr (by rw [id, same])⟩
  · intro first firstIn second secondIn key other cites otherCites same
    have brought : (projectSources first).Brings
        ⟨("source:" : Text) ++ slug key, [], [], [], []⟩ :=
      projectSources_brings.mpr ⟨key, cites, rfl⟩
    obtain ⟨node, nodeIn, id⟩ := exists_projected firstIn
      (projectSources_within first loaded.lookup) brought
    exact follow.sources node nodeIn first firstIn second secondIn
      (projectSources_brings.mpr ⟨key, cites, id⟩)
      (projectSources_brings.mpr ⟨other, otherCites, by rw [id, same]⟩)
  · intro first firstIn second secondIn heading headingIn other otherIn same
    have brought : (projectHeading first heading).Brings
        ⟨("heading:" : Text) ++ slug (first.id ++ (":" : Text) ++ heading), [], [], [], []⟩ :=
      projectHeading_brings.mpr rfl
    obtain ⟨node, nodeIn, id⟩ := exists_projected firstIn
      (projectHeading_within headingIn loaded.lookup) brought
    exact follow.headings node nodeIn first firstIn second secondIn heading headingIn other otherIn
      (projectHeading_brings.mpr id) (projectHeading_brings.mpr (by rw [id, same]))
  · intro first firstIn second secondIn link linkIn other otherIn missing otherMissing kind same
    have sameId := unresolvedNodeId_eq_iff.mpr ⟨kind, same⟩
    have brought : (projectLink loaded.lookup first link).Brings
        ⟨unresolvedNodeId link, [], [], [], []⟩ :=
      projectLink_brings.mpr ⟨missing, rfl⟩
    obtain ⟨node, nodeIn, id⟩ := exists_projected firstIn
      (projectLink_within linkIn loaded.lookup) brought
    exact follow.links node nodeIn first firstIn second secondIn link linkIn other otherIn
      (projectLink_brings.mpr ⟨missing, id⟩)
      (projectLink_brings.mpr ⟨otherMissing, id.trans sameId⟩)

/-- Values that share a node share a slug. -/
theorem LoadedWiki.SlugsTellApart.nodesFollowValues {loaded : LoadedWiki}
    (apart : loaded.SlugsTellApart) : loaded.NodesFollowValues := by
  constructor
  · rintro node - first firstIn second secondIn ⟨tag, tagIn, brings⟩ ⟨other, otherIn, otherBrings⟩
    refine apart.tags first firstIn second secondIn tag tagIn other otherIn ?_
    exact List.append_cancel_left
      ((projectTag_brings.mp brings).symm.trans (projectTag_brings.mp otherBrings))
  · intro node _ first firstIn second secondIn brings otherBrings
    obtain ⟨key, cites, id⟩ := projectSources_brings.mp brings
    obtain ⟨other, otherCites, otherId⟩ := projectSources_brings.mp otherBrings
    exact apart.sources first firstIn second secondIn key other cites otherCites
      (List.append_cancel_left (id.symm.trans otherId))
  · intro node _ first firstIn second secondIn heading headingIn other otherIn brings otherBrings
    refine apart.headings first firstIn second secondIn heading headingIn other otherIn ?_
    exact List.append_cancel_left
      ((projectHeading_brings.mp brings).symm.trans (projectHeading_brings.mp otherBrings))
  · intro node _ first firstIn second secondIn link linkIn other otherIn brings otherBrings
    obtain ⟨missing, id⟩ := projectLink_brings.mp brings
    obtain ⟨otherMissing, otherId⟩ := projectLink_brings.mp otherBrings
    obtain ⟨kind, same⟩ := unresolvedNodeId_eq_iff.mp (id.symm.trans otherId)
    exact apart.links first firstIn second secondIn link linkIn other otherIn missing
      otherMissing kind same

/-- Shared nodes stand for equal values if and only if slugs tell the values of the wiki apart. -/
theorem projectWiki_nodesFollowValues (loaded : LoadedWiki) :
    loaded.NodesFollowValues ↔ loaded.SlugsTellApart := by
  constructor
  · exact fun follow => follow.slugsTellApart
  · exact fun apart => apart.nodesFollowValues

end Identity

section Confused

attribute [local instance] Unicode.ascii Value.plainInterpreter

/-- Two pages with a tag each, in letters that no slug keeps. -/
def confusedWiki : LoadedWiki where
  root := ["srv", "wiki"]
  title := "Sample"
  pages :=
    [{ id := "a", title := "A", path := "a.md", role := .topic, text := [], tags := ["日"] },
      { id := "b", title := "B", path := "b.md", role := .topic, text := [], tags := ["本"] }]
  sourceRootReadable := sourceRoot?_nil

/-- Pages with different tags share a node. -/
theorem confusedWiki_tags_shared : ¬ ∀ loaded : LoadedWiki, loaded.NodesFollowValues := by
  intro claimed
  have apart := (claimed confusedWiki).slugsTellApart
  obtain ⟨tag, tagIn, other, otherIn, same⟩ := apart.tags _ List.mem_cons_self _
    (List.mem_cons_of_mem _ List.mem_cons_self) _ List.mem_cons_self _ List.mem_cons_self
    (by decide +kernel)
  obtain rfl := List.mem_singleton.mp tagIn
  obtain rfl := List.mem_singleton.mp otherIn
  exact absurd same (by decide +kernel)

end Confused

end LlmWikiServe
