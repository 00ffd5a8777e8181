import LlmWikiServe.ProjectionClosure

/-!
# Resolution of links

A link is looked up under its normalized key, where the last page with the key is found.
-/

namespace LlmWikiServe

section Lookup

variable [Unicode]

def HasKey (sourceRoot key : Text) (page : WikiPage) : Prop :=
  ∃ text ∈ lookupKeys sourceRoot page, normalizeKey text = key

instance (sourceRoot key : Text) (page : WikiPage) : Decidable (HasKey sourceRoot key page) :=
  inferInstanceAs (Decidable (∃ text ∈ _, _))

def LastWithKey (pages : List WikiPage) (sourceRoot key : Text) (page : WikiPage) : Prop :=
  ∃ front back, pages = front ++ page :: back ∧ HasKey sourceRoot key page ∧
    ∀ other ∈ back, ¬ HasKey sourceRoot key other

theorem get?_foldl_set_normalizeKey (texts : List Text) (page : WikiPage)
    (lookup : List (Text × WikiPage)) (wanted : Text) :
    Keyed.get? (texts.foldl (fun current key => Keyed.set current (normalizeKey key) page) lookup)
        wanted =
      if ∃ text ∈ texts, normalizeKey text = wanted then some page
      else Keyed.get? lookup wanted := by
  induction texts generalizing lookup with
  | nil => simp
  | cons text rest inductionHypothesis =>
      rw [List.foldl_cons, inductionHypothesis, Keyed.get?_set]
      by_cases later : ∃ text ∈ rest, normalizeKey text = wanted
      · obtain ⟨other, otherIn, same⟩ := later
        rw [if_pos ⟨other, otherIn, same⟩, if_pos ⟨other, List.mem_cons_of_mem text otherIn, same⟩]
      · rw [if_neg later]
        by_cases here : normalizeKey text = wanted
        · rw [if_pos here, if_pos ⟨text, List.mem_cons_self, here⟩]
        · rw [if_neg here, if_neg]
          rintro ⟨other, otherIn, same⟩
          rcases List.mem_cons.mp otherIn with rfl | otherIn
          · exact here same
          · exact later ⟨other, otherIn, same⟩

theorem get?_pageLookup_concat (pages : List WikiPage) (page : WikiPage) (sourceRoot key : Text) :
    Keyed.get? (pageLookup (pages ++ [page]) sourceRoot) key =
      if HasKey sourceRoot key page then some page
      else Keyed.get? (pageLookup pages sourceRoot) key := by
  rw [pageLookup, List.foldl_append, List.foldl_cons, List.foldl_nil, get?_foldl_set_normalizeKey]
  rfl

theorem lastWithKey_concat {pages : List WikiPage} {last page : WikiPage} {sourceRoot key : Text} :
    LastWithKey (pages ++ [last]) sourceRoot key page ↔
      (HasKey sourceRoot key last ∧ page = last) ∨
        (¬ HasKey sourceRoot key last ∧ LastWithKey pages sourceRoot key page) := by
  constructor
  · rintro ⟨front, back, shape, has, none_⟩
    rcases List.eq_nil_or_concat back with rfl | ⟨middle, final, rfl⟩
    · obtain ⟨-, same⟩ := List.append_inj' shape rfl
      obtain rfl := (List.cons.inj same).1
      exact .inl ⟨has, rfl⟩
    · have split : pages ++ [last] = (front ++ page :: middle) ++ [final] := by
        rw [shape]
        simp
      obtain ⟨rest, same⟩ := List.append_inj' split rfl
      obtain rfl := (List.cons.inj same).1
      exact .inr ⟨none_ last (by simp), front, middle, rest, has,
        fun other among => none_ other (by simp [among])⟩
  · rintro (⟨has, rfl⟩ | ⟨lacks, front, back, rfl, has, none_⟩)
    · exact ⟨pages, [], rfl, has, by simp⟩
    · refine ⟨front, back ++ [last], by simp, has, fun other among => ?_⟩
      rcases List.mem_append.mp among with earlier | final
      · exact none_ other earlier
      · exact List.mem_singleton.mp final ▸ lacks

theorem get?_pageLookup_iff {pages : List WikiPage} {sourceRoot key : Text} {page : WikiPage} :
    Keyed.get? (pageLookup pages sourceRoot) key = some page ↔
      LastWithKey pages sourceRoot key page := by
  induction pages using List.reverseRecOn with
  | nil =>
      constructor
      · intro found
        cases found
      · rintro ⟨front, back, shape, -⟩
        simp at shape
  | append_singleton earlier last inductionHypothesis =>
      rw [get?_pageLookup_concat, lastWithKey_concat]
      by_cases has : HasKey sourceRoot key last
      · rw [if_pos has]
        simp [has, eq_comm]
      · rw [if_neg has, inductionHypothesis]
        simp [has]

theorem get?_pageLookup_eq_none_iff {pages : List WikiPage} {sourceRoot key : Text} :
    Keyed.get? (pageLookup pages sourceRoot) key = none ↔
      ∀ page ∈ pages, ¬ HasKey sourceRoot key page := by
  induction pages using List.reverseRecOn with
  | nil => simp [pageLookup, Keyed.get?]
  | append_singleton earlier last inductionHypothesis =>
      rw [get?_pageLookup_concat]
      by_cases has : HasKey sourceRoot key last
      · rw [if_pos has]
        simp [has]
      · rw [if_neg has, inductionHypothesis]
        simp only [List.mem_append, List.mem_singleton]
        constructor
        · rintro lacks page (earlierIn | rfl)
          · exact lacks page earlierIn
          · exact has
        · exact fun lacks page among => lacks page (.inl among)

/-! ## Edges of links -/

/-- The triple of an edge from one page to another. -/
def linkKey (page target : WikiPage) : Text × Text × Text :=
  (pageNodeId page.id, pageNodeId target.id, "links_to")

/-- Among pages with distinct ids, a link leads to a page exactly when the page is found under its
key. -/
theorem map_key_projectLink_iff {pages : List WikiPage} {sourceRoot : Text}
    (distinct : (pages.map WikiPage.id).Nodup) {page target : WikiPage} (targetIn : target ∈ pages)
    (link : Text) :
    (projectLink (pageLookup pages sourceRoot) page link).edges.map GraphEdge.key =
        [linkKey page target] ↔
      LastWithKey pages sourceRoot (normalizeKey link) target := by
  rw [← get?_pageLookup_iff]
  unfold projectLink
  split
  next found located =>
    rw [located]
    constructor
    · intro same
      have ids := congrArg (fun key => key.2.1) (List.singleton_inj.mp same)
      have sameId : found.id = target.id := pageNodeId_injective.mp ids
      rw [List.inj_on_of_nodup_map distinct (lookup_page_mem pages sourceRoot located) targetIn
        sameId]
    · intro same
      obtain rfl := Option.some.inj same
      rfl
  next missing =>
    rw [missing]
    constructor
    · intro same
      have ids : unresolvedNodeId link = pageNodeId target.id :=
        congrArg (fun key => key.2.1) (List.singleton_inj.mp same)
      have page_ := isPageNodeId_pageNodeId target.id
      rw [← ids, isPageNodeId_unresolvedNodeId] at page_
      cases page_
    · intro impossible
      cases impossible

theorem projectLink_pageless_iff {pages : List WikiPage} {sourceRoot : Text} {page : WikiPage}
    {link : Text} :
    (∀ edge ∈ (projectLink (pageLookup pages sourceRoot) page link).edges,
        isPageNodeId edge.target = false) ↔
      ∀ other ∈ pages, ¬ HasKey sourceRoot (normalizeKey link) other := by
  rw [← get?_pageLookup_eq_none_iff]
  unfold projectLink
  split
  next found located => simp [located]
  next missing => simp [missing]

end Lookup

section Links

variable [Unicode] [Interpreter]

theorem projectLink_projected {loaded : LoadedWiki} {page : WikiPage} (pageIn : page ∈ loaded.pages)
    {link : Text} (linkIn : link ∈ page.links) {key : Text × Text × Text}
    (among : key ∈ (projectLink loaded.lookup page link).edges.map GraphEdge.key) :
    key ∈ (projectWiki loaded).edges.map GraphEdge.key := by
  obtain ⟨edge, edgeIn, rfl⟩ := List.mem_map.mp among
  refine (Keyed.mem_map_mergeWins_iff mergeEdge_key).mpr (List.mem_map_of_mem ?_)
  have own : edge ∈ (projectPage loaded.lookup page).edges := by
    simp only [projectPage, Emission.concat_edges, List.flatMap_cons, List.mem_append,
      List.mem_flatMap, List.mem_map]
    exact .inr (.inr (.inr (.inr (.inl ⟨_, ⟨link, linkIn, rfl⟩, edgeIn⟩))))
  exact List.mem_append_right _ (List.mem_append_left _
    (mem_contributions_edges.mpr ⟨page, pageIn, own⟩))

omit [Unicode] [Interpreter] in
/-- The link is the id of the page, its path, or its path without the extension. -/
def Names (link : Text) (page : WikiPage) : Prop :=
  link = page.id ∨ link = page.path ∨
    ∃ extension : Text, extension ≠ [] ∧ '.' ∉ extension ∧ '/' ∉ extension ∧
      Text.afterLast '/' link ≠ [] ∧ page.path = link ++ '.' :: extension

/-- A link that names a page leads to it and nowhere else, and a link with an empty key leads to
no page. -/
structure LoadedWiki.LinksResolve (loaded : LoadedWiki) : Prop where
  named : ∀ page ∈ loaded.pages, ∀ link ∈ page.links, ∀ target ∈ loaded.pages, Names link target →
    linkKey page target ∈ (projectWiki loaded).edges.map GraphEdge.key ∧
      (projectLink loaded.lookup page link).edges.map GraphEdge.key = [linkKey page target]
  empty : ∀ page ∈ loaded.pages, ∀ link ∈ page.links, normalizeKey link = [] →
    ∀ edge ∈ (projectLink loaded.lookup page link).edges, isPageNodeId edge.target = false

omit [Interpreter] in
/-- A page named by a link is the last one with the key of the link, and if a link has an empty key
no page has one. -/
structure LoadedWiki.NamedPagesLast (loaded : LoadedWiki) : Prop where
  named : ∀ page ∈ loaded.pages, ∀ link ∈ page.links, ∀ target ∈ loaded.pages, Names link target →
    LastWithKey loaded.pages loaded.sourceRoot (normalizeKey link) target
  empty : ∀ page ∈ loaded.pages, ∀ link ∈ page.links, normalizeKey link = [] →
    ∀ other ∈ loaded.pages, ¬ HasKey loaded.sourceRoot [] other

/-- Links resolve to the pages they name if and only if these are the last pages with their keys,
and no page has an empty key that a link has. -/
theorem projectWiki_linksResolve (loaded : LoadedWiki)
    (distinct : (loaded.pages.map WikiPage.id).Nodup) :
    loaded.LinksResolve ↔ loaded.NamedPagesLast := by
  constructor
  · intro resolve
    constructor
    · intro page pageIn link linkIn target targetIn names
      exact (map_key_projectLink_iff distinct targetIn link).mp
        (resolve.named page pageIn link linkIn target targetIn names).2
    · intro page pageIn link linkIn empty
      have pageless := projectLink_pageless_iff.mp (resolve.empty page pageIn link linkIn empty)
      rwa [empty] at pageless
  · intro last
    constructor
    · intro page pageIn link linkIn target targetIn names
      have only : (projectLink loaded.lookup page link).edges.map GraphEdge.key =
          [linkKey page target] :=
        (map_key_projectLink_iff distinct targetIn link).mpr
          (last.named page pageIn link linkIn target targetIn names)
      exact ⟨projectLink_projected pageIn linkIn (only ▸ List.mem_singleton_self _), only⟩
    · intro page pageIn link linkIn empty
      refine projectLink_pageless_iff.mpr ?_
      rw [empty]
      exact last.empty page pageIn link linkIn empty

end Links

section Captured

attribute [local instance] Unicode.ascii Value.plainInterpreter

/-- A page linked by its id, which the title of a later page may be as well. -/
def capturedWiki (title : Text) : LoadedWiki where
  root := ["srv", "wiki"]
  title := "Sample"
  pages :=
    [{ id := "setup", title := "Start", path := "setup.md", role := .topic, text := [] },
      { id := "other", title := title, path := "other.md", role := .topic, text := [],
        links := ["setup"] }]
  sourceRootReadable := sourceRoot?_nil

theorem projectWiki_linksResolve_uncaptured : (capturedWiki "Other").LinksResolve := by
  refine (projectWiki_linksResolve (capturedWiki "Other") (by decide)).mpr ?_
  constructor
  · intro page pageIn link linkIn target targetIn names
    simp only [capturedWiki, List.mem_cons, List.not_mem_nil, or_false] at pageIn targetIn
    rcases pageIn with rfl | rfl
    · exact absurd linkIn List.not_mem_nil
    · obtain rfl := List.mem_singleton.mp linkIn
      rcases targetIn with rfl | rfl
      · exact ⟨[], [_], rfl, by decide, by decide⟩
      · rcases names with same | same | ⟨extension, -, -, -, -, same⟩
        · exact absurd same (by decide)
        · exact absurd same (by decide)
        · exact absurd (congrArg List.head? same) (by simp)
  · intro page pageIn link linkIn empty
    simp only [capturedWiki, List.mem_cons, List.not_mem_nil, or_false] at pageIn
    rcases pageIn with rfl | rfl
    · exact absurd linkIn List.not_mem_nil
    · obtain rfl := List.mem_singleton.mp linkIn
      exact absurd empty (by decide)

/-- The link to a page by its id resolves to a later page with the id for its title. -/
theorem capturedWiki_link_captured :
    ¬ ∀ loaded : LoadedWiki, (loaded.pages.map WikiPage.id).Nodup →
        (loaded.pages.map WikiPage.path).Nodup → loaded.LinksResolve := by
  intro claimed
  have resolve := claimed (capturedWiki "Setup") (by decide) (by decide)
  have named := (resolve.named _ (List.mem_cons_of_mem _ List.mem_cons_self) "setup"
    List.mem_cons_self _ List.mem_cons_self (.inl rfl)).2
  exact absurd named (by decide +kernel)

end Captured

end LlmWikiServe
