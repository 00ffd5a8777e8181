import LlmWikiServe.Service

/-!
# Where results come from

Every result of a search names a page of the corpus that the request does not exclude.
-/

namespace LlmWikiServe

/-- A result carries the id and the path of a page. -/
def SearchResult.Names {R : Type} (result : SearchResult R) (page : WikiPage) : Prop :=
  result.pageId = page.id ∧ result.path = page.path

def NamesIncluded {R : Type} (pages : List WikiPage) (excludePageIds : List Text)
    (result : SearchResult R) : Prop :=
  ∃ page ∈ pages,
    pageIsExcluded (pageExclusionSet excludePageIds) page = false ∧ result.Names page

section Results

variable [Unicode] {R : Type} [Floats R]

def ShowsIncluded (pages : List WikiPage) (excludePageIds : List Text)
    (snippetChars : Option Int) (focus : SnippetFocus) (result : SearchResult R) : Prop :=
  ∃ page ∈ pages, pageIsExcluded (pageExclusionSet excludePageIds) page = false ∧
    ∃ score route, result = toResult page score route snippetChars focus

theorem ShowsIncluded.names {pages : List WikiPage} {excludePageIds : List Text}
    {snippetChars : Option Int} {focus : SnippetFocus} {result : SearchResult R}
    (shown : ShowsIncluded pages excludePageIds snippetChars focus result) :
    NamesIncluded pages excludePageIds result := by
  obtain ⟨page, pageIn, included, score, route, rfl⟩ := shown
  exact ⟨page, pageIn, included, rfl, rfl⟩

theorem mem_rankedResults {route : Text} {snippetChars : Option Int} {pages : List WikiPage}
    {result : SearchResult R} (membership : result ∈ rankedResults route snippetChars pages) :
    ∃ page ∈ pages, ∃ score, result = toResult page score route snippetChars {} := by
  obtain ⟨⟨page, rank⟩, entryIn, rfl⟩ := List.mem_map.mp membership
  exact ⟨page, List.fst_mem_of_mem_zipIdx entryIn, _, rfl⟩

omit [Unicode] in
theorem mem_foldl_selectRole {ordered selected : List WikiPage} {roles : List PageRole}
    {page : WikiPage} (membership : page ∈ roles.foldl (selectRole ordered) selected) :
    page ∈ selected ∨ page ∈ ordered := by
  induction roles generalizing selected with
  | nil => exact Or.inl membership
  | cons role rest inductionHypothesis =>
      obtain chosen | listed := inductionHypothesis membership
      · unfold selectRole at chosen
        split at chosen
        next => exact Or.inl chosen
        next found =>
          rcases List.mem_append.mp chosen with earlier | new
          · exact Or.inl earlier
          · rw [List.mem_singleton.mp new]
            exact Or.inr (List.mem_of_find?_eq_some found)
      · exact Or.inr listed

omit [Unicode] in
theorem mem_orientationPages {pages : List WikiPage} {page : WikiPage}
    (membership : page ∈ orientationPages pages) : page ∈ pages := by
  unfold orientationPages at membership
  rcases List.mem_append.mp membership with selected | rest
  · rcases mem_foldl_selectRole selected with impossible | ordered
    · exact absurd impossible List.not_mem_nil
    · exact mem_sortBy.mp ordered
  · exact mem_sortBy.mp (List.mem_of_mem_filter rest)

theorem overviewResults_shown {pages : List WikiPage} {limit : Int} {snippetChars : Option Int}
    {excludePageIds : List Text} {result : SearchResult R}
    (membership : result ∈ overviewResults pages limit snippetChars excludePageIds) :
    ShowsIncluded pages excludePageIds snippetChars {} result := by
  obtain ⟨page, pageIn, score, shown⟩ := mem_rankedResults (mem_of_mem_takeLimit membership)
  obtain ⟨ordered, included⟩ := List.mem_filter.mp pageIn
  exact ⟨page, mem_orientationPages ordered, by simpa using included, score, _, shown⟩

theorem literalSearchCorpus_shown {corpus : SearchCorpus} {query : Text}
    {options : SearchOptions R} {result : SearchResult R}
    (membership : result ∈ literalSearchCorpus corpus query options) :
    ShowsIncluded corpus.pages options.excludePageIds options.snippetChars
      { literalQuery := normalizedLiteral query } result := by
  simp only [literalSearchCorpus] at membership
  split at membership
  next blank =>
    rw [blank]
    exact overviewResults_shown membership
  next =>
    have ranked := mem_rankSearchResults.mp (mem_of_mem_takeLimit membership)
    obtain ⟨page, pageIn, selected⟩ := List.mem_filterMap.mp ranked
    split_ifs at selected with refused below
    obtain rfl := Option.some.inj selected
    simp only [Bool.or_eq_true, not_or, Bool.not_eq_true] at refused
    exact ⟨page, pageIn, refused.1, _, _, rfl⟩

theorem mem_literalSearchCorpus {corpus : SearchCorpus} {query : Text}
    {options : SearchOptions R} {result : SearchResult R}
    (membership : result ∈ literalSearchCorpus corpus query options) :
    NamesIncluded corpus.pages options.excludePageIds result :=
  (literalSearchCorpus_shown membership).names

variable [Stemming]

theorem lexicalSearchCorpus_shown {corpus : SearchCorpus} {query : Text}
    {options : SearchOptions R} {result : SearchResult R}
    (membership : result ∈ lexicalSearchCorpus corpus query options) :
    ShowsIncluded corpus.pages options.excludePageIds options.snippetChars
      { queryTokens := uniqueTokens (tokenize corpus.analyzerProfile query) } result := by
  simp only [lexicalSearchCorpus] at membership
  split_ifs at membership with blank
  · rw [blank]
    exact overviewResults_shown membership
  · exact absurd membership List.not_mem_nil
  · exact absurd membership List.not_mem_nil
  · have ranked := mem_rankSearchResults.mp (mem_of_mem_takeLimit membership)
    obtain ⟨⟨document, index⟩, entryIn, selected⟩ := List.mem_filterMap.mp ranked
    obtain ⟨textScore, -, selected⟩ := Option.bind_eq_some_iff.mp selected
    split_ifs at selected with refused below
    obtain rfl := Option.some.inj selected
    simp only [Bool.or_eq_true, not_or, Bool.not_eq_true] at refused
    exact ⟨document.page, List.mem_map_of_mem (List.fst_mem_of_mem_zipIdx entryIn), refused.1,
      _, _, rfl⟩

theorem mem_lexicalSearchCorpus {corpus : SearchCorpus} {query : Text}
    {options : SearchOptions R} {result : SearchResult R}
    (membership : result ∈ lexicalSearchCorpus corpus query options) :
    NamesIncluded corpus.pages options.excludePageIds result :=
  (lexicalSearchCorpus_shown membership).names

theorem mem_searchCorpus {corpus : SearchCorpus} {mode : SearchMode} {query : Text}
    {options : SearchOptions R} {result : SearchResult R}
    (membership : result ∈ searchCorpus corpus mode query options) :
    NamesIncluded corpus.pages options.excludePageIds result := by
  cases mode with
  | lexical => exact mem_lexicalSearchCorpus membership
  | literal => exact mem_literalSearchCorpus membership

/-! ## Fused results -/

structure FusedFrom (property : SearchResult R → Prop) (fused : List (Text × FusedResult R)) :
    Prop where
  distinct : (fused.map Prod.fst).Nodup
  filed : ∀ kept ∈ fused, kept.1 = kept.2.exemplar.pageId
  holds : ∀ kept ∈ fused, property kept.2.exemplar

omit [Unicode] [Stemming] in
theorem fuseResult_from {property : SearchResult R → Prop} {primary : Bool}
    {fused : List (Text × FusedResult R)} {entry : SearchResult R × Nat}
    (known : FusedFrom property fused) (counted : property entry.1) :
    FusedFrom property (fuseResult primary fused entry) := by
  -- The exemplar under the page id is the result counted or the one known before.
  have exemplar : ∀ kept ∈ fuseResult primary fused entry,
      (kept.1 = entry.1.pageId ∧ kept.2.exemplar = entry.1) ∨
        ∃ before ∈ fused, before.1 = kept.1 ∧ before.2.exemplar = kept.2.exemplar := by
    intro kept keptIn
    rcases Keyed.mem_set keptIn with same | earlier
    · subst same
      cases primary with
      | true => exact Or.inl ⟨rfl, rfl⟩
      | false =>
          cases found : Keyed.get? fused entry.1.pageId with
          | none => exact Or.inl ⟨rfl, by simp⟩
          | some before =>
              exact Or.inr ⟨_, Keyed.mem_of_get? found, rfl, by simp⟩
    · exact Or.inr ⟨kept, earlier, rfl, rfl⟩
  refine ⟨Keyed.nodup_map_fst_set known.distinct _ _, fun kept keptIn => ?_, fun kept keptIn => ?_⟩
  · obtain ⟨key, same⟩ | ⟨before, beforeIn, key, same⟩ := exemplar kept keptIn
    · rw [key, same]
    · rw [← key, ← same]
      exact known.filed before beforeIn
  · obtain ⟨-, same⟩ | ⟨before, beforeIn, -, same⟩ := exemplar kept keptIn
    · exact same ▸ counted
    · exact same ▸ known.holds before beforeIn

theorem mem_rankedChannelResults {corpus : SearchCorpus} {required : Option (List Text)}
    {options : SearchOptions R} {channel : Text} {entry : SearchResult R × Nat}
    (membership : entry ∈ rankedChannelResults corpus required options channel) :
    entry.1 ∈ lexicalSearchCorpus corpus channel options ∧
      ∀ pageIds, required = some pageIds → entry.1.pageId ∈ pageIds := by
  obtain ⟨entryIn, kept⟩ := List.mem_filter.mp membership
  refine ⟨List.fst_mem_of_mem_zipIdx entryIn, fun pageIds restricted => ?_⟩
  simpa [restricted] using kept

def fusedChannels (corpus : SearchCorpus) (channels : List Text) (options : SearchOptions R) :
    List (Text × FusedResult R) :=
  let required := exactRequiredPageIdsForQuery corpus (channels.head?.getD [])
  channels.zipIdx.foldl (fun fused channel =>
    (rankedChannelResults corpus required options channel.1).foldl
      (fuseResult (channel.2 = 0)) fused) []

theorem fusedChannels_from {property : SearchResult R → Prop} {corpus : SearchCorpus}
    {channels : List Text} {options : SearchOptions R}
    (counted : ∀ channel ∈ channels, ∀ entry,
      entry ∈ rankedChannelResults corpus
        (exactRequiredPageIdsForQuery corpus (channels.head?.getD [])) options channel →
      property entry.1) : FusedFrom property (fusedChannels corpus channels options) := by
  apply List.foldlRecOn
  · exact ⟨List.nodup_nil, by simp, by simp⟩
  · intro fused known channel channelIn
    apply List.foldlRecOn
    · exact known
    · intro fused known entry entryIn
      exact fuseResult_from known
        (counted channel.1 (List.fst_mem_of_mem_zipIdx channelIn) entry entryIn)

theorem fusedLexicalVariantResults_eq (corpus : SearchCorpus) (channels : List Text)
    (options : SearchOptions R) :
    fusedLexicalVariantResults corpus channels options =
      (takeLimit options.limit
        (sortBy fusedLe ((fusedChannels corpus channels options).map Prod.snd))).map fun fused =>
          { fused.exemplar with score := Floats.round 6 fused.score } := rfl

theorem mem_fusedLexicalVariantResults {corpus : SearchCorpus} {channels : List Text}
    {options : SearchOptions R} {result : SearchResult R}
    (membership : result ∈ fusedLexicalVariantResults corpus channels options) :
    ∃ channel ∈ channels, ∃ entry,
      entry ∈ rankedChannelResults corpus
        (exactRequiredPageIdsForQuery corpus (channels.head?.getD [])) options channel ∧
      result.pageId = entry.1.pageId ∧ result.path = entry.1.path := by
  have from_ := @fusedChannels_from _ _ _ _ (fun counted => ∃ channel ∈ channels, ∃ entry,
      entry ∈ rankedChannelResults corpus
        (exactRequiredPageIdsForQuery corpus (channels.head?.getD [])) options channel ∧
      counted.pageId = entry.1.pageId ∧ counted.path = entry.1.path) corpus channels options
    fun channel channelIn entry entryIn => ⟨channel, channelIn, entry, entryIn, rfl, rfl⟩
  rw [fusedLexicalVariantResults_eq] at membership
  obtain ⟨fused, fusedIn, rfl⟩ := List.mem_map.mp membership
  obtain ⟨kept, keptIn, rfl⟩ := List.mem_map.mp (mem_sortBy.mp (mem_of_mem_takeLimit fusedIn))
  exact from_.holds kept keptIn

theorem fusedLexicalVariantResults_named {corpus : SearchCorpus} {channels : List Text}
    {options : SearchOptions R} {result : SearchResult R}
    (membership : result ∈ fusedLexicalVariantResults corpus channels options) :
    NamesIncluded corpus.pages options.excludePageIds result := by
  obtain ⟨channel, -, entry, entryIn, sameId, samePath⟩ :=
    mem_fusedLexicalVariantResults membership
  obtain ⟨page, pageIn, included, names⟩ :=
    mem_lexicalSearchCorpus (mem_rankedChannelResults entryIn).1
  exact ⟨page, pageIn, included, sameId.trans names.1, samePath.trans names.2⟩

end Results

end LlmWikiServe
