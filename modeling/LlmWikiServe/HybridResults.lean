import LlmWikiServe.ExactLookup
import LlmWikiServe.HybridSearch
import LlmWikiServe.VectorResults

/-!
# The results of hybrid search

Every result of a hybrid search names a page of the corpus that the request does not exclude, and
holds the compound where the query is one.  Without seeds or related pages the results are those
of the plain fusion of the answers that are not suppressed.
-/

namespace LlmWikiServe.HybridSearch

open VectorSearch VariantFusion

/-! ## The results of channels, fused -/

section Fused

variable {R : Type} [Floats R]

structure HybridFrom (property : SearchResult R → Prop) (fused : List (Text × HybridFused R)) :
    Prop where
  distinct : (fused.map Prod.fst).Nodup
  filed : ∀ kept ∈ fused, kept.1 = kept.2.result.pageId
  holds : ∀ kept ∈ fused, property kept.2.result

theorem addHybridResult_from {property : SearchResult R → Prop} {weight : ℚ}
    {fused : List (Text × HybridFused R)} {entry : SearchResult R × Nat}
    (known : HybridFrom property fused) (counted : property entry.1) :
    HybridFrom property (addHybridResult weight fused entry) := by
  -- The result under the page id is the first one counted.
  have first : ∀ kept ∈ addHybridResult weight fused entry,
      kept.1 = kept.2.result.pageId ∧ property kept.2.result := by
    intro kept keptIn
    rcases Keyed.mem_set keptIn with rfl | earlier
    · cases found : Keyed.get? fused entry.1.pageId with
      | none => exact ⟨rfl, counted⟩
      | some before =>
          have beforeIn := Keyed.mem_of_get? found
          exact ⟨known.filed (entry.1.pageId, before) beforeIn,
            known.holds (entry.1.pageId, before) beforeIn⟩
    · exact ⟨known.filed kept earlier, known.holds kept earlier⟩
  exact ⟨Keyed.nodup_map_fst_set known.distinct _ _, fun kept keptIn => (first kept keptIn).1,
    fun kept keptIn => (first kept keptIn).2⟩

theorem channels_from {property : SearchResult R → Prop}
    {channels : List (ℚ × List (SearchResult R))}
    (counted : ∀ channel ∈ channels, ∀ result ∈ channel.2, property result) :
    HybridFrom property (channels.foldl addHybridChannel []) := by
  refine List.foldlRecOn channels _ ⟨List.nodup_nil, by simp, by simp⟩
    fun fused known channel channelIn => ?_
  refine List.foldlRecOn _ _ known fun fused known entry entryIn => ?_
  exact addHybridResult_from known
    (counted channel channelIn entry.1 (List.fst_mem_of_mem_zipIdx entryIn))

theorem hybridResult_pageId (required : Option (List Text))
    (lexicalRanked : List (SearchResult R)) {kept : Text × HybridFused R}
    (filed : kept.1 = kept.2.result.pageId) :
    (hybridResult required lexicalRanked kept).pageId = kept.1 := by
  unfold hybridResult
  split_ifs with exact_
  · cases found : lexicalRanked.find? fun result => decide (result.pageId = kept.1) with
    | none => exact filed.symm
    | some result => simpa using List.find?_some found
  · exact filed.symm

/-- Properties of results that do not depend on the score and the route. -/
def Scoreless (property : SearchResult R → Prop) : Prop :=
  ∀ (result : SearchResult R) (score : R) (route : Text), property result →
    property { result with score := score, route := route }

theorem fusedHybridResults_from {property : SearchResult R → Prop} (scoreless : Scoreless property)
    (required : Option (List Text)) {lexicalRanked : List (SearchResult R)}
    {channels : List (ℚ × List (SearchResult R))} (limit : Int)
    (lexical : ∀ result ∈ lexicalRanked, property result)
    (counted : ∀ channel ∈ channels, ∀ result ∈ channel.2, property result) :
    ∀ result ∈ fusedHybridResults required lexicalRanked channels limit, property result := by
  intro result among
  obtain ⟨kept, keptIn, rfl⟩ := List.mem_map.mp among
  have listed := mem_sortBy.mp (mem_of_mem_takeLimit keptIn)
  have known := (channels_from counted).holds kept listed
  unfold hybridResult
  split_ifs
  · cases found : lexicalRanked.find? fun result => decide (result.pageId = kept.1) with
    | none => exact scoreless _ _ _ known
    | some base => exact scoreless _ _ _ (lexical base (List.mem_of_find?_eq_some found))
  · exact scoreless _ _ _ known

theorem nodup_fusedHybridResults (required : Option (List Text))
    (lexicalRanked : List (SearchResult R)) (channels : List (ℚ × List (SearchResult R)))
    (limit : Int) :
    ((fusedHybridResults required lexicalRanked channels limit).map SearchResult.pageId).Nodup := by
  have known : HybridFrom (fun _ => True) (channels.foldl addHybridChannel []) :=
    channels_from fun _ _ _ _ => trivial
  simp only [fusedHybridResults, List.map_map]
  refine List.Nodup.sublist ((takeLimit_sublist _ _).map _) ?_
  refine ((sortBy_perm _ _).map _).nodup_iff.mpr ?_
  have ids : (channels.foldl addHybridChannel []).map
        (SearchResult.pageId ∘ hybridResult required lexicalRanked) =
      (channels.foldl addHybridChannel []).map Prod.fst :=
    List.map_congr_left fun kept keptIn =>
      hybridResult_pageId required lexicalRanked (known.filed kept keptIn)
  rw [ids]
  exact known.distinct

omit [Floats R] in
theorem mem_allowedResults {required : Option (List Text)} {suppressed : List Text}
    {results : List (SearchResult R)} {result : SearchResult R} :
    result ∈ allowedResults required suppressed results ↔
      result ∈ results ∧ (∀ pageIds, required = some pageIds → result.pageId ∈ pageIds) ∧
        result.pageId ∉ suppressed := by
  cases required <;> simp [allowedResults]

end Fused

/-! ## The related pages -/

section Related

variable [Unicode] {R : Type} [Floats R]

omit [Floats R] [Unicode] in
def IncludedId (pages : List WikiPage) (excludePageIds : List Text) (pageId : Text) : Prop :=
  ∃ page ∈ pages, pageIsExcluded (pageExclusionSet excludePageIds) page = false ∧ page.id = pageId

omit [Unicode] [Floats R] in
theorem NamesIncluded.includedId {pages : List WikiPage} {excludePageIds : List Text}
    {result : SearchResult R} (named : NamesIncluded pages excludePageIds result) :
    IncludedId pages excludePageIds result.pageId := by
  obtain ⟨page, pageIn, included, names⟩ := named
  exact ⟨page, pageIn, included, names.1.symm⟩

omit [Unicode] in
theorem IncludedId.included {pages : List WikiPage} {excludePageIds : List Text}
    (distinct : (pages.map WikiPage.id).Nodup) {page : WikiPage} (pageIn : page ∈ pages)
    (asked : IncludedId pages excludePageIds page.id) :
    pageIsExcluded (pageExclusionSet excludePageIds) page = false := by
  obtain ⟨other, otherIn, included, same⟩ := asked
  exact List.inj_on_of_nodup_map distinct otherIn pageIn same ▸ included

theorem relatedVectorResults_included {answers : List Nat → Bool} {corpus : SearchCorpus}
    {seeds : List OrientationSeed} {index : VectorIndex R} {query : Text}
    {queryState : Option (List R × R)} {snippetChars : Option Int} {excludePageIds : List Text}
    {related : RelatedVectorResults R}
    (expanded : relatedVectorResultsFromOrientation answers corpus seeds index query queryState
      snippetChars excludePageIds = .ok related) :
    (∀ result ∈ related.results, NamesIncluded corpus.pages excludePageIds result) ∧
      ∀ pageId ∈ related.relatedIds, IncludedId corpus.pages excludePageIds pageId := by
  unfold relatedVectorResultsFromOrientation at expanded
  split at expanded
  next =>
    obtain rfl := Except.ok.inj expanded
    simp
  next queryVector queryNorm =>
    simp only [] at expanded
    split at expanded
    next =>
      obtain rfl := Except.ok.inj expanded
      simp
    next =>
      let pools := seeds.map (relatedPagePool corpus query (pageExclusionSet excludePageIds))
      let candidatePages := pools.flatten.dedup.filterMap fun pageId =>
        (Keyed.get? (pagesById corpus.pages) pageId).map fun page => (pageId, page)
      have filed : ∀ key page, Keyed.get? candidatePages key = some page →
          page ∈ corpus.pages ∧ page.id = key := by
        intro key page found
        obtain ⟨pageId, -, listed⟩ := List.mem_filterMap.mp (Keyed.mem_of_get? found)
        obtain ⟨owner, ownerFound, same⟩ := Option.map_eq_some_iff.mp listed
        obtain ⟨rfl, rfl⟩ := Prod.mk.inj same
        exact get?_pagesById ownerFound
      cases found : bestVectorRecordsByPage answers index candidatePages
          (pageExclusionSet excludePageIds) queryVector queryNorm
          (filteredRecordPositionsForSmallPageSubset index candidatePages
            (pageExclusionSet excludePageIds)) with
      | error failure =>
          rw [found] at expanded
          cases expanded
      | ok best =>
          rw [found] at expanded
          obtain rfl := Except.ok.inj expanded
          have known := bestVectorRecordsByPage_included found
          have candidate : ∀ ranked ∈ rankedPages candidatePages best, ranked.page ∈ corpus.pages ∧
              pageIsExcluded (pageExclusionSet excludePageIds) ranked.page = false := by
            intro ranked among
            obtain ⟨listed, included, -⟩ :=
              mem_rankedPages (fun key page here => (filed key page here).2) known among
            exact ⟨(filed _ _ listed).1, included⟩
          constructor
          · intro result among
            obtain ⟨ranked, rankedIn, rfl⟩ := List.mem_map.mp among
            obtain ⟨pageIn, included⟩ := candidate ranked
              (List.mem_of_mem_filter (mem_sortBy.mp (List.mem_of_mem_take rankedIn)))
            exact ⟨ranked.page, pageIn, included, rfl, rfl⟩
          · intro pageId among
            obtain ⟨ranked, rankedIn, rfl⟩ := List.mem_map.mp among
            obtain ⟨pageIn, included⟩ := candidate ranked
              (List.mem_of_mem_filter (mem_sortBy.mp (List.mem_of_mem_take rankedIn)))
            exact ⟨ranked.page, pageIn, included, rfl⟩

omit [Unicode] [Floats R] in
theorem mem_orientationSeeds {lexicalResults vectorResults : List (SearchResult R)}
    {corpus : SearchCorpus} {seed : OrientationSeed}
    (among : seed ∈ orientationSeeds lexicalResults vectorResults corpus) :
    seed.page ∈ corpus.pages ∧
      ∃ result, (result ∈ lexicalResults ∨ result ∈ vectorResults) ∧
        result.pageId = seed.page.id := by
  have ranked : ∀ (results : List (SearchResult R)) (pageId : Text),
      (Keyed.get? (rankByPage results) pageId).isSome = true →
      ∃ result ∈ results, result.pageId = pageId := by
    intro results pageId found
    obtain ⟨rank, found⟩ := Option.isSome_iff_exists.mp found
    rcases Keyed.mem_update (Keyed.mem_of_get? found) with none_ | listed
    · exact absurd none_ List.not_mem_nil
    · obtain ⟨entry, entryIn, same⟩ := List.mem_map.mp listed
      exact ⟨entry.1, List.fst_mem_of_mem_zipIdx entryIn, (Prod.mk.inj same).1⟩
  obtain ⟨page, pageIn, found⟩ :=
    List.mem_filterMap.mp (mem_sortBy.mp (List.mem_of_mem_take among))
  simp only [orientationSeed?] at found
  split_ifs at found with refused
  obtain rfl := Option.some.inj found
  have owner : (Keyed.get? (pagesById corpus.pages) page.id).getD page ∈ corpus.pages ∧
      ((Keyed.get? (pagesById corpus.pages) page.id).getD page).id = page.id := by
    cases stored : Keyed.get? (pagesById corpus.pages) page.id with
    | none => exact ⟨pageIn, rfl⟩
    | some other => exact get?_pagesById stored
  refine ⟨owner.1, ?_⟩
  simp only [Bool.or_eq_true, not_or, Bool.and_eq_true, Bool.not_eq_true', not_and,
    Bool.not_eq_false] at refused
  by_cases lexical : (Keyed.get? (rankByPage lexicalResults) page.id).isSome = true
  · obtain ⟨result, resultIn, same⟩ := ranked lexicalResults page.id lexical
    exact ⟨result, .inl resultIn, same.trans owner.2.symm⟩
  · have vector : (Keyed.get? (rankByPage vectorResults) page.id).isSome = true := by
      rw [Option.not_isSome_iff_eq_none] at lexical
      have bounded := refused.1.2 (by simp [lexical])
      obtain ⟨rank, found, -⟩ := (Option.any_eq_true _ _).mp bounded
      exact Option.isSome_iff_exists.mpr ⟨rank, found⟩
    obtain ⟨result, resultIn, same⟩ := ranked vectorResults page.id vector
    exact ⟨result, .inr resultIn, same.trans owner.2.symm⟩

omit [Unicode] in
theorem mem_rerankRelatedVectorResults {results : List (SearchResult R)}
    {lexicalRanks : List (Text × Nat)} {exactScores : List (Text × R)} {result : SearchResult R}
    (among : result ∈ rerankRelatedVectorResults results lexicalRanks exactScores) :
    result ∈ results := by
  unfold rerankRelatedVectorResults at among
  split_ifs at among
  · exact among
  · obtain ⟨entry, entryIn, rfl⟩ := List.mem_map.mp among
    exact List.fst_mem_of_mem_zipIdx (mem_sortBy.mp entryIn)

omit [Unicode] in
theorem mem_graphPriorResults {corpus : SearchCorpus} {relatedPageIds : List Text}
    {relatedResults : List (SearchResult R)} {exactScores : List (Text × R)}
    {result : SearchResult R}
    (among : result ∈ graphPriorResultsByVectorRelevance corpus relatedPageIds relatedResults
      exactScores) :
    ∃ page ∈ corpus.pages, page.id ∈ relatedPageIds ∧ result = graphPriorResult page := by
  obtain ⟨page, pageIn, found⟩ := List.mem_filterMap.mp among
  obtain ⟨pageId, related, stored⟩ := List.mem_filterMap.mp (mem_sortBy.mp pageIn)
  obtain ⟨first, firstFound, rfl⟩ := Option.map_eq_some_iff.mp found
  have same : first.id = page.id := by simpa using List.find?_some firstFound
  refine ⟨first, List.mem_of_find?_eq_some firstFound, ?_, rfl⟩
  rw [same, (get?_pagesById stored).2]
  exact List.mem_dedup.mp related

end Related

/-! ## The two branches -/

section Branches

variable [Unicode] {R : Type} [Floats R]

structure Answers (property : SearchResult R → Prop) (corpus : SearchCorpus) (query : Text)
    (suppressed : List Text) (result : SearchResult R) : Prop where
  holds : property result
  required : ∀ pageIds, exactRequiredPageIdsForQuery corpus query = some pageIds →
    result.pageId ∈ pageIds
  unsuppressed : result.pageId ∉ suppressed

omit [Floats R] in
theorem Answers.scoreless {property : SearchResult R → Prop} (scoreless : Scoreless property)
    (corpus : SearchCorpus) (query : Text) (suppressed : List Text) :
    Scoreless (Answers property corpus query suppressed) :=
  fun result score route known =>
    ⟨scoreless result score route known.holds, known.required, known.unsuppressed⟩

omit [Floats R] in
theorem answers_of_allowed {property : SearchResult R → Prop} {corpus : SearchCorpus} {query : Text}
    {suppressed : List Text} {results : List (SearchResult R)}
    (holds : ∀ result ∈ results, property result) {result : SearchResult R}
    (among : result ∈ allowedResults (exactRequiredPageIdsForQuery corpus query) suppressed results) :
    Answers property corpus query suppressed result := by
  obtain ⟨listed, required, unsuppressed⟩ := mem_allowedResults.mp among
  exact ⟨holds result listed, required, unsuppressed⟩

theorem plainHybrid_answers {property : SearchResult R → Prop} (scoreless : Scoreless property)
    {lexicalResults vectorResults : List (SearchResult R)} {corpus : SearchCorpus} {query : Text}
    {limit : Int} {suppress : Bool} (lexical : ∀ result ∈ lexicalResults, property result)
    (vector : ∀ result ∈ vectorResults, property result) {result : SearchResult R}
    (among : result ∈ plainHybridSearchResults lexicalResults vectorResults corpus query limit
      suppress) :
    Answers property corpus query
      (if suppress then suppressedOrientationAnswerPageIds corpus query else []) result := by
  unfold plainHybridSearchResults at among
  by_cases nothing : exactRequiredPageIdsForQuery corpus query = some []
  · rw [if_pos nothing] at among
    exact absurd among List.not_mem_nil
  · rw [if_neg nothing] at among
    refine fusedHybridResults_from (Answers.scoreless scoreless corpus query _) _ limit
      (fun result among => answers_of_allowed lexical among) ?_ result among
    simp only [List.mem_cons, List.not_mem_nil, or_false, forall_eq_or_imp, forall_eq]
    exact ⟨fun result among => answers_of_allowed lexical among,
      fun result among => answers_of_allowed vector among⟩

structure SeededChannels (property : SearchResult R → Prop)
    (lexicalResults vectorResults : List (SearchResult R)) (related : RelatedVectorResults R)
    (seeds : List OrientationSeed) (corpus : SearchCorpus) : Prop where
  lexical : ∀ result ∈ lexicalResults, property result
  vector : ∀ result ∈ vectorResults, property result
  relatedPages : ∀ result ∈ related.results, property result
  seedPages : ∀ seed ∈ seeds, property (seedResult seed)
  prior : ∀ page ∈ corpus.pages, page.id ∈ related.relatedIds → property (graphPriorResult page)

theorem orientationSeeded_answers {property : SearchResult R → Prop} (scoreless : Scoreless property)
    {lexicalResults vectorResults : List (SearchResult R)} {related : RelatedVectorResults R}
    {seeds : List OrientationSeed} {corpus : SearchCorpus} {query : Text} {limit : Int}
    (channels : SeededChannels property lexicalResults vectorResults related seeds corpus)
    {result : SearchResult R}
    (among : result ∈ orientationSeededHybridSearchResults lexicalResults vectorResults related
      seeds corpus query limit) :
    Answers property corpus query (suppressedOrientationAnswerPageIds corpus query) result := by
  simp only [orientationSeededHybridSearchResults] at among
  split_ifs at among
  · exact absurd among List.not_mem_nil
  refine fusedHybridResults_from (Answers.scoreless scoreless corpus query _) _ limit
    (fun result among => answers_of_allowed channels.lexical among) ?_ result among
  simp only [List.mem_cons, List.not_mem_nil, or_false, forall_eq_or_imp, forall_eq]
  refine ⟨fun result among => answers_of_allowed channels.lexical among,
    fun result among => ?_, fun result among => answers_of_allowed channels.vector among,
    fun result among => ?_, fun result among => ?_⟩
  · exact answers_of_allowed
      (fun result listed => channels.relatedPages result (List.mem_of_mem_filter listed))
      (mem_rerankRelatedVectorResults among)
  · refine answers_of_allowed (fun result listed => ?_) among
    obtain ⟨seed, seedIn, rfl⟩ := List.mem_map.mp listed
    exact channels.seedPages seed seedIn
  · refine answers_of_allowed (fun result listed => ?_) among
    obtain ⟨page, pageIn, relatedIn, rfl⟩ := mem_graphPriorResults listed
    exact channels.prior page pageIn relatedIn

theorem hybridSearch_cases {answers : HybridAnswers} {lexical : HybridLexical R}
    {index : VectorIndex R} {provider : EmbeddingProvider R} {pages : List WikiPage}
    {corpus : SearchCorpus} {query : Text} {options : HybridOptions}
    {results : List (SearchResult R)}
    (searched : hybridSearchResultsForVectorIndex answers lexical index provider pages corpus query
      options = .ok results) :
    ∃ queryState seeds related vectorResults,
      embedQueryVector provider query = .ok queryState ∧
      hybridRelated answers lexical index pages corpus query queryState options =
        .ok (seeds, related) ∧
      globalVectorResults answers index pages query queryState options = .ok vectorResults ∧
      results =
        if seeds = [] ∨ related.relatedIds = [] then
          plainHybridSearchResults lexical.results vectorResults corpus query options.limit true
        else
          orientationSeededHybridSearchResults lexical.results vectorResults related seeds corpus
            query options.limit := by
  unfold hybridSearchResultsForVectorIndex at searched
  cases embedded : embedQueryVector provider query with
  | error failure =>
      rw [embedded] at searched
      cases searched
  | ok queryState =>
      rw [embedded] at searched
      cases expanded : hybridRelated answers lexical index pages corpus query queryState options with
      | error failure =>
          simp only [bind, Except.bind, expanded] at searched
          cases searched
      | ok found =>
          cases global : globalVectorResults answers index pages query queryState options with
          | error failure =>
              simp only [bind, Except.bind, expanded, global] at searched
              cases searched
          | ok vectorResults =>
              simp only [bind, Except.bind, expanded, global] at searched
              refine ⟨queryState, found.1, found.2, vectorResults, rfl, expanded, global, ?_⟩
              split_ifs at searched ⊢ <;> exact (Except.ok.inj searched).symm

theorem hybridRelated_cases {answers : HybridAnswers} {lexical : HybridLexical R}
    {index : VectorIndex R} {pages : List WikiPage} {corpus : SearchCorpus} {query : Text}
    {queryState : Option (List R × R)} {options : HybridOptions} {seeds : List OrientationSeed}
    {related : RelatedVectorResults R}
    (expanded : hybridRelated answers lexical index pages corpus query queryState options =
      .ok (seeds, related)) :
    ∃ vectorResults,
      queryStateSearch answers.orientation index (pages.filter hybridOrientationPage) query
          queryState
          { limit := hybridOrientationCandidateLimit, snippetChars := options.snippetChars
            excludePageIds := options.excludePageIds } = .ok vectorResults ∧
      seeds = orientationSeeds lexical.orientation vectorResults corpus ∧
      relatedVectorResultsFromOrientation answers.related corpus seeds index query queryState
        options.snippetChars options.excludePageIds = .ok related := by
  unfold hybridRelated at expanded
  cases searched : queryStateSearch answers.orientation index (pages.filter hybridOrientationPage)
      query queryState
      { limit := hybridOrientationCandidateLimit, snippetChars := options.snippetChars
        excludePageIds := options.excludePageIds } with
  | error failure =>
      simp only [bind, Except.bind, searched] at expanded
      cases expanded
  | ok vectorResults =>
      cases found : relatedVectorResultsFromOrientation answers.related corpus
          (orientationSeeds lexical.orientation vectorResults corpus) index query queryState
          options.snippetChars options.excludePageIds with
      | error failure =>
          simp only [bind, Except.bind, searched, found] at expanded
          cases expanded
      | ok other =>
          simp only [bind, Except.bind, searched, found] at expanded
          obtain ⟨rfl, rfl⟩ := Prod.mk.inj (Except.ok.inj expanded)
          exact ⟨vectorResults, rfl, rfl, found⟩

end Branches

/-! ## Exclusion and visibility -/

section Served

variable [Unicode] {R : Type} [Floats R]

/-- The results name different pages of those given that are not excluded, within a limit that is
not negative. -/
structure Served (pages : List WikiPage) (excludePageIds : List Text) (limit : Int)
    (results : List (SearchResult R)) : Prop where
  distinct : (results.map SearchResult.pageId).Nodup
  short : 0 ≤ limit → results.length ≤ limit.toNat
  included : ∀ result ∈ results, NamesIncluded pages excludePageIds result

omit [Unicode] [Floats R] in
theorem scoreless_namesIncluded (pages : List WikiPage) (excludePageIds : List Text) :
    Scoreless (R := R) (NamesIncluded pages excludePageIds) :=
  fun _ _ _ named => named

omit [Unicode] [Floats R] in
theorem pageIsExcluded_append {front back : List Text} {page : WikiPage}
    (included : pageIsExcluded (pageExclusionSet (front ++ back)) page = false) :
    pageIsExcluded (pageExclusionSet front) page = false := by
  have more : ∀ entry ∈ pageExclusionSet front, entry ∈ pageExclusionSet (front ++ back) := by
    intro entry entryIn
    rw [pageExclusionSet, List.map_append, List.filter_append]
    exact List.mem_append_left _ entryIn
  simp only [pageIsExcluded, Bool.or_eq_false_iff] at included ⊢
  simp only [decide_eq_false_iff_not] at included ⊢
  exact ⟨fun excluded => included.1 (more _ excluded), fun excluded => included.2 (more _ excluded)⟩

omit [Unicode] in
theorem fusedHybridResults_bounded (required : Option (List Text))
    (lexicalRanked : List (SearchResult R)) (channels : List (ℚ × List (SearchResult R)))
    {limit : Int} (limited : 0 ≤ limit) :
    (fusedHybridResults required lexicalRanked channels limit).length ≤ limit.toNat :=
  (List.length_map _).trans_le (length_takeLimit_le limited _)

/-- Either branch gives no results or fuses some channels. -/
theorem branch_fused {lexicalResults vectorResults : List (SearchResult R)}
    {related : RelatedVectorResults R} {seeds : List OrientationSeed} {corpus : SearchCorpus}
    {query : Text} {limit : Int} {results : List (SearchResult R)}
    (branch : results =
      if seeds = [] ∨ related.relatedIds = [] then
        plainHybridSearchResults lexicalResults vectorResults corpus query limit true
      else
        orientationSeededHybridSearchResults lexicalResults vectorResults related seeds corpus
          query limit) :
    results = [] ∨ ∃ lexicalRanked channels, results =
      fusedHybridResults (exactRequiredPageIdsForQuery corpus query) lexicalRanked channels limit := by
  subst branch
  by_cases nothing : exactRequiredPageIdsForQuery corpus query = some []
  · left
    split_ifs
    · exact if_pos nothing
    · exact if_pos nothing
  · right
    split_ifs
    · exact ⟨_, _, if_neg nothing⟩
    · exact ⟨_, _, if_neg nothing⟩

variable [Stemming]

omit [Unicode] [Floats R] [Stemming] in
theorem mem_orientationExclude {corpus : SearchCorpus} {excludePageIds : List Text}
    {result : SearchResult R}
    (named : NamesIncluded corpus.pages (orientationExcludePageIds corpus.pages excludePageIds)
      result) : NamesIncluded corpus.pages excludePageIds result := by
  obtain ⟨page, pageIn, included, names⟩ := named
  exact ⟨page, pageIn, pageIsExcluded_append included, names⟩

theorem hybridResultObjects_served {answers : HybridAnswers} {index : VectorIndex R}
    {provider : EmbeddingProvider R} {corpus : SearchCorpus} {query : Text} {limit : Int}
    {snippetChars : Option Int} {excludePageIds : List Text} {results : List (SearchResult R)}
    (distinct : (corpus.pages.map WikiPage.id).Nodup)
    (searched : hybridResultObjects answers index provider corpus query limit snippetChars
      excludePageIds = .ok results) : Served corpus.pages excludePageIds limit results := by
  obtain ⟨queryState, seeds, related, vectorResults, -, expanded, global, branch⟩ :=
    hybridSearch_cases searched
  obtain ⟨orientationResults, oriented, rfl, found⟩ := hybridRelated_cases expanded
  obtain ⟨relatedNamed, relatedIncluded⟩ := relatedVectorResults_included found
  have scoreless := scoreless_namesIncluded (R := R) corpus.pages excludePageIds
  have vector : ∀ result ∈ vectorResults, NamesIncluded corpus.pages excludePageIds result :=
    fun result among => vectorResults_included global among
  have ofId : ∀ page ∈ corpus.pages, IncludedId corpus.pages excludePageIds page.id →
      ∀ result : SearchResult R, result.Names page →
        NamesIncluded corpus.pages excludePageIds result :=
    fun page pageIn asked result names => ⟨page, pageIn, asked.included distinct pageIn, names⟩
  refine ⟨?_, fun limited => ?_, fun result among => ?_⟩
  · rcases branch_fused branch with rfl | ⟨lexicalRanked, channels, rfl⟩
    · exact List.nodup_nil
    · exact nodup_fusedHybridResults _ _ _ _
  · rcases branch_fused branch with rfl | ⟨lexicalRanked, channels, rfl⟩
    · exact Nat.zero_le _
    · exact fusedHybridResults_bounded _ _ _ limited
  · subst branch
    split_ifs at among
    · exact (plainHybrid_answers scoreless (fun result among => mem_lexicalSearchCorpus among)
        vector among).holds
    · refine (orientationSeeded_answers scoreless ⟨fun result among =>
        mem_lexicalSearchCorpus among, vector, relatedNamed, fun seed seedIn => ?_,
        fun page pageIn asked => ?_⟩ among).holds
      · obtain ⟨pageIn, result, resultIn, same⟩ := mem_orientationSeeds seedIn
        refine ofId seed.page pageIn (same ▸ ?_) _ ⟨rfl, rfl⟩
        rcases resultIn with lexicalIn | vectorIn
        · exact NamesIncluded.includedId (mem_orientationExclude (mem_lexicalSearchCorpus lexicalIn))
        · obtain ⟨page, pageIn, included, names⟩ := vectorResults_included oriented vectorIn
          exact ⟨page, List.mem_of_mem_filter pageIn, included, names.1.symm⟩
      · exact ofId page pageIn (relatedIncluded page.id asked) _ ⟨rfl, rfl⟩

/-- Every fused or semantic search names different pages of the corpus that are not excluded. -/
theorem searches_served {corpus : SearchCorpus} (distinct : (corpus.pages.map WikiPage.id).Nodup) :
    (∀ (channels : List Text) (options : SearchOptions R),
      Served corpus.pages options.excludePageIds options.limit
        (fusedLexicalVariantResults corpus channels options)) ∧
    (∀ (answers : List Nat → Bool) (index : VectorIndex R) (query : Text)
      (queryVector : Option (List R)) (queryNorm : R) (options : VectorOptions)
      (results : List (SearchResult R)),
      searchVectorIndexWithQueryVector answers index corpus.pages query queryVector queryNorm
        options = .ok results →
      Served corpus.pages options.excludePageIds options.limit results) ∧
    (∀ (answers : HybridAnswers) (index : VectorIndex R) (provider : EmbeddingProvider R)
      (query : Text) (limit : Int) (snippetChars : Option Int) (excludePageIds : List Text)
      (results : List (SearchResult R)),
      hybridResultObjects answers index provider corpus query limit snippetChars excludePageIds =
        .ok results →
      Served corpus.pages excludePageIds limit results) := by
  refine ⟨fun channels options => ⟨nodup_fusedLexicalVariantResults corpus channels options,
    fun limited => ?_, fun result among => fusedLexicalVariantResults_named among⟩, ?_, ?_⟩
  · exact (List.length_map _).trans_le (length_takeLimit_le limited _)
  · intro answers index query queryVector queryNorm options results searched
    exact ⟨nodup_vectorResults searched distinct, length_vectorResults_le searched,
      fun result among => vectorResults_included searched among⟩
  · intro answers index provider query limit snippetChars excludePageIds results searched
    exact hybridResultObjects_served distinct searched

end Served

section SharedPages

attribute [local instance] Unicode.ascii Stemming.identity seriesFloats

/-- All queries have one vector. -/
def flatProvider : EmbeddingProvider ℚ := { dimension := 1, embedQuery := fun _ => [1], sqrt := id }

def flatIndex (pageIds : List Text) : VectorIndex ℚ where
  records := pageIds.map fun pageId =>
    { pageId, ordinal := 0, start := 0, end_ := 0, vector := [1], norm := 1 }
  dimension := 1
  vectorMatrix := none
  vectorNorms := none

def withoutLibrary : HybridAnswers := ⟨fun _ => false, fun _ => false, fun _ => false⟩

theorem searches_served_shared :
    ∃ results, hybridResultObjects withoutLibrary (flatIndex ["x", "gone"]) flatProvider sharedCorpus
        "alpha" 2 none ["z"] = .ok results ∧
      Served sharedCorpus.pages ["z"] 2 results := by
  have distinct : (sharedCorpus.pages.map WikiPage.id).Nodup := by decide
  cases searched : hybridResultObjects withoutLibrary (flatIndex ["x", "gone"]) flatProvider
      sharedCorpus "alpha" 2 none ["z"] with
  | error failure =>
      have answered : (hybridResultObjects withoutLibrary (flatIndex ["x", "gone"]) flatProvider
          sharedCorpus "alpha" 2 none ["z"]).isOk = true := by decide +kernel
      rw [searched] at answered
      cases answered
  | ok results =>
      exact ⟨results, rfl, (searches_served distinct).2.2 _ _ _ _ _ _ _ _ searched⟩

/-- A negative limit leaves a result out and gives the other one. -/
theorem negative_limit_exceeded :
    ¬ ((fusedLexicalVariantResults (R := ℚ) sharedCorpus ["alpha"] { limit := -1 }).length : Int) ≤
      -1 := by
  decide +kernel

end SharedPages

/-! ## The guard of exact compounds -/

section Guard

open LexicalScan (HoldsCompound)

variable [Unicode] [Stemming] {R : Type} [Floats R]

omit [Unicode] [Stemming] [Floats R] in
theorem mem_postings {corpus : SearchCorpus} {channel : SearchDocument → List Text} {token : Text}
    {docIndex : Nat} (among : docIndex ∈ (corpus.postings channel token).map Prod.fst) :
    ∃ document, corpus.documents[docIndex]? = some document ∧ token ∈ channel document := by
  obtain ⟨entry, entryIn, rfl⟩ := List.mem_map.mp among
  obtain ⟨⟨document, docIndex⟩, numbered, found⟩ := List.mem_filterMap.mp entryIn
  dsimp only at found
  split_ifs at found with absent
  obtain rfl := Option.some.inj found
  exact ⟨document, List.mem_zipIdx_iff_getElem?.mp numbered,
    List.count_pos_iff.mp (Nat.pos_of_ne_zero absent)⟩

def Holding (pages : List WikiPage) (compound : Text) (result : SearchResult R) : Prop :=
  (∃ page ∈ pages, page.id = result.pageId) ∧
    ∀ page ∈ pages, page.id = result.pageId → HoldsCompound page compound

omit [Floats R] in
theorem holding_of_required {pages : List WikiPage} (distinct : (pages.map WikiPage.id).Nodup)
    {query : Text} (single : singleExactCompoundQueryToken .english query ≠ [])
    {result : SearchResult R}
    (required : ∀ pageIds,
      exactRequiredPageIdsForQuery (buildSearchCorpus .english pages) query = some pageIds →
      result.pageId ∈ pageIds) :
    Holding pages (singleExactCompoundQueryToken .english query) result := by
  let corpus := buildSearchCorpus .english pages
  let token := singleExactCompoundQueryToken .english query
  have asked : exactRequiredPageIdsForQuery corpus query =
      some (((corpus.postings SearchDocument.exactCompounds token ++
        corpus.postings SearchDocument.exactMetadata token).map Prod.fst).filterMap fun index =>
          corpus.pages[index]?.map WikiPage.id) := by
    change (exactRequiredDocIndexes corpus token).map _ = _
    rw [exactRequiredDocIndexes, if_neg single]
    rfl
  obtain ⟨docIndex, indexIn, found⟩ := List.mem_filterMap.mp (required _ asked)
  obtain ⟨page, here, same⟩ := Option.map_eq_some_iff.mp found
  rw [buildSearchCorpus_pages] at here
  have document : corpus.documents[docIndex]? = some (searchDocument .english page) := by
    change (pages.map (searchDocument .english))[docIndex]? = _
    rw [List.getElem?_map, here]
    rfl
  have holds : HoldsCompound page token := by
    rw [List.map_append, List.mem_append] at indexIn
    rcases indexIn with authored | metadata
    · obtain ⟨other, otherHere, tokenIn⟩ := mem_postings authored
      obtain rfl := Option.some.inj (document.symm.trans otherHere)
      exact .inl tokenIn
    · obtain ⟨other, otherHere, tokenIn⟩ := mem_postings metadata
      obtain rfl := Option.some.inj (document.symm.trans otherHere)
      exact .inr tokenIn
  refine ⟨⟨page, List.mem_of_getElem? here, same⟩, fun other otherIn otherSame => ?_⟩
  have equal := List.inj_on_of_nodup_map distinct otherIn (List.mem_of_getElem? here)
    (otherSame.trans same.symm)
  exact equal ▸ holds

omit [Stemming] in
theorem hybridSearch_required {answers : HybridAnswers} {lexical : HybridLexical R}
    {index : VectorIndex R} {provider : EmbeddingProvider R} {pages : List WikiPage}
    {corpus : SearchCorpus} {query : Text} {options : HybridOptions}
    {results : List (SearchResult R)}
    (searched : hybridSearchResultsForVectorIndex answers lexical index provider pages corpus query
      options = .ok results) {result : SearchResult R} (among : result ∈ results)
    (pageIds : List Text) (asked : exactRequiredPageIdsForQuery corpus query = some pageIds) :
    result.pageId ∈ pageIds := by
  obtain ⟨queryState, seeds, related, vectorResults, -, -, -, rfl⟩ := hybridSearch_cases searched
  have any : Scoreless fun _ : SearchResult R => True := fun _ _ _ _ => trivial
  split_ifs at among
  · exact (plainHybrid_answers any (fun _ _ => trivial) (fun _ _ => trivial) among).required
      pageIds asked
  · refine (orientationSeeded_answers any ?_ among).required pageIds asked
    exact ⟨fun _ _ => trivial, fun _ _ => trivial, fun _ _ => trivial, fun _ _ => trivial,
      fun _ _ _ => trivial⟩

/-- A query of one compound finds pages that hold it, whichever search answers. -/
theorem exactCompound_guards {pages : List WikiPage} (distinct : (pages.map WikiPage.id).Nodup)
    {query : Text} (single : singleExactCompoundQueryToken .english query ≠ []) :
    let corpus := buildSearchCorpus .english pages
    let compound := singleExactCompoundQueryToken .english query
    let Guarded := fun results : List (SearchResult R) =>
      (∀ result ∈ results, Holding pages compound result) ∧
        ((∀ page ∈ pages, ¬ HoldsCompound page compound) → results = [])
    (∀ options : SearchOptions R, Guarded (lexicalSearchCorpus corpus query options)) ∧
    (∀ (others : List Text) (options : SearchOptions R),
      Guarded (fusedLexicalVariantResults corpus (query :: others) options)) ∧
    (∀ (answers : HybridAnswers) (lexical : HybridLexical R) (index : VectorIndex R)
      (provider : EmbeddingProvider R) (visible : List WikiPage) (options : HybridOptions)
      (results : List (SearchResult R)),
      hybridSearchResultsForVectorIndex answers lexical index provider visible corpus query
        options = .ok results →
      Guarded results) := by
  intro corpus compound Guarded
  have guarded : ∀ results : List (SearchResult R),
      (∀ result ∈ results, Holding pages compound result) → Guarded results := by
    intro results holding
    refine ⟨holding, fun none_ => List.eq_nil_iff_forall_not_mem.mpr fun result among => ?_⟩
    obtain ⟨⟨page, pageIn, same⟩, holds⟩ := holding result among
    exact none_ page pageIn (holds page pageIn same)
  refine ⟨fun options => guarded _ fun result among => ?_,
    fun others options => guarded _ fun result among => ?_, ?_⟩
  · exact holding_of_required distinct single fun pageIds asked =>
      mem_exactRequiredPageIds among asked
  · obtain ⟨channel, -, entry, entryIn, sameId, -⟩ := mem_fusedLexicalVariantResults among
    refine holding_of_required distinct single fun pageIds asked => ?_
    exact sameId ▸ (mem_rankedChannelResults entryIn).2 pageIds asked
  · intro answers lexical index provider visible options results searched
    exact guarded _ fun result among =>
      holding_of_required distinct single (hybridSearch_required searched among)

end Guard

section VersionPages

attribute [local instance] Unicode.ascii Stemming.identity seriesFloats

def versionPages : List WikiPage :=
  [{ id := "a", title := "A", path := "a.md", role := .topic, text := "see v1.2" },
    { id := "b", title := "B", path := "b.md", role := .topic, text := "see v1.3" }]

theorem exactCompound_guards_version :
    (∀ result ∈ lexicalSearchCorpus (R := ℚ) (buildSearchCorpus .english versionPages) "v1.2" {},
      Holding versionPages (singleExactCompoundQueryToken .english "v1.2") result) ∧
    ((∀ page ∈ versionPages,
        ¬ LexicalScan.HoldsCompound page (singleExactCompoundQueryToken .english "v1.2")) →
      lexicalSearchCorpus (R := ℚ) (buildSearchCorpus .english versionPages) "v1.2" {} = []) :=
  (exactCompound_guards (by decide) (by decide)).1 {}

end VersionPages

/-! ## The fallback -/

section Fallback

variable [Unicode] {R : Type} [Floats R]

def unsuppressedAnswers (corpus : SearchCorpus) (query : Text) (results : List (SearchResult R)) :
    List (SearchResult R) :=
  results.filter fun result => result.pageId ∉ suppressedOrientationAnswerPageIds corpus query

omit [Floats R] in
theorem allowedResults_unsuppressed (required : Option (List Text)) (corpus : SearchCorpus)
    (query : Text) (results : List (SearchResult R)) :
    allowedResults required [] (unsuppressedAnswers corpus query results) =
      allowedResults required (suppressedOrientationAnswerPageIds corpus query) results := by
  rw [allowedResults, allowedResults, unsuppressedAnswers, List.filter_filter]
  refine List.filter_congr fun result _ => ?_
  simp

omit [Floats R] in
theorem allowedResults_of_unsuppressed {required : Option (List Text)} {corpus : SearchCorpus}
    {query : Text} {results : List (SearchResult R)}
    (free : ∀ result ∈ allowedResults required [] results,
      result.pageId ∉ suppressedOrientationAnswerPageIds corpus query) :
    allowedResults required (suppressedOrientationAnswerPageIds corpus query) results =
      allowedResults required [] results := by
  refine List.filter_congr fun result listed => ?_
  by_cases asked : (required.all fun pageIds => decide (result.pageId ∈ pageIds)) = true
  · have kept : result ∈ allowedResults required [] results :=
      List.mem_filter.mpr ⟨listed, by simp [asked]⟩
    simp [free result kept]
  · simp [asked]

theorem plainHybrid_suppressed (lexicalResults vectorResults : List (SearchResult R))
    (corpus : SearchCorpus) (query : Text) (limit : Int) :
    plainHybridSearchResults lexicalResults vectorResults corpus query limit true =
      plainHybridSearchResults (unsuppressedAnswers corpus query lexicalResults)
        (unsuppressedAnswers corpus query vectorResults) corpus query limit false := by
  simp only [plainHybridSearchResults, if_true, Bool.false_eq_true, if_false,
    allowedResults_unsuppressed]

theorem plainHybrid_unsuppressed {lexicalResults vectorResults : List (SearchResult R)}
    {corpus : SearchCorpus} {query : Text} (limit : Int)
    (lexical : ∀ result ∈ allowedResults (exactRequiredPageIdsForQuery corpus query) []
      lexicalResults, result.pageId ∉ suppressedOrientationAnswerPageIds corpus query)
    (vector : ∀ result ∈ allowedResults (exactRequiredPageIdsForQuery corpus query) []
      vectorResults, result.pageId ∉ suppressedOrientationAnswerPageIds corpus query) :
    plainHybridSearchResults lexicalResults vectorResults corpus query limit true =
      plainHybridSearchResults lexicalResults vectorResults corpus query limit false := by
  simp only [plainHybridSearchResults, if_true, Bool.false_eq_true, if_false,
    allowedResults_of_unsuppressed lexical, allowedResults_of_unsuppressed vector]

/-- Without seeds or related pages a hybrid search is the plain fusion of the lexical and the
global vector results less the suppressed answers, and of these results themselves where none of
those allowed is suppressed. -/
theorem hybridFallback {answers : HybridAnswers} {lexical : HybridLexical R}
    {index : VectorIndex R} {provider : EmbeddingProvider R} {pages : List WikiPage}
    {corpus : SearchCorpus} {query : Text} {options : HybridOptions}
    {queryState : Option (List R × R)} {seeds : List OrientationSeed}
    {related : RelatedVectorResults R} {vectorResults : List (SearchResult R)}
    (embedded : embedQueryVector provider query = .ok queryState)
    (expanded : hybridRelated answers lexical index pages corpus query queryState options =
      .ok (seeds, related))
    (global : globalVectorResults answers index pages query queryState options = .ok vectorResults)
    (fallback : seeds = [] ∨ related.relatedIds = []) :
    let suppressed := suppressedOrientationAnswerPageIds corpus query
    let allowed := allowedResults (R := R) (exactRequiredPageIdsForQuery corpus query) []
    ∃ results,
      hybridSearchResultsForVectorIndex answers lexical index provider pages corpus query options =
        .ok results ∧
      results = plainHybridSearchResults (unsuppressedAnswers corpus query lexical.results)
        (unsuppressedAnswers corpus query vectorResults) corpus query options.limit false ∧
      (∀ result ∈ results, result.pageId ∉ suppressed) ∧
      ((∀ result ∈ allowed lexical.results ++ allowed vectorResults,
          result.pageId ∉ suppressed) →
        results = plainHybridSearchResults lexical.results vectorResults corpus query
          options.limit false) := by
  intro suppressed allowed
  refine ⟨plainHybridSearchResults lexical.results vectorResults corpus query options.limit true,
    ?_, plainHybrid_suppressed _ _ _ _ _, fun result among => ?_, fun free => ?_⟩
  · unfold hybridSearchResultsForVectorIndex
    simp only [bind, Except.bind, embedded, expanded, global]
    exact if_pos fallback
  · exact (@plainHybrid_answers _ _ _ (fun _ => True) (fun _ _ _ _ => trivial) _ _ _ _ _ _
      (fun _ _ => trivial) (fun _ _ => trivial) _ among).unsuppressed
  · exact plainHybrid_unsuppressed options.limit
      (fun result among => free result (List.mem_append_left _ among))
      (fun result among => free result (List.mem_append_right _ among))

end Fallback

section Hub

attribute [local instance] Unicode.ascii Stemming.identity seriesFloats

def hubCorpus : SearchCorpus :=
  buildSearchCorpus .english
    [{ id := "hub", title := "Hub", path := "hub.md", role := .index, text := "alpha" }]

def hubLexical : HybridLexical ℚ where
  results := searchCorpus hubCorpus .lexical "alpha" { limit := 1 }
  orientation := searchCorpus hubCorpus .lexical "alpha" { limit := 24 }

def hubOptions : HybridOptions := { limit := 8, candidateLimit := 1 }

theorem hubRelated : (hybridRelated withoutLibrary hubLexical (flatIndex []) hubCorpus.pages
    hubCorpus "alpha" (some ([1], 1)) hubOptions).toOption.map (fun found => found.2.relatedIds) =
      some [] := by
  decide +kernel

theorem hybridFallback_hub :
    ∃ results, hybridSearchResultsForVectorIndex withoutLibrary hubLexical (flatIndex [])
        flatProvider hubCorpus.pages hubCorpus "alpha" hubOptions = .ok results ∧
      ∀ result ∈ results,
        result.pageId ∉ suppressedOrientationAnswerPageIds hubCorpus "alpha" := by
  have embedded : embedQueryVector flatProvider "alpha" = .ok (some ([1], 1)) := by decide +kernel
  have global : globalVectorResults withoutLibrary (flatIndex []) hubCorpus.pages "alpha"
      (some ([1], 1)) hubOptions = .ok [] := rfl
  cases expanded : hybridRelated withoutLibrary hubLexical (flatIndex []) hubCorpus.pages hubCorpus
      "alpha" (some ([1], 1)) hubOptions with
  | error failure =>
      have related := hubRelated
      rw [expanded] at related
      cases related
  | ok found =>
      have related := hubRelated
      rw [expanded] at related
      obtain ⟨results, searched, -, unsuppressed, -⟩ :=
        hybridFallback embedded expanded global (.inr (Option.some.inj related))
      exact ⟨results, searched, unsuppressed⟩

/-- The hub is the only lexical result and no answer. -/
theorem hub_left_out :
    (hybridRelated withoutLibrary hubLexical (flatIndex []) hubCorpus.pages hubCorpus "alpha"
        (some ([1], 1)) hubOptions).toOption.map (fun found => found.2.relatedIds) = some [] ∧
      (hybridSearchResultsForVectorIndex withoutLibrary hubLexical (flatIndex []) flatProvider
        hubCorpus.pages hubCorpus "alpha" hubOptions).toOption.map
          (fun results => results.map SearchResult.pageId) = some [] ∧
      (plainHybridSearchResults hubLexical.results [] hubCorpus "alpha" 8 false).map
        SearchResult.pageId = ["hub"] := by
  decide +kernel

end Hub

end LlmWikiServe.HybridSearch
