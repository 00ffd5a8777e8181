import LlmWikiServe.VariantFusion
import LlmWikiServe.VectorSearch

/-!
# The results of vector search

A vector search shows the best chunks of pages it may show, or an overview of them.
-/

namespace LlmWikiServe.VectorSearch

open VariantFusion

/-! ## The best records -/

section Best

variable {R : Type} [Floats R]

omit [Floats R] in
theorem get?_pagesById {pages : List WikiPage} {pageId : Text} {page : WikiPage}
    (found : Keyed.get? (pagesById pages) pageId = some page) : page ∈ pages ∧ page.id = pageId := by
  rcases Keyed.mem_update (Keyed.mem_of_get? found) with none_ | listed
  · exact absurd none_ List.not_mem_nil
  · obtain ⟨owner, ownerIn, same⟩ := List.mem_map.mp listed
    obtain ⟨key, rfl⟩ := Prod.mk.inj same
    exact ⟨ownerIn, key⟩

omit [Floats R] in
theorem filed_pagesById {pages : List WikiPage} (key : Text) (page : WikiPage)
    (found : Keyed.get? (pagesById pages) key = some page) : page.id = key :=
  (get?_pagesById found).2

/-- The best records are of the index and filed once each under the ids of pages that are not
excluded. -/
structure BestIncluded (index : VectorIndex R) (pages : List (Text × WikiPage))
    (excluded : List Text) (best : BestByPage R) : Prop where
  distinct : (best.map Prod.fst).Nodup
  included : ∀ entry ∈ best, ∃ page, Keyed.get? pages entry.1 = some page ∧
    pageIsExcluded excluded page = false
  indexed : ∀ entry ∈ best, entry.2.2 ∈ index.records ∧ entry.2.2.pageId = entry.1

theorem keepBest_included {index : VectorIndex R} {pages : List (Text × WikiPage)}
    {excluded : List Text} {best : BestByPage R} (known : BestIncluded index pages excluded best)
    (item : Nat × Option R) :
    BestIncluded index pages excluded (keepBest index pages excluded best item) := by
  have stored : ∀ (record : VectorChunkRecord R) (score : R) (page : WikiPage),
      record ∈ index.records → Keyed.get? pages record.pageId = some page →
      pageIsExcluded excluded page = false →
      BestIncluded index pages excluded (Keyed.set best record.pageId (score, record)) := by
    intro record score page indexed found included
    constructor
    case distinct => exact Keyed.nodup_map_fst_set known.distinct _ _
    case included =>
      intro entry entryIn
      rcases Keyed.mem_set entryIn with rfl | earlier
      · exact ⟨page, found, included⟩
      · exact known.included entry earlier
    case indexed =>
      intro entry entryIn
      rcases Keyed.mem_set entryIn with rfl | earlier
      · exact ⟨indexed, rfl⟩
      · exact known.indexed entry earlier
  unfold keepBest
  split
  next record score there _ =>
    have indexed := List.mem_of_getElem? there
    cases found : Keyed.get? pages record.pageId with
    | none => exact known
    | some page =>
        simp only []
        split_ifs with refused
        · exact known
        · simp only [Bool.or_eq_true, not_or, Bool.not_eq_true] at refused
          cases Keyed.get? best record.pageId with
          | none => exact stored record score page indexed found refused.1.1
          | some previous =>
              simp only []
              split_ifs
              · exact stored record score page indexed found refused.1.1
              · exact known
  next => exact known

theorem bestVectorRecordsByPage_included {answers : List Nat → Bool} {index : VectorIndex R}
    {pages : List (Text × WikiPage)} {excluded : List Text} {queryVector : List R} {queryNorm : R}
    {positions : Option (List Nat)} {best : BestByPage R}
    (found : bestVectorRecordsByPage answers index pages excluded queryVector queryNorm positions =
      .ok best) : BestIncluded index pages excluded best := by
  have fromScores : ∀ useNumpy, bestVectorRecordsByPageFromScores answers index pages excluded
      queryVector queryNorm positions useNumpy = .ok best →
      BestIncluded index pages excluded best := by
    intro useNumpy found
    unfold bestVectorRecordsByPageFromScores at found
    cases scored : iterVectorRecordScoreItems answers index queryVector queryNorm positions
        useNumpy with
    | error failure =>
        rw [scored] at found
        cases found
    | ok items =>
        rw [scored] at found
        obtain rfl := Except.ok.inj found
        exact List.foldlRecOn items _ ⟨List.nodup_nil, by simp, by simp⟩
          fun best known item _ => keepBest_included known item
  simp only [bestVectorRecordsByPage] at found
  split at found
  next => exact fromScores false found
  next => exact fromScores true found

omit [Floats R] in
theorem mem_rankedPages {index : VectorIndex R} {pages : List (Text × WikiPage)}
    {excluded : List Text}
    {best : BestByPage R} (filed : ∀ key page, Keyed.get? pages key = some page → page.id = key)
    (known : BestIncluded index pages excluded best) {ranked : RankedPage R}
    (among : ranked ∈ rankedPages pages best) :
    Keyed.get? pages ranked.page.id = some ranked.page ∧
      pageIsExcluded excluded ranked.page = false ∧
      ranked.record ∈ index.records ∧ ranked.record.pageId = ranked.page.id := by
  obtain ⟨entry, entryIn, found⟩ := List.mem_filterMap.mp among
  obtain ⟨page, pageFound, rfl⟩ := Option.map_eq_some_iff.mp found
  obtain ⟨other, otherFound, included⟩ := known.included entry entryIn
  obtain rfl := Option.some.inj (pageFound.symm.trans otherFound)
  obtain ⟨indexed, owned⟩ := known.indexed entry entryIn
  have filedHere := filed _ _ pageFound
  exact ⟨filedHere.symm ▸ pageFound, included, indexed, owned.trans filedHere.symm⟩

omit [Floats R] in
theorem nodup_rankedPages {index : VectorIndex R} {pages : List (Text × WikiPage)}
    {excluded : List Text}
    {best : BestByPage R} (filed : ∀ key page, Keyed.get? pages key = some page → page.id = key)
    (known : BestIncluded index pages excluded best) :
    ((rankedPages pages best).map fun ranked => ranked.page.id).Nodup := by
  refine List.Nodup.sublist (Keyed.filterMap_keys ?_) known.distinct
  intro entry ranked found
  obtain ⟨page, pageFound, rfl⟩ := Option.map_eq_some_iff.mp found
  exact filed _ _ pageFound

variable [Unicode]

theorem searchVectorIndex_cases {answers : List Nat → Bool} {index : VectorIndex R}
    {pages : List WikiPage} {query : Text} {queryVector : Option (List R)} {queryNorm : R}
    {options : VectorOptions} {results : List (SearchResult R)}
    (searched : searchVectorIndexWithQueryVector answers index pages query queryVector queryNorm
      options = .ok results) :
    results = [] ∨
      results = overviewResults pages options.limit options.snippetChars options.excludePageIds ∨
      ∃ best, BestIncluded index (pagesById pages) (pageExclusionSet options.excludePageIds) best ∧
        results = (takeLimit options.limit (sortBy vectorLe (rankedPages (pagesById pages) best))).map
          fun ranked => vectorResult ranked.page ranked.score ranked.record
            options.snippetChars := by
  unfold searchVectorIndexWithQueryVector at searched
  split at searched
  next _ _ _ vector normed =>
    simp only [] at searched
    split at searched
    next => exact .inl (Except.ok.inj searched).symm
    next =>
      cases found : bestVectorRecordsByPage answers index (pagesById pages)
          (pageExclusionSet options.excludePageIds) vector queryNorm
          (filteredRecordPositionsForSmallPageSubset index (pagesById pages)
            (pageExclusionSet options.excludePageIds)) with
      | error failure =>
          rw [found] at searched
          cases searched
      | ok best =>
          rw [found] at searched
          exact .inr (.inr ⟨best, bestVectorRecordsByPage_included found,
            (Except.ok.inj searched).symm⟩)
  next =>
    obtain rfl := Except.ok.inj searched
    unfold vectorQueryFallbackResults
    split_ifs
    · exact .inl rfl
    · exact .inr (.inl rfl)

theorem vectorResults_shown {answers : List Nat → Bool} {index : VectorIndex R}
    {pages : List WikiPage} {query : Text} {queryVector : Option (List R)} {queryNorm : R}
    {options : VectorOptions} {results : List (SearchResult R)}
    (searched : searchVectorIndexWithQueryVector answers index pages query queryVector queryNorm
      options = .ok results) {result : SearchResult R} (among : result ∈ results) :
    ShowsIncluded pages options.excludePageIds options.snippetChars {} result ∨
      ∃ page ∈ pages, pageIsExcluded (pageExclusionSet options.excludePageIds) page = false ∧
        ∃ record ∈ index.records, record.pageId = page.id ∧
          ∃ score, result = vectorResult page score record options.snippetChars := by
  obtain rfl | rfl | ⟨best, known, rfl⟩ := searchVectorIndex_cases searched
  · exact absurd among List.not_mem_nil
  · exact .inl (overviewResults_shown among)
  · obtain ⟨ranked, rankedIn, rfl⟩ := List.mem_map.mp among
    obtain ⟨listed, included, indexed, owned⟩ :=
      mem_rankedPages filed_pagesById known (mem_sortBy.mp (mem_of_mem_takeLimit rankedIn))
    exact .inr ⟨ranked.page, (get?_pagesById listed).1, included, ranked.record, indexed, owned, _, rfl⟩

theorem vectorResults_included {answers : List Nat → Bool} {index : VectorIndex R}
    {pages : List WikiPage} {query : Text} {queryVector : Option (List R)} {queryNorm : R}
    {options : VectorOptions} {results : List (SearchResult R)}
    (searched : searchVectorIndexWithQueryVector answers index pages query queryVector queryNorm
      options = .ok results) {result : SearchResult R} (among : result ∈ results) :
    NamesIncluded pages options.excludePageIds result := by
  rcases vectorResults_shown searched among with
    shown | ⟨page, pageIn, included, record, -, -, score, rfl⟩
  · exact shown.names
  · exact ⟨page, pageIn, included, rfl, rfl⟩

theorem nodup_vectorResults {answers : List Nat → Bool} {index : VectorIndex R}
    {pages : List WikiPage} {query : Text} {queryVector : Option (List R)} {queryNorm : R}
    {options : VectorOptions} {results : List (SearchResult R)}
    (searched : searchVectorIndexWithQueryVector answers index pages query queryVector queryNorm
      options = .ok results) (distinct : (pages.map WikiPage.id).Nodup) :
    (results.map SearchResult.pageId).Nodup := by
  obtain rfl | rfl | ⟨best, known, rfl⟩ := searchVectorIndex_cases searched
  · exact List.nodup_nil
  · exact nodup_overviewResults distinct _ _ _
  · rw [List.map_map]
    refine List.Nodup.sublist ((takeLimit_sublist _ _).map _) ?_
    exact ((sortBy_perm _ _).map _).nodup_iff.mpr (nodup_rankedPages filed_pagesById known)

theorem length_vectorResults_le {answers : List Nat → Bool} {index : VectorIndex R}
    {pages : List WikiPage} {query : Text} {queryVector : Option (List R)} {queryNorm : R}
    {options : VectorOptions} {results : List (SearchResult R)}
    (searched : searchVectorIndexWithQueryVector answers index pages query queryVector queryNorm
      options = .ok results) (limited : 0 ≤ options.limit) :
    results.length ≤ options.limit.toNat := by
  obtain rfl | rfl | ⟨best, -, rfl⟩ := searchVectorIndex_cases searched
  · exact Nat.zero_le _
  · exact length_takeLimit_le limited _
  · exact (List.length_map _).trans_le (length_takeLimit_le limited _)

end Best

end LlmWikiServe.VectorSearch
