import LlmWikiServe.LexicalScan

/-!
# Exact lookup

A query of one exact compound finds every page that holds the compound, if the analyzer leaves the
query a token at all: a compound of stopwords is answered as an empty query.
-/

namespace LlmWikiServe.LexicalScan

/-! ## Positive scores -/

section Positive

/-- The logarithms themselves, with any rounding. -/
@[reducible]
noncomputable def realScoring (rounding : Nat → ℝ → ℝ) : Scoring where
  log := Real.log
  log1p value := Real.log (1 + value)
  round := rounding

variable [Unicode] [Stemming] (rounding : Nat → ℝ → ℝ) {profile : AnalyzerProfile}
  {pages : List WikiPage} {page : WikiPage}

omit [Unicode] [Stemming] in
theorem documentFrequency_le (tokensOf : WikiPage → List Text) (token : Text) :
    documentFrequency pages tokensOf token ≤ max 1 pages.length :=
  List.countP_le_length.trans (le_max_right _ _)

omit [Unicode] [Stemming] in
theorem idf_pos {frequency : Nat} (bounded : frequency ≤ max 1 pages.length) :
    0 < @idf (realScoring rounding) pages frequency := by
  have total : (frequency : ℝ) ≤ (max 1 pages.length : Nat) := Nat.cast_le.mpr bounded
  have positive : (0 : ℝ) < frequency + 1 / 2 := by positivity
  apply Real.log_pos
  have fraction : 0 < (((max 1 pages.length : Nat) : ℝ) - frequency + 1 / 2) / (frequency + 1 / 2) :=
    div_pos (by linarith) positive
  linarith

theorem one_le_averageLength : 1 ≤ averageLength profile pages := le_max_left _ _

omit [Unicode] [Stemming] in
theorem termFrequency_nonneg (frequency length : Nat) {average : ℝ} (large : 1 ≤ average) :
    0 ≤ termFrequency frequency length average := by
  have relative : 0 ≤ ((max 1 length : Nat) : ℝ) / average := by positivity
  unfold termFrequency
  apply div_nonneg
  · positivity
  · nlinarith [Nat.cast_nonneg (α := ℝ) frequency]

omit [Stemming] in
theorem tokenWeight_pos (token : Text) : 0 < tokenWeight token := by
  unfold tokenWeight
  split
  · norm_num
  · split <;> norm_num

theorem tokenScore_nonneg (token : Text) :
    0 ≤ @tokenScore _ _ (realScoring rounding) profile pages page token := by
  unfold tokenScore
  have frequent := idf_pos rounding (@documentFrequency_le pages (pageTokens profile) token)
  exact mul_nonneg (mul_nonneg frequent.le
    (termFrequency_nonneg _ _ one_le_averageLength)) (tokenWeight_pos token).le

variable {tokensOf : WikiPage → List Text} {weight : ℝ}

omit [Unicode] [Stemming] in
theorem exactScore_pos (positive : 0 < weight) {token : Text} (held : token ∈ tokensOf page) :
    0 < @exactScore (realScoring rounding) pages tokensOf weight page token := by
  unfold exactScore
  rw [if_pos held]
  have frequent := idf_pos rounding (@documentFrequency_le pages tokensOf token)
  have counted : 0 ≤ Real.log (1 + ((tokensOf page).count token : ℝ)) :=
    Real.log_nonneg (by simp)
  have term : 0 < 1 + Real.log (1 + ((tokensOf page).count token : ℝ)) := by linarith
  exact mul_pos (mul_pos frequent term) positive

omit [Unicode] [Stemming] in
theorem exactScore_nonneg (positive : 0 < weight) (token : Text) :
    0 ≤ @exactScore (realScoring rounding) pages tokensOf weight page token := by
  by_cases held : token ∈ tokensOf page
  · exact (exactScore_pos rounding positive held).le
  · unfold exactScore
    rw [if_neg held]

def HoldsCompound (page : WikiPage) (compound : Text) : Prop :=
  compound ∈ authoredCompounds .english page ∨ compound ∈ metadataCompounds .english page

theorem textScore_pos {query : Text}
    (single : singleExactCompoundQueryToken .english query ≠ [])
    (holds : HoldsCompound page (singleExactCompoundQueryToken .english query)) :
    0 < @textScore _ _ (realScoring rounding) .english pages query page := by
  have words : 0 ≤ ((queryTokens .english query).map
      (@tokenScore _ _ (realScoring rounding) .english pages page)).sum := by
    apply List.sum_nonneg
    simp only [List.mem_map]
    rintro _ ⟨token, _, rfl⟩
    exact tokenScore_nonneg rounding token
  have authored := @exactScore_nonneg rounding pages page (authoredCompounds .english) (17 / 20)
    (by norm_num) (singleExactCompoundQueryToken .english query)
  have metadata := @exactScore_nonneg rounding pages page (metadataCompounds .english) (7 / 20)
    (by norm_num) (singleExactCompoundQueryToken .english query)
  simp only [textScore, exactQueryTokens, if_neg single, List.map_singleton, List.sum_singleton]
  rcases holds with inText | inMetadata
  · have positive := @exactScore_pos rounding pages page (authoredCompounds .english) (17 / 20)
      (by norm_num) _ inText
    linarith
  · have positive :=
      @exactScore_pos rounding pages page (metadataCompounds .english) (7 / 20) (by norm_num) _
        inMetadata
    linarith

end Positive

/-! ## The lookup -/

section Lookup

variable [Unicode] [Stemming] (rounding : Nat → ℝ → ℝ)

/-- A lookup without exclusions and without a minimal score. -/
noncomputable def lookup (pages : List WikiPage) (query : Text) (limit : Nat)
    (snippetChars : Option Int) : List (SearchResult ℝ) :=
  letI := realScoring rounding
  Postings.searchCorpus (Postings.buildSearchCorpus .english pages) query
    { limit := limit, snippetChars := snippetChars }

def Found (pages : List WikiPage) (query : Text) (limit : Nat) (snippetChars : Option Int)
    (page : WikiPage) : Prop :=
  letI := realScoring rounding
  ∃ score, toResult page score "search" snippetChars { queryTokens := queryTokens .english query } ∈
    lookup rounding pages query limit snippetChars

variable {rounding} {pages : List WikiPage} {query : Text} {limit : Nat}

theorem found_of_holds (enough : pages.length ≤ limit) (snippetChars : Option Int)
    (single : singleExactCompoundQueryToken .english query ≠ [])
    (words : queryTokens .english query ≠ []) {page : WikiPage} (among : page ∈ pages)
    (holds : HoldsCompound page (singleExactCompoundQueryToken .english query)) :
    Found rounding pages query limit snippetChars page := by
  let _ := realScoring rounding
  have positive := @textScore_pos _ _ rounding pages page query single holds
  let options := unmanaged limit snippetChars none []
  have scored : scanPage .english pages query options page =
      some (toResult page (textScore .english pages query page * multiplier page.role) "search"
        snippetChars { queryTokens := queryTokens .english query }) := by
    unfold scanPage
    rw [if_neg]
    rintro (byId | byPath | other | small | ⟨minimum, given, _⟩)
    · simp [options, pageExclusionSet] at byId
    · simp [options, pageExclusionSet] at byPath
    · exact other (.inr holds)
    · exact absurd small positive.not_ge
    · cases given
  refine ⟨textScore .english pages query page * multiplier page.role, ?_⟩
  have answer : lookup rounding pages query limit snippetChars =
      scan .english pages query options limit :=
    searchCorpus_of_words .english pages limit snippetChars none [] words
  have short : (@List.insertionSort _ Before (Classical.decRel _)
      (pages.filterMap (scanPage .english pages query options))).length ≤ limit := by
    rw [List.length_insertionSort]
    exact (List.length_filterMap_le _ _).trans enough
  rw [answer, scan, List.take_of_length_le short, List.mem_insertionSort]
  exact List.mem_filterMap.mpr ⟨page, among, scored⟩

omit [Stemming] in
theorem route_of_mem_overview [Floats ℝ] {limit : Int} {snippetChars : Option Int}
    {excludePageIds : List Text} {result : SearchResult ℝ}
    (among : result ∈ overviewResults pages limit snippetChars excludePageIds) :
    result.route = ("overview" : Text) := by
  obtain ⟨entry, _, rfl⟩ := List.mem_map.mp (mem_of_mem_takeLimit among)
  rfl

/-- A query without tokens is answered with the overview or with nothing. -/
theorem not_found_of_blank (blank : queryTokens .english query = []) (snippetChars : Option Int)
    (page : WikiPage) : ¬ Found rounding pages query limit snippetChars page := by
  rintro ⟨score, found⟩
  let _ := realScoring rounding
  have answer : lookup rounding pages query limit snippetChars =
      if Text.strip query = [] ∨ AnalyzerProfile.english = .legacy then
        overviewResults pages limit snippetChars []
      else [] :=
    searchCorpus_of_blank .english pages limit snippetChars none [] blank
  rw [answer] at found
  split at found
  · have overview := route_of_mem_overview found
    cases overview
  · cases found

/-- The lookup is complete unless the analyzer drops every word of the compound. -/
theorem lookup_complete_iff (enough : pages.length ≤ limit) (snippetChars : Option Int)
    (single : singleExactCompoundQueryToken .english query ≠ []) :
    (∀ page ∈ pages, HoldsCompound page (singleExactCompoundQueryToken .english query) →
        Found rounding pages query limit snippetChars page) ↔
      queryTokens .english query ≠ [] ∨
        ∀ page ∈ pages, ¬ HoldsCompound page (singleExactCompoundQueryToken .english query) := by
  constructor
  · intro complete
    by_cases words : queryTokens .english query = []
    · exact .inr fun page among holds =>
        not_found_of_blank words snippetChars page (complete page among holds)
    · exact .inl words
  · rintro (words | none) page among holds
    · exact found_of_holds enough snippetChars single words among holds
    · exact absurd holds (none page among)

end Lookup

/-! ## Two lookups -/

section Sample

attribute [local instance] Unicode.ascii Stemming.identity

def samplePage (text : Text) : WikiPage :=
  { id := "page", title := "Page", path := "page.md", role := .topic, text }

def noRounding : Nat → ℝ → ℝ := fun _ value => value

theorem lookup_complete_iff_version :
    Found noRounding [samplePage "see v1.2"] "v1.2" 1 none (samplePage "see v1.2") := by
  have asked : singleExactCompoundQueryToken .english "v1.2" = "v1.2" := by decide
  have complete := @lookup_complete_iff _ _ noRounding [samplePage "see v1.2"] "v1.2" 1 (by simp) none
    (by rw [asked]; simp)
  refine complete.mpr (.inl ?_) _ (List.mem_singleton_self _) ?_
  · decide
  · rw [asked]
    exact .inl (by decide)

/-- Both words of `as-is` are stopwords. -/
theorem asIs_missed :
    singleExactCompoundQueryToken .english "as-is" = "as-is" ∧
      HoldsCompound (samplePage "sold as-is") "as-is" ∧
      ¬ Found noRounding [samplePage "sold as-is"] "as-is" 1 none (samplePage "sold as-is") := by
  have blank : queryTokens .english "as-is" = [] := by decide
  exact ⟨by decide, .inl (by decide), not_found_of_blank blank none _⟩

end Sample

end LlmWikiServe.LexicalScan
