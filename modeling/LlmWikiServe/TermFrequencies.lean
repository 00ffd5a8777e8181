import LlmWikiServe.Postings

/-!
# Term frequencies of exact compounds

The exact channels count the compounds of a text after repetitions are dropped, so a posting
says that a compound occurs and not how often.
-/

namespace LlmWikiServe.Postings

section Channels

variable [Unicode]

/-- The number of spans of a compound in a text. -/
def occurrences (text token : Text) : Nat :=
  ((exactCompoundTokenSpans text).map fun span => span.2.2).count token

/-- The documents with a frequency above zero, in increasing order. -/
def trueFrequencies (pages : List WikiPage) (frequency : WikiPage → Nat) : List (Nat × Nat) :=
  pages.zipIdx.flatMap fun numbered => posting numbered.2 (frequency numbered.1)

omit [Unicode] in
/-- Frequencies that agree on which documents hold a token give one list if and only if they
agree everywhere. -/
theorem postings_eq_iff {first second : WikiPage → Nat}
    (sameDocuments : ∀ page, first page = 0 ↔ second page = 0) (pages : List WikiPage)
    (start : Nat) :
    ((pages.zipIdx start).flatMap fun numbered => posting numbered.2 (first numbered.1)) =
        ((pages.zipIdx start).flatMap fun numbered => posting numbered.2 (second numbered.1)) ↔
      ∀ page ∈ pages, first page = second page := by
  induction pages generalizing start with
  | nil => simp
  | cons page rest inductionHypothesis =>
      rw [List.zipIdx_cons, List.flatMap_cons, List.flatMap_cons, List.forall_mem_cons,
        ← inductionHypothesis (start + 1)]
      by_cases absent : first page = 0
      · have other := (sameDocuments page).mp absent
        simp [posting, absent, other]
      · have other := mt (sameDocuments page).mpr absent
        simp [posting, absent, other]

theorem count_exactCompoundTokens (text token : Text) :
    (exactCompoundTokens .english text).count token =
      if occurrences text token = 0 then 0 else 1 :=
  count_uniqueTokens _ _

theorem stored_frequencies (pages : List WikiPage) (textOf : WikiPage → Text) (token : Text) :
    (pages.zipIdx.flatMap fun numbered => posting numbered.2
        ((exactCompoundTokens .english (textOf numbered.1)).count token)) =
      trueFrequencies pages (fun page => occurrences (textOf page) token) ↔
    ∀ page ∈ pages, occurrences (textOf page) token ≤ 1 := by
  simp only [trueFrequencies, count_exactCompoundTokens]
  rw [@postings_eq_iff (fun page => if occurrences (textOf page) token = 0 then 0 else 1)
    fun page => occurrences (textOf page) token]
  · refine forall₂_congr fun page _ => ?_
    split <;> omega
  · intro page
    split <;> omega

variable [Stemming] {R : Type} [Floats R]

omit [Floats R] in
theorem scanned_postings (profile : AnalyzerProfile) (pages : List WikiPage)
    (channel : LlmWikiServe.SearchDocument → List Text) (token : Text) :
    (scanned profile pages).postings channel token = pages.zipIdx.flatMap fun numbered =>
      posting numbered.2 ((channel (searchDocument profile numbered.1)).count token) := by
  induction pages using List.reverseRecOn with
  | nil => rfl
  | append_singleton pages page inductionHypothesis =>
      rw [scanned_append, inductionHypothesis, List.zipIdx_append, List.flatMap_append]
      simp

/-- The postings of a compound in the exact channels hold its true frequencies if and only if no
page has it twice in its authored text or in its path and sources. -/
theorem exactPostings_true_iff (pages : List WikiPage) (token : Text) :
    let corpus : SearchCorpus R := buildSearchCorpus .english pages
    (entries corpus.exactCompoundPostings token =
        trueFrequencies pages (fun page => occurrences (authoredPageText page) token) ∧
      entries corpus.exactMetadataPostings token =
        trueFrequencies pages (fun page => occurrences (exactMetadataText page) token)) ↔
    ∀ page ∈ pages, occurrences (authoredPageText page) token ≤ 1 ∧
      occurrences (exactMetadataText page) token ≤ 1 := by
  intro corpus
  have tables := indexPages_tabulates .english pages
  have compounds : entries corpus.exactCompoundPostings token =
      pages.zipIdx.flatMap fun numbered => posting numbered.2
        ((exactCompoundTokens .english (authoredPageText numbered.1)).count token) :=
    (tables.exactCompounds token).trans (scanned_postings _ _ _ _)
  have metadata : entries corpus.exactMetadataPostings token =
      pages.zipIdx.flatMap fun numbered => posting numbered.2
        ((exactCompoundTokens .english (exactMetadataText numbered.1)).count token) :=
    (tables.exactMetadata token).trans (scanned_postings _ _ _ _)
  rw [compounds, metadata, stored_frequencies, stored_frequencies, ← forall₂_and]

end Channels

/-- A page that names an identifier twice. -/
def repeatingPage : WikiPage where
  id := "page"
  title := "Title"
  path := "page.md"
  role := .topic
  text := "api-v2 and api-v2"

theorem repeated_compound_counted_once :
    let corpus : SearchCorpus ℚ := @buildSearchCorpus Unicode.ascii .identity ℚ .rational .english
      [repeatingPage]
    entries corpus.exactCompoundPostings "api-v2" = [(0, 1)] ∧
      @occurrences Unicode.ascii (authoredPageText repeatingPage) "api-v2" = 2 ∧
      entries corpus.exactCompoundPostings "api-v2" ≠
        trueFrequencies [repeatingPage] fun page =>
          @occurrences Unicode.ascii (authoredPageText page) "api-v2" := by
  decide +kernel

end LlmWikiServe.Postings
