import LlmWikiServe.Postings

/-!
# Lexical search as a scan

Over exact real arithmetic, search over postings ranks the pages as a scan does that computes the
score of every page from its own tokens and from the document frequencies.
-/

namespace LlmWikiServe.LexicalScan

noncomputable section

/-- The functions the scores are built with: any logarithms and any rounding. -/
class Scoring where
  log : ℝ → ℝ
  log1p : ℝ → ℝ
  round : Nat → ℝ → ℝ

instance exactFloats [Scoring] : Floats ℝ where
  ofRat value := value
  add := (· + ·)
  sub := (· - ·)
  mul := (· * ·)
  div := (· / ·)
  lt first second := decide (first < second)
  le first second := decide (first ≤ second)
  log := Scoring.log
  log1p := Scoring.log1p
  round := Scoring.round
  isFinite _ := true

/-! ## The scan -/

section Scan

variable [Unicode] [Stemming] [Scoring] (profile : AnalyzerProfile) (pages : List WikiPage)

def queryTokens (query : Text) : List Text := uniqueTokens (tokenize profile query)

def pageTokens (page : WikiPage) : List Text := tokenize profile (pageTextForProfile profile page)

omit [Stemming] in
def authoredCompounds (page : WikiPage) : List Text :=
  exactCompoundTokens profile (authoredPageText page)

omit [Stemming] in
def metadataCompounds (page : WikiPage) : List Text :=
  exactCompoundTokens profile (exactMetadataText page)

omit [Unicode] [Stemming] [Scoring] in
/-- The number of pages that hold a token. -/
def documentFrequency (tokensOf : WikiPage → List Text) (token : Text) : Nat :=
  pages.countP fun page => token ∈ tokensOf page

omit [Unicode] [Stemming] in
def idf (frequency : Nat) : ℝ :=
  Scoring.log (1 + (((max 1 pages.length : Nat) : ℝ) - frequency + 1 / 2) / (frequency + 1 / 2))

def averageLength : ℝ :=
  max 1 ((pages.map fun page => (pageTokens profile page).length).sum / (max 1 pages.length : Nat))

omit [Unicode] [Stemming] [Scoring] in
def termFrequency (frequency length : Nat) (average : ℝ) : ℝ :=
  frequency * (6 / 5 + 1) /
    (frequency + 6 / 5 * (1 - 3 / 4 + 3 / 4 * ((max 1 length : Nat) / average)))

omit [Stemming] [Scoring] in
def tokenWeight (token : Text) : ℝ :=
  if isDigitText token then 1 / 5 else if isHangulToken token && token.length = 1 then 2 / 5 else 1

def tokenScore (page : WikiPage) (token : Text) : ℝ :=
  idf pages (documentFrequency pages (pageTokens profile) token) *
    termFrequency ((pageTokens profile page).count token) (pageTokens profile page).length
      (averageLength profile pages) *
    tokenWeight token

omit [Unicode] [Stemming] in
def exactScore (tokensOf : WikiPage → List Text) (weight : ℝ) (page : WikiPage) (token : Text) : ℝ :=
  if token ∈ tokensOf page then
    idf pages (documentFrequency pages tokensOf token) *
      (1 + Scoring.log1p ((tokensOf page).count token)) * weight
  else 0

/-- The exact compounds a query is scored with in the metadata. -/
def exactQueryTokens (query : Text) : List Text :=
  let compound := singleExactCompoundQueryToken profile query
  if compound = [] then exactCompoundTokens profile query else [compound]

def textScore (query : Text) (page : WikiPage) : ℝ :=
  let compound := singleExactCompoundQueryToken profile query
  ((queryTokens profile query).map (tokenScore profile pages page)).sum +
    (if compound = [] then 0
      else exactScore pages (authoredCompounds profile) (17 / 20) page compound) +
    ((exactQueryTokens profile query).map
      (exactScore pages (metadataCompounds profile) (7 / 20) page)).sum

/-- A query of one compound asks for the pages that hold it. -/
def isAskedFor (query : Text) (page : WikiPage) : Prop :=
  let compound := singleExactCompoundQueryToken profile query
  compound = [] ∨ compound ∈ authoredCompounds profile page ∨
    compound ∈ metadataCompounds profile page

omit [Unicode] [Stemming] [Scoring] in
def multiplier : PageRole → ℝ
  | .hot => 23 / 20
  | .index => 53 / 50
  | .overview => 103 / 100
  | .topic => 1

open Classical in
/-- The result of a page that is not excluded, is asked for and has a sufficient score. -/
def scanPage (query : Text) (options : SearchOptions ℝ) (page : WikiPage) :
    Option (SearchResult ℝ) :=
  let text := textScore profile pages query page
  let score := text * multiplier page.role
  if page.id ∈ pageExclusionSet options.excludePageIds ∨
      page.path ∈ pageExclusionSet options.excludePageIds ∨ ¬ isAskedFor profile query page ∨
      text ≤ 0 ∨ ∃ minimum, options.minScore = some minimum ∧ score < minimum then none
  else
    some (toResult page score "search" options.snippetChars
      { queryTokens := queryTokens profile query })

omit [Unicode] [Stemming] [Scoring] in
/-- The order by descending score, role and path. -/
def Before (first second : SearchResult ℝ) : Prop :=
  second.score < first.score ∨ first.score = second.score ∧
    (roleRank first.role < roleRank second.role ∨
      roleRank first.role = roleRank second.role ∧ first.path ≤ second.path)

open Classical in
def scan (query : Text) (options : SearchOptions ℝ) (limit : Nat) : List (SearchResult ℝ) :=
  ((pages.filterMap (scanPage profile pages query options)).insertionSort Before).take limit

end Scan

/-! ## The terms of a score -/

section Terms

variable [Unicode] [Stemming] [Scoring] {profile : AnalyzerProfile} {pages : List WikiPage}

open Postings

def scoreAt (scores : List (Nat × ℝ)) (docIndex : Nat) : ℝ := (Keyed.get? scores docIndex).getD 0

omit [Unicode] [Stemming] in
theorem scoreAt_addScore (scores : List (Nat × ℝ)) (scored docIndex : Nat) (amount : ℝ) :
    scoreAt (addScore scores scored amount) docIndex =
      scoreAt scores docIndex + if scored = docIndex then amount else 0 := by
  have zero : (Floats.ofRat 0 : ℝ) = 0 := Rat.cast_zero
  unfold addScore
  conv_lhs => rw [scoreAt]
  rw [Keyed.get?_set, zero]
  by_cases same : scored = docIndex
  · subst same
    simp [scoreAt, Floats.add]
  · simp [same, scoreAt]

omit [Unicode] [Stemming] in
theorem scoreAt_foldl (amount : Nat × Nat → ℝ) (postings : List (Nat × Nat))
    (scores : List (Nat × ℝ)) (docIndex : Nat) :
    scoreAt (postings.foldl (fun scores entry => addScore scores entry.1 (amount entry)) scores)
        docIndex =
      scoreAt scores docIndex + ((postings.filter fun entry => entry.1 = docIndex).map amount).sum := by
  induction postings generalizing scores with
  | nil => simp
  | cons entry rest inductionHypothesis =>
      rw [List.foldl_cons, inductionHypothesis, scoreAt_addScore]
      by_cases same : entry.1 = docIndex
      · simp [same, add_assoc]
      · simp [same]

omit [Unicode] [Stemming] [Scoring] in
theorem scoreAt_run {step : List (Nat × ℝ) → Text → List (Nat × ℝ)} {amount : Text → ℝ}
    {docIndex : Nat}
    (turn : ∀ scores token, scoreAt (step scores token) docIndex =
      scoreAt scores docIndex + amount token)
    (tokens : List Text) (scores : List (Nat × ℝ)) :
    scoreAt (tokens.foldl step scores) docIndex =
      scoreAt scores docIndex + (tokens.map amount).sum := by
  induction tokens generalizing scores with
  | nil => simp
  | cons token rest inductionHypothesis =>
      rw [List.foldl_cons, inductionHypothesis, turn, List.map_cons, List.sum_cons, add_assoc]

variable (channel : SearchDocument → List Text)

omit [Scoring] in
theorem postings_at {docIndex : Nat} {page : WikiPage} (placed : pages[docIndex]? = some page)
    (token : Text) :
    ((scanned profile pages).postings channel token).filter (fun entry => entry.1 = docIndex) =
      posting docIndex ((channel (searchDocument profile page)).count token) := by
  induction pages using List.reverseRecOn with
  | nil => cases placed
  | append_singleton pages last inductionHypothesis =>
      rw [scanned_append, List.filter_append]
      have own : ∀ frequency, (posting pages.length frequency).filter
          (fun entry => entry.1 = docIndex) =
            if pages.length = docIndex then posting docIndex frequency else [] := by
        intro frequency
        unfold posting
        by_cases same : pages.length = docIndex
        · subst same
          split <;> simp
        · split <;> simp [same]
      rw [own]
      rcases Nat.lt_or_ge docIndex pages.length with inside | outside
      · rw [List.getElem?_append_left inside] at placed
        rw [inductionHypothesis placed, if_neg inside.ne', List.append_nil]
      · have atEnd : docIndex = pages.length := by
          have within := (List.getElem?_eq_some_iff.mp placed).1
          rw [List.length_append, List.length_singleton] at within
          omega
        subst atEnd
        obtain rfl : last = page := by simpa using placed
        have none : ((scanned profile pages).postings channel token).filter
            (fun entry => entry.1 = pages.length) = [] := by
          apply List.filter_eq_nil_iff.mpr
          intro entry among
          have below := mem_postings among
          simp only [LlmWikiServe.buildSearchCorpus, List.length_map] at below
          simpa using below.ne
        rw [none, if_pos rfl, List.nil_append]

omit [Scoring] in
theorem postings_length (token : Text) :
    ((scanned profile pages).postings channel token).length =
      documentFrequency pages (fun page => channel (searchDocument profile page)) token := by
  induction pages using List.reverseRecOn with
  | nil => rfl
  | append_singleton pages last inductionHypothesis =>
      rw [scanned_append, List.length_append, inductionHypothesis, posting_length,
        documentFrequency, documentFrequency, List.countP_append, List.countP_singleton]
      simp [List.count_eq_zero]

variable {channel} {docIndex : Nat} {page : WikiPage} {required : Option (List Nat)}

theorem inverse_eq (frequency : Nat) :
    (inverseDocumentFrequency (scanned profile pages).total frequency : ℝ) = idf pages frequency := by
  simp [inverseDocumentFrequency, idf, Floats.add, Floats.div, Floats.log, Floats.ofRat,
    SearchCorpus.total, buildSearchCorpus]

omit [Scoring] in
theorem total_eq : (scanned profile pages).total = max 1 pages.length := by
  simp [SearchCorpus.total, buildSearchCorpus]

theorem average_eq :
    (averageDocLength (scanned profile pages) : ℝ) = averageLength profile pages := by
  have lengths : ((scanned profile pages).documents.map fun document =>
      (document.tokens.length : ℚ)).sum =
        ((pages.map fun page => (pageTokens profile page).length).sum : Nat) := by
    simp [buildSearchCorpus, searchDocument, pageTokens, Function.comp_def]
  let average : ℝ :=
    (pages.map fun page => (pageTokens profile page).length).sum / (max 1 pages.length : Nat)
  have computed : (Floats.div
      (Floats.ofRat ((scanned profile pages).documents.map fun document =>
        (document.tokens.length : ℚ)).sum)
      (Floats.ofRat (scanned profile pages).total) : ℝ) = average := by
    rw [lengths, total_eq]
    simp only [Floats.div, Floats.ofRat, Rat.cast_natCast, average]
  have one : (Floats.ofRat 1 : ℝ) = 1 := Rat.cast_one
  have branches : (averageDocLength (scanned profile pages) : ℝ) =
      if (scanned profile pages).documents = [] || Floats.le average 1 then 1 else average := by
    unfold averageDocLength
    simp only [computed, one]
  have larger : averageLength profile pages = max 1 average := rfl
  rw [branches, larger]
  rcases le_total average 1 with small | large
  · rw [max_eq_left small, if_pos]
    simp [Floats.le, small]
  · rw [max_eq_right large]
    split
    next smaller =>
      rcases Bool.or_eq_true_iff.mp smaller with empty | small
      · have none : pages = [] := by simpa [buildSearchCorpus] using empty
        subst none
        have zero : average = 0 := by simp [average]
        linarith
      · exact le_antisymm large (by simpa [Floats.le] using small)
    next => rfl

omit [Unicode] [Stemming] in
theorem bm25_eq (frequency length : Nat) (average : ℝ) :
    bm25TermFrequency frequency length average = termFrequency frequency length average := by
  simp [bm25TermFrequency, termFrequency, Floats.add, Floats.sub, Floats.mul, Floats.div,
    Floats.ofRat]

omit [Stemming] in
theorem weight_eq (token : Text) : (queryTokenWeight token : ℝ) = tokenWeight token := by
  unfold queryTokenWeight tokenWeight
  split <;> simp [Floats.ofRat]

omit [Unicode] [Stemming] [Scoring] in
theorem filter_required (postings : List (Nat × Nat)) :
    (postings.filter fun entry => isRequired required entry.1).filter
        (fun entry => entry.1 = docIndex) =
      if isRequired required docIndex then postings.filter fun entry => entry.1 = docIndex
      else [] := by
  rw [List.filter_filter]
  split
  next asked =>
    apply List.filter_congr
    intro entry _
    by_cases same : entry.1 = docIndex <;> simp [same, asked]
  next other =>
    apply List.filter_eq_nil_iff.mpr
    intro entry _
    by_cases same : entry.1 = docIndex <;> simp [same, other]

theorem scoreAt_channel (placed : pages[docIndex]? = some page) (amount : Nat × Nat → ℝ)
    (scores : List (Nat × ℝ)) (token : Text) :
    scoreAt ((((scanned profile pages).postings channel token).filter fun entry =>
        isRequired required entry.1).foldl
          (fun scores entry => addScore scores entry.1 (amount entry)) scores) docIndex =
      scoreAt scores docIndex +
        if isRequired required docIndex ∧ token ∈ channel (searchDocument profile page) then
          amount (docIndex, (channel (searchDocument profile page)).count token)
        else 0 := by
  rw [scoreAt_foldl, filter_required, postings_at channel placed]
  congr 1
  by_cases asked : isRequired required docIndex
  · by_cases held : token ∈ channel (searchDocument profile page)
    · simp [asked, held, posting, (List.count_pos_iff.mpr held).ne']
    · simp [asked, held, posting, List.count_eq_zero.mpr held]
  · simp [asked]

theorem scoreAt_addTokenScores (placed : pages[docIndex]? = some page) (scores : List (Nat × ℝ))
    (token : Text) :
    scoreAt (addTokenScores (scanned profile pages) required scores token) docIndex =
      scoreAt scores docIndex +
        if isRequired required docIndex then tokenScore profile pages page token else 0 := by
  unfold addTokenScores
  rw [scoreAt_channel placed]
  congr 1
  by_cases asked : isRequired required docIndex
  · by_cases held : token ∈ pageTokens profile page
    · rw [if_pos ⟨asked, held⟩, if_pos asked]
      have length : (scanned profile pages).docLength docIndex =
          (pageTokens profile page).length := by
        simp [SearchCorpus.docLength, buildSearchCorpus, placed, searchDocument, pageTokens]
      simp only [postings_length, inverse_eq, average_eq, bm25_eq, weight_eq, length]
      rfl
    · rw [if_neg (fun both => held both.2), if_pos asked]
      have absent : (pageTokens profile page).count token = 0 := List.count_eq_zero.mpr held
      simp [tokenScore, termFrequency, absent]
  · simp [asked]

theorem scoreAt_addExactChannelScores (placed : pages[docIndex]? = some page) (weight : ℚ)
    (scores : List (Nat × ℝ)) (token : Text) :
    scoreAt (addExactChannelScores (scanned profile pages) channel (Floats.ofRat weight) required
        scores token) docIndex =
      scoreAt scores docIndex +
        if isRequired required docIndex then
          exactScore pages (fun page => channel (searchDocument profile page)) weight page token
        else 0 := by
  unfold addExactChannelScores
  rw [scoreAt_channel placed]
  congr 1
  by_cases asked : isRequired required docIndex
  · by_cases held : token ∈ channel (searchDocument profile page)
    · rw [if_pos ⟨asked, held⟩, if_pos asked, exactScore, if_pos held]
      simp only [postings_length, inverse_eq, Floats.add, Floats.mul, Floats.ofRat,
        Floats.log1p, Rat.cast_one, Rat.cast_natCast]
    · rw [if_neg (fun both => held both.2), if_pos asked, exactScore, if_neg held]
  · simp [asked]

/-- The accumulated score of a document is the score the scan computes. -/
theorem scoreAt_candidateScores (placed : pages[docIndex]? = some page) (query : Text) :
    scoreAt (candidateScores (scanned profile pages) query (queryTokens profile query)) docIndex =
      if isRequired (exactRequiredDocIndexes (scanned profile pages)
          (singleExactCompoundQueryToken profile query)) docIndex then
        textScore profile pages query page
      else 0 := by
  let compound := singleExactCompoundQueryToken profile query
  let required := exactRequiredDocIndexes (scanned profile pages) compound
  let lexical : List (Nat × ℝ) :=
    (queryTokens profile query).foldl (addTokenScores (scanned profile pages) required) []
  let withCompounds :=
    if compound = [] then lexical
    else
      addExactChannelScores (scanned profile pages) SearchDocument.exactCompounds
        (Floats.ofRat (17 / 20)) required lexical compound
  let compoundScore :=
    if compound = [] then 0
    else exactScore pages (authoredCompounds profile) (17 / 20) page compound
  have unfolded : candidateScores (scanned profile pages) query (queryTokens profile query) =
      (exactQueryTokens profile query).foldl (addExactChannelScores (scanned profile pages)
        SearchDocument.exactMetadata (Floats.ofRat (7 / 20)) required) withCompounds := by
    unfold candidateScores exactQueryTokens
    simp only [ne_eq, ite_not]
    rfl
  have fromTokens : scoreAt lexical docIndex = ((queryTokens profile query).map fun token =>
      if isRequired required docIndex then tokenScore profile pages page token else 0).sum := by
    rw [scoreAt_run (scoreAt_addTokenScores placed)]
    exact zero_add _
  have fromCompounds : scoreAt withCompounds docIndex =
      scoreAt lexical docIndex + if isRequired required docIndex then compoundScore else 0 := by
    by_cases none : compound = []
    · simp [withCompounds, compoundScore, none]
    · simp only [withCompounds, compoundScore, if_neg none]
      rw [scoreAt_addExactChannelScores placed]
      norm_num
      rfl
  rw [unfolded, scoreAt_run (scoreAt_addExactChannelScores placed _), fromCompounds, fromTokens]
  by_cases asked : isRequired required docIndex
  · simp only [asked, if_true]
    rw [if_pos asked]
    norm_num [textScore]
    rfl
  · simp only [asked]
    rw [if_neg asked]
    simp

omit [Scoring] in
theorem isRequired_iff (placed : pages[docIndex]? = some page) (query : Text) :
    isRequired (exactRequiredDocIndexes (scanned profile pages)
        (singleExactCompoundQueryToken profile query)) docIndex = true ↔
      isAskedFor profile query page := by
  have inChannel : ∀ channel : SearchDocument → List Text, ∀ token,
      docIndex ∈ ((scanned profile pages).postings channel token).map Prod.fst ↔
        token ∈ channel (searchDocument profile page) := by
    intro channel token
    have found := @postings_at _ _ profile pages channel docIndex page placed token
    by_cases held : token ∈ channel (searchDocument profile page)
    · rw [posting, if_neg (List.count_pos_iff.mpr held).ne'] at found
      have among := List.mem_filter.mp (found ▸ List.mem_singleton_self _)
      exact iff_of_true (List.mem_map_of_mem among.1) held
    · rw [posting, if_pos (List.count_eq_zero.mpr held), List.filter_eq_nil_iff] at found
      refine iff_of_false (fun among => ?_) held
      obtain ⟨entry, entryIn, same⟩ := List.mem_map.mp among
      exact found entry entryIn (by simpa using same)
  unfold exactRequiredDocIndexes isAskedFor
  by_cases none : singleExactCompoundQueryToken profile query = []
  · simp [none, isRequired]
  · rw [if_neg none, isRequired, Option.all_some, decide_eq_true_eq, List.map_append,
      List.mem_append, inChannel, inChannel]
    exact (or_iff_right none).symm

omit [Unicode] [Stemming] [Scoring] in
theorem multiplier_eq [Scoring] (role : PageRole) : (roleMultiplier role : ℝ) = multiplier role := by
  cases role <;> norm_num [roleMultiplier, multiplier, Floats.ofRat]

/-- A document with its score gives the result the scan gives its page. -/
theorem pageResult_eq (placed : pages[docIndex]? = some page) (query : Text)
    (options : SearchOptions ℝ) :
    (Keyed.get? (candidateScores (scanned profile pages) query (queryTokens profile query))
        docIndex).bind (pageResult query profile options page) =
      scanPage profile pages query options page := by
  have total := @scoreAt_candidateScores _ _ _ profile pages docIndex page placed query
  have asked := @isRequired_iff _ _ profile pages docIndex page placed query
  have zero : (Floats.ofRat 0 : ℝ) = 0 := Rat.cast_zero
  unfold scanPage
  cases found : Keyed.get? (candidateScores (R := ℝ) (scanned profile pages) query
      (queryTokens profile query)) docIndex with
  | none =>
      rw [scoreAt, found, Option.getD_none] at total
      rw [Option.bind_none, if_pos]
      by_cases isAsked : isAskedFor profile query page
      · rw [if_pos (asked.mpr isAsked)] at total
        exact .inr (.inr (.inr (.inl total.ge)))
      · exact .inr (.inr (.inl isAsked))
  | some score =>
      rw [scoreAt, found, Option.getD_some] at total
      rw [Option.bind_some, pageResult, zero, multiplier_eq]
      by_cases isAsked : isAskedFor profile query page
      · rw [if_pos (asked.mpr isAsked)] at total
        subst total
        have notBelow : belowMinimum options.minScore
            (Floats.mul (textScore profile pages query page) (multiplier page.role)) = true ↔
            ∃ minimum, options.minScore = some minimum ∧
              textScore profile pages query page * multiplier page.role < minimum := by
          cases options.minScore <;> simp [belowMinimum, Floats.lt, Floats.mul]
        by_cases dropped : (pageIsExcluded (pageExclusionSet options.excludePageIds) page ||
            Floats.le (textScore profile pages query page) 0) = true
        · rw [if_pos dropped, if_pos]
          simp only [pageIsExcluded, Floats.le, Bool.or_eq_true, decide_eq_true_eq] at dropped
          tauto
        · rw [if_neg dropped]
          simp only [notBelow]
          simp only [pageIsExcluded, Floats.le, Bool.or_eq_true, decide_eq_true_eq] at dropped
          by_cases below : ∃ minimum, options.minScore = some minimum ∧
              textScore profile pages query page * multiplier page.role < minimum
          · rw [if_pos below, if_pos (.inr (.inr (.inr (.inr below))))]
          · rw [if_neg below, if_neg]
            · rfl
            · rintro (byId | byPath | other | small | under)
              · exact dropped (.inl (.inl byId))
              · exact dropped (.inl (.inr byPath))
              · exact other isAsked
              · exact dropped (.inr small)
              · exact below under
      · rw [if_neg (fun required => isAsked (asked.mp required))] at total
        subst total
        rw [if_pos (by simp [Floats.le]), if_pos (.inr (.inr (.inl isAsked)))]

omit [Unicode] [Stemming] in
theorem sorted_eq (results : List (SearchResult ℝ)) :
    sortBy lexicalLe results = @List.insertionSort _ Before (Classical.decRel _) results := by
  have same : ∀ first second : SearchResult ℝ,
      lexicalLe first second = true ↔ Before first second := by
    intro first second
    unfold lexicalLe Before
    simp only [Floats.lt, decide_eq_true_eq]
    rcases lt_trichotomy first.score second.score with less | equal | more
    · rw [if_neg less.asymm, if_pos less]
      simp [less.asymm, less.ne]
    · rw [equal, if_neg (lt_irrefl _), if_neg (lt_irrefl _)]
      by_cases ranks : roleRank first.role = roleRank second.role
      · simp [ranks]
      · simp [ranks]
    · rw [if_pos more]
      simp [more]
  have relations : (fun first second : SearchResult ℝ => lexicalLe first second = true) = Before := by
    funext first second
    exact propext (same first second)
  unfold sortBy
  congr

end Terms

/-! ## Search and scan -/

variable [Unicode] [Stemming] [Scoring]

section Answers

variable (profile : AnalyzerProfile) (pages : List WikiPage) {query : Text} (limit : Nat)
  (snippetChars : Option Int) (minScore : Option ℝ) (excludePageIds : List Text)

/-- The options of a search without a managed prior. -/
abbrev unmanaged : SearchOptions ℝ where
  limit := limit
  snippetChars := snippetChars
  minScore := minScore
  excludePageIds := excludePageIds
  managed := none

theorem searchCorpus_of_blank (blank : queryTokens profile query = []) :
    Postings.searchCorpus (Postings.buildSearchCorpus profile pages) query
        (unmanaged limit snippetChars minScore excludePageIds) =
      if Text.strip query = [] ∨ profile = .legacy then
        overviewResults pages limit snippetChars excludePageIds
      else [] := by
  rw [Postings.searchCorpus_eq]
  refine (if_pos blank).trans ?_
  rw [buildSearchCorpus_pages]
  exact if_congr (by simp [lexicalEmptyQueryUsesOverview, buildSearchCorpus]) rfl rfl

theorem searchCorpus_of_words (words : queryTokens profile query ≠ []) :
    Postings.searchCorpus (Postings.buildSearchCorpus profile pages) query
        (unmanaged limit snippetChars minScore excludePageIds) =
      scan profile pages query (unmanaged limit snippetChars minScore excludePageIds) limit := by
  rw [Postings.searchCorpus_eq]
  by_cases unmatched : exactRequiredDocIndexes (Postings.scanned profile pages)
      (singleExactCompoundQueryToken profile query) = some []
  · refine ((if_neg words).trans (if_pos unmatched)).trans ?_
    have none : pages.filterMap (scanPage profile pages query
        (unmanaged limit snippetChars minScore excludePageIds)) = [] := by
      apply List.filterMap_eq_nil_iff.mpr
      intro page among
      obtain ⟨docIndex, placed⟩ := List.mem_iff_getElem?.mp among
      have other : ¬ isAskedFor profile query page := by
        rw [← isRequired_iff placed query, unmatched]
        simp [isRequired]
      simp [scanPage, other]
    simp [scan, none]
  · rw [Postings.lexicalSearchCorpus_scored _ words unmatched]
    have results : (pages.zipIdx.filterMap fun numbered =>
        (Keyed.get? (candidateScores (Postings.scanned profile pages) query
          (uniqueTokens (tokenize profile query))) numbered.2).bind
          (Postings.pageResult query profile
            (unmanaged limit snippetChars minScore excludePageIds) numbered.1)) =
        pages.filterMap (scanPage profile pages query
          (unmanaged limit snippetChars minScore excludePageIds)) := by
      rw [← List.zipIdx_map_fst 0 pages, List.filterMap_map, List.zipIdx_map_fst]
      apply List.filterMap_congr
      intro numbered among
      exact pageResult_eq (List.mem_zipIdx_iff_getElem?.mp among) query _
    rw [results]
    simp only [rankSearchResults, takeLimit, sorted_eq]
    rfl

theorem route_of_mem_scan {options : SearchOptions ℝ} {result : SearchResult ℝ}
    (among : result ∈ scan profile pages query options limit) :
    result.route = ("search" : Text) := by
  have kept := (@List.mem_insertionSort _ Before (Classical.decRel _) _ _).mp
    (List.mem_of_mem_take among)
  obtain ⟨page, _, found⟩ := List.mem_filterMap.mp kept
  simp only [scanPage] at found
  split at found
  · cases found
  · obtain rfl := Option.some.inj found
    rfl

end Answers

/-- Search over postings is the scan, unless the query has no tokens: then it is the overview or,
for a query of the English profile that is not blank, nothing. -/
theorem searchCorpus_scan (profile : AnalyzerProfile) (pages : List WikiPage) (query : Text)
    (limit : Nat) (snippetChars : Option Int) (minScore : Option ℝ) (excludePageIds : List Text) :
    let options : SearchOptions ℝ :=
      { limit := limit, snippetChars := snippetChars, minScore := minScore
        excludePageIds := excludePageIds, managed := none }
    let answer := Postings.searchCorpus (Postings.buildSearchCorpus profile pages) query options
    (queryTokens profile query = [] → answer =
      if Text.strip query = [] ∨ profile = .legacy then
        overviewResults pages limit snippetChars excludePageIds
      else []) ∧
    (queryTokens profile query ≠ [] → answer = scan profile pages query options limit ∧
      ∀ result ∈ answer, result.route = ("search" : Text)) := by
  intro options answer
  refine ⟨fun blank => searchCorpus_of_blank profile pages limit _ _ _ blank, fun words => ?_⟩
  have scanned : answer = scan profile pages query options limit :=
    searchCorpus_of_words profile pages limit _ _ _ words
  exact ⟨scanned, fun result among =>
    route_of_mem_scan profile pages limit (scanned ▸ among)⟩

end

end LlmWikiServe.LexicalScan
