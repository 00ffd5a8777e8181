import LlmWikiServe.Foundation.Keyed
import LlmWikiServe.Analyzer
import LlmWikiServe.Models

/-!
# Search

Lexical and literal search over the pages a request may see, with the overview that
answers empty queries and the orientation of a context.  Scores are floating-point
numbers, whose arithmetic is a parameter.
-/

namespace LlmWikiServe

/-- The arithmetic of `float` and the functions of `math`. -/
class Floats (R : Type) where
  ofRat : ℚ → R
  add : R → R → R
  sub : R → R → R
  mul : R → R → R
  div : R → R → R
  lt : R → R → Bool
  le : R → R → Bool
  log : R → R
  log1p : R → R
  /-- `round(value, digits)` -/
  round : Nat → R → R
  isFinite : R → Bool

/-- `round(value, digits)` of a rational, ties going to the even neighbour. -/
def roundRat (digits : Nat) (value : ℚ) : ℚ :=
  let scaled := value * 10 ^ digits
  let down := scaled.floor
  let rest := scaled - down
  let nearest :=
    if rest < 1 / 2 then down
    else if 1 / 2 < rest then down + 1
    else if down % 2 = 0 then down
    else down + 1
  (nearest : ℚ) / 10 ^ digits

/-- Exact arithmetic, without logarithms. -/
@[reducible]
def Floats.rational : Floats ℚ where
  ofRat number := number
  add := (· + ·)
  sub := (· - ·)
  mul := (· * ·)
  div := (· / ·)
  lt first second := decide (first < second)
  le first second := decide (first ≤ second)
  log _ := 0
  log1p _ := 0
  round := roundRat
  isFinite _ := true

structure SearchResult (R : Type) where
  pageId : Text
  title : Text
  path : Text
  score : R
  snippet : Text
  role : PageRole
  sourceRefs : List Text := []
  route : Text := []

/-- The modes answered without an embedding provider. -/
inductive SearchMode where
  | lexical
  | literal
  deriving DecidableEq

/-- `values[:limit]` -/
def takeLimit {α : Type} (limit : Int) (values : List α) : List α :=
  if 0 ≤ limit then values.take limit.toNat else values.take (values.length - limit.natAbs)

theorem takeLimit_length {α : Type} (values : List α) :
    takeLimit values.length values = values := by
  simp [takeLimit]

theorem takeLimit_sublist {α : Type} (limit : Int) (values : List α) :
    (takeLimit limit values).Sublist values := by
  unfold takeLimit
  split <;> exact List.take_sublist _ _

theorem takeLimit_map {α β : Type} (change : α → β) (limit : Int) (values : List α) :
    takeLimit limit (values.map change) = (takeLimit limit values).map change := by
  unfold takeLimit
  split <;> simp [List.map_take]

theorem mem_of_mem_takeLimit {α : Type} {limit : Int} {values : List α} {value : α}
    (membership : value ∈ takeLimit limit values) : value ∈ values :=
  (takeLimit_sublist limit values).subset membership

/-- A stable sort by a Boolean order. -/
def sortBy {α : Type} (le : α → α → Bool) (values : List α) : List α :=
  values.insertionSort fun first second => le first second = true

theorem sortBy_perm {α : Type} (le : α → α → Bool) (values : List α) :
    (sortBy le values).Perm values := List.perm_insertionSort _ _

@[simp]
theorem mem_sortBy {α : Type} {le : α → α → Bool} {values : List α} {value : α} :
    value ∈ sortBy le values ↔ value ∈ values :=
  (sortBy_perm le values).mem_iff

theorem sortBy_eq {α Key : Type} [LinearOrder Key] {le : α → α → Bool} {key : α → Key}
    {values : List α} (compares : ∀ first ∈ values, ∀ second ∈ values,
      (le first second = true ↔ key first ≤ key second)) :
    sortBy le values = values.insertionSort fun first second => key first ≤ key second := by
  simpa [sortBy] using List.map_insertionSort (fun first second => le first second = true)
    (fun first second => key first ≤ key second) id values compares

theorem sortBy_pairwise {α Key : Type} [LinearOrder Key] {le : α → α → Bool} {key : α → Key}
    {values : List α} (compares : ∀ first ∈ values, ∀ second ∈ values,
      (le first second = true ↔ key first ≤ key second)) :
    (sortBy le values).Pairwise fun first second => key first ≤ key second := by
  rw [sortBy_eq compares]
  have total : Std.Total fun first second : α => key first ≤ key second :=
    ⟨fun first second => le_total (key first) (key second)⟩
  have trans : IsTrans α fun first second => key first ≤ key second :=
    ⟨fun _ _ _ => le_trans⟩
  exact List.pairwise_insertionSort _ values

/-! ## The corpus -/

structure SearchDocument where
  page : WikiPage
  tokens : List Text
  /-- The exact compounds of the authored text and of the metadata, in the English profile. -/
  exactCompounds : List Text
  exactMetadata : List Text

structure SearchCorpus where
  documents : List SearchDocument
  analyzerProfile : AnalyzerProfile

namespace SearchCorpus

def pages (corpus : SearchCorpus) : List WikiPage := corpus.documents.map SearchDocument.page

def total (corpus : SearchCorpus) : Nat := max 1 corpus.documents.length

def postings (corpus : SearchCorpus) (channel : SearchDocument → List Text) (token : Text) :
    List (Nat × Nat) :=
  corpus.documents.zipIdx.filterMap fun entry =>
    let frequency := (channel entry.1).count token
    if frequency = 0 then none else some (entry.2, frequency)

def docLength (corpus : SearchCorpus) (index : Nat) : Nat :=
  (corpus.documents[index]?.map fun document => document.tokens.length).getD 0

end SearchCorpus

def pageText (page : WikiPage) : Text :=
  Text.join " "
    [page.title, page.summary, page.text, Text.join " " page.tags, Text.join " " page.sourceRefs]

def authoredPageText (page : WikiPage) : Text :=
  Text.join " " [page.title, page.summary, page.text, Text.join " " page.tags]

def exactMetadataText (page : WikiPage) : Text :=
  Text.join " " [page.path, Text.join " " page.sourceRefs]

def literalPageText (page : WikiPage) : Text :=
  Text.join " "
    [page.title, page.path, page.summary, page.text, Text.join " " page.tags,
      Text.join " " page.sourceRefs]

def pageTextForProfile (profile : AnalyzerProfile) (page : WikiPage) : Text :=
  match profile with
  | .english => authoredPageText page
  | .legacy => pageText page

def searchDocument [Unicode] [Stemming] (profile : AnalyzerProfile) (page : WikiPage) :
    SearchDocument where
  page := page
  tokens := tokenize profile (pageTextForProfile profile page)
  exactCompounds := exactCompoundTokens profile (authoredPageText page)
  exactMetadata := exactCompoundTokens profile (exactMetadataText page)

def buildSearchCorpus [Unicode] [Stemming] (profile : AnalyzerProfile) (pages : List WikiPage) :
    SearchCorpus where
  documents := pages.map (searchDocument profile)
  analyzerProfile := profile

@[simp]
theorem buildSearchCorpus_pages [Unicode] [Stemming] (profile : AnalyzerProfile)
    (pages : List WikiPage) : (buildSearchCorpus profile pages).pages = pages := by
  simp [buildSearchCorpus, SearchCorpus.pages, searchDocument, Function.comp_def]

/-! ## Results -/

section Results

def roleRank : PageRole → Nat
  | .hot => 0
  | .index => 1
  | .overview => 2
  | .topic => 3

def pageExclusionSet (pageIds : List Text) : List Text :=
  (pageIds.map Text.strip).filter (· ≠ [])

def pageIsExcluded (excluded : List Text) (page : WikiPage) : Bool :=
  page.id ∈ excluded || page.path ∈ excluded

def searchSnippetLimit : Nat := 280

def searchSnippetMax : Nat := 2000

def snippetLimit : Option Int → Nat
  | none => searchSnippetLimit
  | some value => min value.toNat searchSnippetMax

def normalizedLiteral (query : Text) : Text := Text.join " " (Text.split query)

structure SnippetFocus where
  queryTokens : List Text := []
  literalQuery : Text := []

variable [Unicode]

def SnippetFocus.position? (focus : SnippetFocus) (haystack : Text) : Option Nat :=
  if focus.literalQuery ≠ [] then
    Text.find? (Text.casefold focus.literalQuery) (Text.casefold haystack)
  else
    let lowered := Text.lower haystack
    (focus.queryTokens.filterMap fun token => Text.find? token lowered).min?

def snippetFor (page : WikiPage) (limit : Nat) (focus : SnippetFocus) : Text :=
  if limit = 0 then []
  else
    let whole := if page.text = [] then page.summary else page.text
    let haystack :=
      match focus.position? whole with
      | some position => Text.slice (position - 100) limit whole
      | none => whole
    let clean := Text.join " " (Text.split haystack)
    if clean.length ≤ limit then clean
    else Text.rstrip (clean.take (limit - 1)) ++ ("..." : Text)

variable {R : Type} [Floats R]

def toResult (page : WikiPage) (score : R) (route : Text) (snippetChars : Option Int)
    (focus : SnippetFocus) : SearchResult R where
  pageId := page.id
  title := page.title
  path := page.path
  score := Floats.round 4 score
  snippet := snippetFor page (snippetLimit snippetChars) focus
  role := page.role
  sourceRefs := page.sourceRefs
  route := route

/-- Order by descending score, then role, then path. -/
def lexicalLe (first second : SearchResult R) : Bool :=
  if Floats.lt second.score first.score then true
  else if Floats.lt first.score second.score then false
  else if roleRank first.role = roleRank second.role then decide (first.path ≤ second.path)
  else roleRank first.role < roleRank second.role

/-- What a managed context adds to the ranking: a prior for results, `none` where computing it
raises, and the width of the band in which it decides. -/
structure ManagedRanking (R : Type) where
  prior : SearchResult R → Option R
  tieBand : R

def ManagedRanking.boost (managed : ManagedRanking R) (result : SearchResult R) : R :=
  match managed.prior result with
  | none => Floats.ofRat 0
  | some boost =>
      if !Floats.isFinite boost || Floats.le boost (Floats.ofRat 0) then Floats.ofRat 0
      else if Floats.lt managed.tieBand boost then managed.tieBand
      else boost

def managedLe (managed : ManagedRanking R) (first second : SearchResult R) : Bool :=
  let firstScore := Floats.add first.score (managed.boost first)
  let secondScore := Floats.add second.score (managed.boost second)
  if Floats.lt secondScore firstScore then true
  else if Floats.lt firstScore secondScore then false
  else lexicalLe first second

/-- Sort every band of nearly equal scores by the managed order. -/
def rankBands (managed : ManagedRanking R) : Nat → List (SearchResult R) → List (SearchResult R)
  | 0, results => results
  | _, [] => []
  | fuel + 1, top :: rest =>
      let inBand := fun result : SearchResult R =>
        Floats.le (Floats.sub top.score result.score) managed.tieBand
      sortBy (managedLe managed) (top :: rest.takeWhile inBand) ++
        rankBands managed fuel (rest.dropWhile inBand)

def rankSearchResults (managed : Option (ManagedRanking R)) (results : List (SearchResult R)) :
    List (SearchResult R) :=
  let sorted := sortBy lexicalLe results
  match managed with
  | none => sorted
  | some managed =>
      if Floats.le managed.tieBand (Floats.ofRat 0) || !Floats.isFinite managed.tieBand then sorted
      else rankBands managed sorted.length sorted

omit [Unicode] in
theorem rankBands_perm {managed : ManagedRanking R} (fuel : Nat)
    (results : List (SearchResult R)) : (rankBands managed fuel results).Perm results := by
  induction fuel generalizing results with
  | zero => exact .refl _
  | succ fuel inductionHypothesis =>
      cases results with
      | nil => exact .refl _
      | cons top rest =>
          calc (rankBands managed (fuel + 1) (top :: rest)).Perm
                ((top :: rest.takeWhile _) ++ rest.dropWhile _) :=
                (sortBy_perm _ _).append (inductionHypothesis _)
            _ = top :: rest := by rw [List.cons_append, List.takeWhile_append_dropWhile]

omit [Unicode] in
theorem rankSearchResults_perm (managed : Option (ManagedRanking R))
    (results : List (SearchResult R)) : (rankSearchResults managed results).Perm results := by
  unfold rankSearchResults
  cases managed with
  | none => exact sortBy_perm _ _
  | some managed =>
      simp only []
      split
      · exact sortBy_perm _ _
      · exact (rankBands_perm _ _).trans (sortBy_perm _ _)

omit [Unicode] in
@[simp]
theorem mem_rankSearchResults {managed : Option (ManagedRanking R)}
    {results : List (SearchResult R)} {result : SearchResult R} :
    result ∈ rankSearchResults managed results ↔ result ∈ results :=
  (rankSearchResults_perm managed results).mem_iff

/-! ## Orientation and overview -/

omit [Unicode] in
def orientationLe (first second : WikiPage) : Bool :=
  if roleRank first.role = roleRank second.role then decide (first.path ≤ second.path)
  else roleRank first.role < roleRank second.role

omit [Unicode] in
/-- The first page of a role whose path is not taken. -/
def selectRole (ordered selected : List WikiPage) (role : PageRole) : List WikiPage :=
  match ordered.find? fun page =>
      page.role = role ∧ page.path ∉ selected.map WikiPage.path with
  | none => selected
  | some page => selected ++ [page]

omit [Unicode] in
def orientationPages (pages : List WikiPage) : List WikiPage :=
  let ordered := sortBy orientationLe pages
  let selected := [PageRole.hot, .index, .overview].foldl (selectRole ordered) []
  selected ++ ordered.filter fun page => page.path ∉ selected.map WikiPage.path

/-- `1.0 - rank * 0.01` -/
def orientationScore (rank : Nat) : R :=
  Floats.sub (Floats.ofRat 1) (Floats.mul (Floats.ofRat rank) (Floats.ofRat (1 / 100)))

def rankedResults (route : Text) (snippetChars : Option Int) (pages : List WikiPage) :
    List (SearchResult R) :=
  pages.zipIdx.map fun entry =>
    toResult entry.1 (orientationScore entry.2) route snippetChars {}

def contextOrientation (pages : List WikiPage) (snippetChars : Option Int) :
    List (SearchResult R) :=
  rankedResults "orientation" snippetChars ((orientationPages pages).take 3)

def overviewResults (pages : List WikiPage) (limit : Int) (snippetChars : Option Int)
    (excludePageIds : List Text) : List (SearchResult R) :=
  let excluded := pageExclusionSet excludePageIds
  takeLimit limit
    (rankedResults "overview" snippetChars
      ((orientationPages pages).filter fun page => !pageIsExcluded excluded page))

end Results

/-! ## Lexical search -/

structure SearchOptions (R : Type) where
  limit : Int := 8
  snippetChars : Option Int := none
  minScore : Option R := none
  excludePageIds : List Text := []
  managed : Option (ManagedRanking R) := none

section Lexical

variable [Unicode] {R : Type} [Floats R]

/-- `math.log(1 + (total - frequency + 0.5) / (frequency + 0.5))` -/
def inverseDocumentFrequency (total frequency : Nat) : R :=
  let half : R := Floats.ofRat (1 / 2)
  let numerator : R := Floats.add (Floats.ofRat ((total : ℚ) - frequency)) half
  let denominator : R := Floats.add (Floats.ofRat frequency) half
  Floats.log (Floats.add (Floats.ofRat 1) (Floats.div numerator denominator))

def averageDocLength (corpus : SearchCorpus) : R :=
  let lengths := (corpus.documents.map fun document => document.tokens.length).sum
  let average : R := Floats.div (Floats.ofRat lengths) (Floats.ofRat corpus.total)
  if corpus.documents = [] || Floats.le average (Floats.ofRat 1) then Floats.ofRat 1 else average

def bm25TermFrequency (frequency docLength : Nat) (averageDocLength : R) : R :=
  let relativeLength := Floats.div (Floats.ofRat (max 1 docLength)) averageDocLength
  -- `BM25_K1` is 1.2 and `BM25_B` is 0.75.
  let normalization := Floats.add (Floats.sub (Floats.ofRat 1) (Floats.ofRat (3 / 4)))
    (Floats.mul (Floats.ofRat (3 / 4)) relativeLength)
  let denominator := Floats.add (Floats.ofRat frequency)
    (Floats.mul (Floats.ofRat (6 / 5)) normalization)
  Floats.div
    (Floats.mul (Floats.ofRat frequency) (Floats.add (Floats.ofRat (6 / 5)) (Floats.ofRat 1)))
    denominator

def queryTokenWeight (token : Text) : R :=
  if isDigitText token then Floats.ofRat (1 / 5)
  else if isHangulToken token && token.length = 1 then Floats.ofRat (2 / 5)
  else Floats.ofRat 1

omit [Unicode] in
def roleMultiplier : PageRole → R
  | .hot => Floats.ofRat (23 / 20)
  | .index => Floats.ofRat (53 / 50)
  | .overview => Floats.ofRat (103 / 100)
  | .topic => Floats.ofRat 1

omit [Unicode] in
def addScore (scores : List (Nat × R)) (index : Nat) (amount : R) : List (Nat × R) :=
  Keyed.set scores index
    (Floats.add ((Keyed.get? scores index).getD (Floats.ofRat 0)) amount)

/-- The documents a query of one exact compound is restricted to. -/
def exactRequiredDocIndexes (corpus : SearchCorpus) (token : Text) : Option (List Nat) :=
  if token = [] then none
  else
    some ((corpus.postings SearchDocument.exactCompounds token ++
      corpus.postings SearchDocument.exactMetadata token).map Prod.fst)

omit [Unicode] [Floats R] in
def isRequired (required : Option (List Nat)) (index : Nat) : Bool :=
  required.all fun indexes => index ∈ indexes

def addTokenScores (corpus : SearchCorpus) (required : Option (List Nat))
    (scores : List (Nat × R)) (token : Text) : List (Nat × R) :=
  let entries := corpus.postings SearchDocument.tokens token
  let idf : R := inverseDocumentFrequency corpus.total entries.length
  (entries.filter fun entry => isRequired required entry.1).foldl (fun scores entry =>
    let frequency := bm25TermFrequency entry.2 (corpus.docLength entry.1) (averageDocLength corpus)
    addScore scores entry.1 (Floats.mul (Floats.mul idf frequency) (queryTokenWeight token))) scores

omit [Unicode] in
def addExactChannelScores (corpus : SearchCorpus) (channel : SearchDocument → List Text)
    (weight : R) (required : Option (List Nat)) (scores : List (Nat × R)) (token : Text) :
    List (Nat × R) :=
  let entries := corpus.postings channel token
  let idf : R := inverseDocumentFrequency corpus.total entries.length
  (entries.filter fun entry => isRequired required entry.1).foldl (fun scores entry =>
    let frequency := Floats.add (Floats.ofRat 1) (Floats.log1p (Floats.ofRat entry.2))
    addScore scores entry.1 (Floats.mul (Floats.mul idf frequency) weight)) scores

def candidateScores (corpus : SearchCorpus) (query : Text) (tokens : List Text) :
    List (Nat × R) :=
  let exactQueryToken := singleExactCompoundQueryToken corpus.analyzerProfile query
  let exactQueryTokens :=
    if exactQueryToken ≠ [] then [exactQueryToken]
    else exactCompoundTokens corpus.analyzerProfile query
  let required := exactRequiredDocIndexes corpus exactQueryToken
  let lexical := tokens.foldl (addTokenScores corpus required) []
  let withCompounds :=
    if exactQueryToken = [] then lexical
    else
      addExactChannelScores corpus SearchDocument.exactCompounds (Floats.ofRat (17 / 20)) required
        lexical exactQueryToken
  exactQueryTokens.foldl
    (addExactChannelScores corpus SearchDocument.exactMetadata (Floats.ofRat (7 / 20)) required)
    withCompounds

omit [Unicode] in
def belowMinimum (minScore : Option R) (score : R) : Bool :=
  minScore.any fun minimum => Floats.lt score minimum

/-- An empty query, or one the legacy tokenizer finds no tokens in, gives the overview. -/
def lexicalEmptyQueryUsesOverview (profile : AnalyzerProfile) (query : Text) : Bool :=
  Text.strip query = [] || profile = .legacy

variable [Stemming]

def lexicalSearchCorpus (corpus : SearchCorpus) (query : Text) (options : SearchOptions R) :
    List (SearchResult R) :=
  let tokens := uniqueTokens (tokenize corpus.analyzerProfile query)
  let exactQueryToken := singleExactCompoundQueryToken corpus.analyzerProfile query
  let excluded := pageExclusionSet options.excludePageIds
  if tokens = [] then
    if lexicalEmptyQueryUsesOverview corpus.analyzerProfile query then
      overviewResults corpus.pages options.limit options.snippetChars options.excludePageIds
    else []
  else if exactRequiredDocIndexes corpus exactQueryToken = some [] then []
  else
    let scores : List (Nat × R) := candidateScores corpus query tokens
    let results := corpus.documents.zipIdx.filterMap fun entry =>
      (Keyed.get? scores entry.2).bind fun textScore =>
        if pageIsExcluded excluded entry.1.page || Floats.le textScore (Floats.ofRat 0) then none
        else
          let score := Floats.mul textScore (roleMultiplier entry.1.page.role)
          if belowMinimum options.minScore score then none
          else
            some (toResult entry.1.page score "search" options.snippetChars
              { queryTokens := tokens })
    takeLimit options.limit (rankSearchResults options.managed results)

/-! ## Literal search -/

omit [Stemming] [Unicode] [Floats R] in
/-- The non-overlapping occurrences of a non-empty text, skipping `pending` characters. -/
def substringCountFrom (needle : Text) : Nat → Text → Nat
  | _, [] => 0
  | pending + 1, _ :: rest => substringCountFrom needle pending rest
  | 0, char :: rest =>
      if needle.isPrefixOf (char :: rest) then
        substringCountFrom needle (needle.length - 1) rest + 1
      else substringCountFrom needle 0 rest

omit [Stemming] [Unicode] [Floats R] in
def substringCount (haystack needle : Text) : Nat := substringCountFrom needle 0 haystack

omit [Stemming] in
def literalScore (page : WikiPage) (foldedQuery : Text) (occurrences : Nat) : R :=
  let frequency : R := Floats.log1p (Floats.ofRat occurrences)
  let three : R := Floats.ofRat 3
  let base := Floats.add (Floats.ofRat 1) (if Floats.lt frequency three then frequency else three)
  let withTitle :=
    if Text.contains foldedQuery (Text.casefold page.title) then
      Floats.add base (Floats.ofRat (3 / 2))
    else base
  if Text.contains foldedQuery (Text.casefold page.summary) then
    Floats.add withTitle (Floats.ofRat (7 / 10))
  else withTitle

omit [Stemming] in
def literalSearchCorpus (corpus : SearchCorpus) (query : Text) (options : SearchOptions R) :
    List (SearchResult R) :=
  let literalQuery := normalizedLiteral query
  let excluded := pageExclusionSet options.excludePageIds
  if literalQuery = [] then
    overviewResults corpus.pages options.limit options.snippetChars options.excludePageIds
  else
    let foldedQuery := Text.casefold literalQuery
    let results := corpus.pages.filterMap fun page =>
      let occurrences := substringCount (Text.casefold (literalPageText page)) foldedQuery
      if pageIsExcluded excluded page || occurrences = 0 then none
      else
        let score := Floats.mul (literalScore page foldedQuery occurrences)
          (roleMultiplier page.role)
        if belowMinimum options.minScore score then none
        else
          some (toResult page score "literal" options.snippetChars
            { literalQuery := literalQuery })
    takeLimit options.limit (rankSearchResults options.managed results)

def searchCorpus (corpus : SearchCorpus) (mode : SearchMode) (query : Text)
    (options : SearchOptions R) : List (SearchResult R) :=
  match mode with
  | .lexical => lexicalSearchCorpus corpus query options
  | .literal => literalSearchCorpus corpus query options

end Lexical

end LlmWikiServe
