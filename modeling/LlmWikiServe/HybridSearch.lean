import LlmWikiServe.VectorSearch

/-!
# Hybrid search

Reciprocal-rank fusion of lexical and vector results.  Orientation pages that match the query
seed a set of related pages, whose results are further channels; without seeds or related pages
the lexical and vector results are fused alone.
-/

namespace LlmWikiServe.HybridSearch

open VectorSearch

def hybridRrfK : Nat := 60

def hybridOrientationSeedLimit : Nat := 3

def hybridOrientationCandidateLimit : Nat := 24

def hybridRelatedPageLimit : Nat := 64

def hybridRelatedPerSeedLimit : Nat := 16

def hybridOrientationRoles : List PageRole := [.hot, .index, .overview]

def hybridOrientationPage (page : WikiPage) : Bool := page.role ∈ hybridOrientationRoles

def orientationExcludePageIds (pages : List WikiPage) (excludePageIds : List Text) : List Text :=
  excludePageIds ++ (pages.filter fun page => !hybridOrientationPage page).map WikiPage.id

/-- How many results of a channel are fused. -/
def hybridCandidateDepth (limit : Int) (totalDocs : Nat) : Nat :=
  if totalDocs = 0 then 0
  else
    let requested := (max 1 limit).toNat
    -- The depth is at least 256, four times the request, and at most 1024.
    let boundedOverfetch := min 1024 (max 256 (4 * requested))
    min totalDocs (max requested boundedOverfetch)

/-! ## Labels of relations -/

/-- `Path(path).stem` -/
def pathStem (path : Text) : Text :=
  let names := (Text.splitOn '/' path).filter fun name => name ≠ [] ∧ name ≠ ("." : Text)
  RelPath.stem (names.getLast?.getD [])

/-- `value[:-3] if value.endswith(".md") else value` -/
def withoutMd (value : Text) : Text :=
  if Text.endsWith value ".md" then value.dropLast.dropLast.dropLast else value

/-- `[^...]*` between the tokens of a phrase and outside it. -/
def isBoundaryChar (char : Char) : Bool :=
  Pattern.isLetter char || Pattern.isAsciiDigit char || Pattern.isHangul char

/-- `[0-9A-Za-z]+|[가-힣]+` -/
def relationTokenPattern : Pattern :=
  .alt (Pattern.plus (.one fun char => Pattern.isLetter char || Pattern.isAsciiDigit char))
    (Pattern.plus (.one Pattern.isHangul))

/-- `\[\[([^\]|#]+)(?:#[^\]|]+)?(?:\|[^\]]*)?\]\]` -/
def wikiLinkPattern : Pattern :=
  Pattern.all
    [Pattern.text "[[",
      .group 1 (Pattern.plus (.one fun char => char ≠ ']' && char ≠ '|' && char ≠ '#')),
      Pattern.opt (.seq (Pattern.char '#')
        (Pattern.plus (.one fun char => char ≠ ']' && char ≠ '|'))),
      Pattern.opt (.seq (Pattern.char '|') (.star (.one (· ≠ ']')))), Pattern.text "]]"]

/-- `\[[^\]\n]*\]\(([^)\s]+)(?:\s+["'][^)]*["'])?\)` -/
def markdownLinkPattern : Pattern :=
  let quote := Pattern.one (· ∈ ("\"'" : Text))
  Pattern.all
    [Pattern.char '[', .star (.one fun char => char ≠ ']' && char ≠ '\n'), Pattern.text "](",
      .group 1 (Pattern.plus (.one fun char => char ≠ ')' && !Text.isSpace char)),
      Pattern.opt (Pattern.all
        [Pattern.plus Pattern.space, quote, .star (.one (· ≠ ')')), quote]),
      Pattern.char ')']

section Labels

variable [Unicode]

def normalizedRelationLabel (value : Text) : Text :=
  (Text.casefold (withoutMd (Unicode.normalizeNfc value))).filter isKeyChar

def relationLabelCandidates (label : Text) : List Text :=
  let stripped := withoutMd (Unicode.normalizeNfc (Text.strip label))
  [stripped, pathStem stripped, Text.afterLast '/' stripped]

def normalizedLabels (values : List Text) : List Text :=
  (values.map normalizedRelationLabel).filter (· ≠ [])

def explicitRelationLabels (text : Text) : List Text :=
  let wikiLinks := (Pattern.findAll wikiLinkPattern text).flatMap fun found =>
    relationLabelCandidates (Text.strip ((found.group? 1).getD []))
  let markdownLinks := (Pattern.findAll markdownLinkPattern text).flatMap fun found =>
    let target := Text.stripBy (· ∈ ("<>" : Text)) ((found.group? 1).getD [])
    relationLabelCandidates (Text.beforeFirst '?' (Text.beforeFirst '#' target))
  normalizedLabels (wikiLinks ++ markdownLinks)

def relationTokens (value : Text) : List Text :=
  (Pattern.findAll relationTokenPattern (Unicode.normalizeNfc value)).map fun found =>
    Text.casefold found.text

omit [Unicode] in
/-- The tokens with anything but words between them, outside of words. -/
def relationPhrasePattern (tokens : List Text) : Pattern :=
  let outside := fun nearby : Text => nearby.head?.all (!isBoundaryChar ·)
  let separator := Pattern.star (.one (!isBoundaryChar ·))
  let phrase := (tokens.map Pattern.text).intersperse separator
  Pattern.all ([.guard fun before _ => outside before] ++ phrase ++
    [.guard fun _ after => outside after])

def relationPhraseVisible (label evidenceText : Text) : Bool :=
  let tokens := relationTokens label
  let evidence := Text.casefold (Unicode.normalizeNfc evidenceText)
  tokens ≠ [] && (Pattern.search (relationPhrasePattern tokens) evidence).isSome

def relationLabelVisible (label evidenceText : Text) : Bool :=
  let labelValues := relationLabelCandidates label
  if Text.strip evidenceText = [] then false
  else
    ((normalizedLabels labelValues).any fun value => value ∈ explicitRelationLabels evidenceText) ||
      labelValues.any fun value => relationPhraseVisible value evidenceText

def pageNames (page : WikiPage) : List Text :=
  [page.id, page.title, page.path, Text.afterLast '/' page.path, pathStem page.path]

def pageExplicitlyMatchesQuery (page : WikiPage) (query : Text) : Bool :=
  let queryLabel := normalizedRelationLabel query
  queryLabel ≠ [] && queryLabel ∈ normalizedLabels (pageNames page)

def suppressedOrientationAnswerPageIds (corpus : SearchCorpus) (query : Text) : List Text :=
  (corpus.pages.filter fun page =>
    hybridOrientationPage page && !pageExplicitlyMatchesQuery page query).map WikiPage.id

/-- The first page of every normalized name. -/
def pageLookup (pages : List WikiPage) : List (Text × WikiPage) :=
  Keyed.setDefaults (pages.flatMap fun page =>
    (normalizedLabels (pageNames page)).map fun name => (name, page))

end Labels

/-! ## Seeds -/

structure OrientationSeed where
  page : WikiPage
  rank : Nat
  lexicalRank : Option Nat
  vectorRank : Option Nat
  evidenceText : Text

section Results

variable {R : Type} [Floats R]

omit [Floats R] in
/-- The results under their page ids, later ones replacing earlier ones. -/
def resultByPage (results : List (SearchResult R)) : List (Text × SearchResult R) :=
  Keyed.update [] (results.map fun result => (result.pageId, result))

omit [Floats R] in
def rankByPage (results : List (SearchResult R)) : List (Text × Nat) :=
  Keyed.update [] ((results.zipIdx 1).map fun entry => (entry.1.pageId, entry.2))

omit [Floats R] in
def orientationEvidenceText (lexicalResult vectorResult : Option (SearchResult R)) : Text :=
  Text.join " " (([lexicalResult, vectorResult].filterMap fun result =>
    result.map fun result => Text.strip result.snippet).filter (· ≠ []))

omit [Floats R] in
/-- The seed of a page, where a rank and evidence are given. -/
def orientationSeed? (lexicalResults vectorResults : List (SearchResult R)) (corpus : SearchCorpus)
    (page : WikiPage) : Option OrientationSeed :=
  let lexicalRank := Keyed.get? (rankByPage lexicalResults) page.id
  let vectorRank := Keyed.get? (rankByPage vectorResults) page.id
  let bounded := fun rank : Option Nat => rank.any (· ≤ hybridOrientationCandidateLimit)
  let evidence := orientationEvidenceText (Keyed.get? (resultByPage lexicalResults) page.id)
    (Keyed.get? (resultByPage vectorResults) page.id)
  if !hybridOrientationPage page || (!bounded lexicalRank && !bounded vectorRank) ||
      evidence = [] then none
  else
    some
      { page := (Keyed.get? (pagesById corpus.pages) page.id).getD page
        rank := min (lexicalRank.getD (hybridOrientationCandidateLimit + 1))
          (vectorRank.getD (hybridOrientationCandidateLimit + 1))
        lexicalRank, vectorRank, evidenceText := evidence }

def seedLe (first second : OrientationSeed) : Bool :=
  let ranks := fun seed : OrientationSeed =>
    [seed.rank, seed.lexicalRank.getD (hybridOrientationCandidateLimit + 1),
      seed.vectorRank.getD (hybridOrientationCandidateLimit + 1), roleRank seed.page.role]
  if ranks first ≠ ranks second then decide (ranks first ≤ ranks second)
  else if first.page.path ≠ second.page.path then decide (first.page.path ≤ second.page.path)
  else decide (first.page.id ≤ second.page.id)

omit [Floats R] in
def orientationSeeds (lexicalResults vectorResults : List (SearchResult R))
    (corpus : SearchCorpus) : List OrientationSeed :=
  (sortBy seedLe (corpus.pages.filterMap (orientationSeed? lexicalResults vectorResults corpus))).take
    hybridOrientationSeedLimit

/-! ## Related pages -/

def safeRelatedPageId (pages : List (Text × WikiPage)) (excluded : List Text) (seedPageId pageId : Text) :
    Option Text :=
  (Keyed.get? pages pageId).bind fun page =>
    if page.id = seedPageId || pageIsExcluded excluded page then none else some page.id

variable [Unicode]

omit [Floats R] in
def visibleToSeed (seed : OrientationSeed) (query label : Text) : Bool :=
  relationLabelVisible label seed.evidenceText || relationLabelVisible label query

def pagesByLabel (labels : WikiPage → List Text) (pages : List WikiPage) (label : Text) :
    List WikiPage :=
  pages.flatMap fun page =>
    ((labels page).filter fun carried =>
      normalizedRelationLabel carried = normalizedRelationLabel label).map fun _ => page

def relatedPagePool (corpus : SearchCorpus) (query : Text) (excluded : List Text)
    (seed : OrientationSeed) : List Text :=
  let linked := (seed.page.links.filter (visibleToSeed seed query)).filterMap fun link =>
    Keyed.get? (pageLookup corpus.pages) (normalizedRelationLabel link)
  let sourced := (seed.page.sourceRefs.filter (visibleToSeed seed query)).flatMap
    (pagesByLabel WikiPage.sourceRefs corpus.pages)
  let tagged := (seed.page.tags.filter (visibleToSeed seed query)).flatMap
    (pagesByLabel WikiPage.tags corpus.pages)
  ((linked ++ sourced ++ tagged).filterMap fun page =>
    safeRelatedPageId (pagesById corpus.pages) excluded seed.page.id page.id).dedup

structure RelatedVectorResults (R : Type) where
  relatedIds : List Text
  results : List (SearchResult R)
  exactScores : List (Text × R)

/-- The related pages that the query vector ranks highest, per seed and over all seeds. -/
def relatedVectorResultsFromOrientation (answers : List Nat → Bool) (corpus : SearchCorpus)
    (seeds : List OrientationSeed) (index : VectorIndex R) (query : Text)
    (queryState : Option (List R × R)) (snippetChars : Option Int) (excludePageIds : List Text) :
    Except ScoreFailure (RelatedVectorResults R) :=
  match queryState with
  | none => .ok ⟨[], [], []⟩
  | some (queryVector, queryNorm) => do
      let excluded := pageExclusionSet excludePageIds
      let pools := seeds.map (relatedPagePool corpus query excluded)
      let byId := pagesById corpus.pages
      let candidatePages := pools.flatten.dedup.filterMap fun pageId =>
        (Keyed.get? byId pageId).map fun page => (pageId, page)
      let positions := filteredRecordPositionsForSmallPageSubset index candidatePages excluded
      if candidatePages = [] || positions = some [] then return ⟨[], [], []⟩
      else
        let best ← bestVectorRecordsByPage answers index candidatePages excluded queryVector
          queryNorm positions
        let candidates := rankedPages candidatePages best
        let cappedIds := pools.flatMap fun pool =>
          ((sortBy vectorLe (candidates.filter fun candidate => candidate.page.id ∈ pool)).take
            hybridRelatedPerSeedLimit).map fun candidate => candidate.page.id
        let selected := (sortBy vectorLe (candidates.filter fun candidate =>
          candidate.page.id ∈ cappedIds)).take hybridRelatedPageLimit
        return {
          relatedIds := selected.map fun candidate => candidate.page.id
          results := selected.map fun candidate =>
            vectorResult candidate.page candidate.score candidate.record snippetChars
          exactScores := selected.map fun candidate => (candidate.page.id, candidate.score) }

end Results

/-! ## Fusion -/

/-- What results are ordered by: a descending score, those without one coming last, then a rank
and the role, path and id of the page. -/
structure FusionKey (R : Type) where
  score : Option R
  rank : Nat
  role : PageRole
  path : Text
  pageId : Text

section Fusion

variable {R : Type} [Floats R]

omit [Floats R] in
def FusionKey.tailLe (first second : FusionKey R) : Bool :=
  if first.rank ≠ second.rank then first.rank < second.rank
  else if roleRank first.role ≠ roleRank second.role then
    roleRank first.role < roleRank second.role
  else if first.path ≠ second.path then decide (first.path ≤ second.path)
  else decide (first.pageId ≤ second.pageId)

def FusionKey.le (first second : FusionKey R) : Bool :=
  match first.score, second.score with
  | some score, some other =>
      if Floats.lt other score then true
      else if Floats.lt score other then false
      else first.tailLe second
  | some _, none => true
  | none, some _ => false
  | none, none => first.tailLe second

/-- The result of a page so far, with its score. -/
structure HybridFused (R : Type) where
  result : SearchResult R
  score : R

/-- Count a result at a rank of a channel; the first result of a page stays. -/
def addHybridResult (weight : ℚ) (fused : List (Text × HybridFused R))
    (entry : SearchResult R × Nat) : List (Text × HybridFused R) :=
  let (result, rank) := entry
  let known := Keyed.get? fused result.pageId
  let share := Floats.div (Floats.ofRat weight) (Floats.ofRat ((hybridRrfK : ℚ) + rank))
  Keyed.set fused result.pageId
    { result := (known.map HybridFused.result).getD result
      score := Floats.add ((known.map HybridFused.score).getD (Floats.ofRat 0)) share }

def addHybridChannel (fused : List (Text × HybridFused R))
    (channel : ℚ × List (SearchResult R)) : List (Text × HybridFused R) :=
  (channel.2.zipIdx 1).foldl (addHybridResult channel.1) fused

omit [Floats R] in
/-- Whether a query of one compound has the page among its lexical results. -/
def exactLexical (required : Option (List Text)) (lexicalRanked : List (SearchResult R))
    (pageId : Text) : Bool :=
  required.isSome && lexicalRanked.any fun result => result.pageId = pageId

omit [Floats R] in
def hybridKey (required : Option (List Text)) (lexicalRanked : List (SearchResult R))
    (entry : Text × HybridFused R) : FusionKey R where
  score := some entry.2.score
  rank := if exactLexical required lexicalRanked entry.1 then 0 else 1
  role := entry.2.result.role
  path := entry.2.result.path
  pageId := entry.1

def hybridResult (required : Option (List Text)) (lexicalRanked : List (SearchResult R))
    (entry : Text × HybridFused R) : SearchResult R :=
  let base :=
    if exactLexical required lexicalRanked entry.1 then
      (lexicalRanked.find? fun result => result.pageId = entry.1).getD entry.2.result
    else entry.2.result
  { base with score := Floats.round 4 entry.2.score, route := "hybrid" }

def fusedHybridResults (required : Option (List Text)) (lexicalRanked : List (SearchResult R))
    (channels : List (ℚ × List (SearchResult R))) (limit : Int) : List (SearchResult R) :=
  let key := hybridKey required lexicalRanked
  (takeLimit limit (sortBy (fun first second => (key first).le (key second))
    (channels.foldl addHybridChannel []))).map (hybridResult required lexicalRanked)

/-! ## The orientation channels -/

def shortSnippet (snippet : Text) : Text :=
  if 280 < snippet.length then Text.rstrip (snippet.take 279) ++ ("..." : Text) else snippet

def seedResult (seed : OrientationSeed) : SearchResult R where
  pageId := seed.page.id
  title := seed.page.title
  path := seed.page.path
  score := Floats.div (Floats.ofRat 1) (Floats.ofRat ((hybridRrfK : ℚ) + seed.rank))
  snippet := shortSnippet seed.evidenceText
  role := seed.page.role
  sourceRefs := seed.page.sourceRefs
  route := "hybrid"

def graphPriorResult (page : WikiPage) : SearchResult R where
  pageId := page.id
  title := page.title
  path := page.path
  score := Floats.ofRat 0
  snippet :=
    shortSnippet (Text.join " " (Text.split (if page.summary = [] then page.text else page.summary)))
  role := page.role
  sourceRefs := page.sourceRefs
  route := "hybrid"

def rerankRelatedVectorResults (results : List (SearchResult R))
    (lexicalRanks : List (Text × Nat)) (exactScores : List (Text × R)) : List (SearchResult R) :=
  if exactScores = [] then results
  else
    let lexicalFloor := lexicalRanks.length + hybridRrfK + 1
    let key := fun entry : SearchResult R × Nat =>
      let exact := (Keyed.get? exactScores entry.1.pageId).filter Floats.isFinite
      { score := exact
        rank := if exact.isSome then (Keyed.get? lexicalRanks entry.1.pageId).getD lexicalFloor
          else entry.2
        role := entry.1.role, path := entry.1.path, pageId := entry.1.pageId : FusionKey R }
    (sortBy (fun first second => (key first).le (key second)) results.zipIdx).map Prod.fst

def graphPriorResultsByVectorRelevance (corpus : SearchCorpus) (relatedPageIds : List Text)
    (relatedVectorResults : List (SearchResult R)) (exactScores : List (Text × R)) :
    List (SearchResult R) :=
  let byId := pagesById corpus.pages
  let ranks := rankByPage relatedVectorResults
  let scores := (resultByPage relatedVectorResults).map fun entry => (entry.1, entry.2.score)
  let key := fun page : WikiPage =>
    let rank := Keyed.get? ranks page.id
    { score := rank.bind fun _ => (Keyed.get? exactScores page.id).or (Keyed.get? scores page.id)
      rank := rank.getD 0
      role := page.role, path := page.path, pageId := page.id : FusionKey R }
  (sortBy (fun first second => (key first).le (key second))
    (relatedPageIds.dedup.filterMap fun pageId => Keyed.get? byId pageId)).filterMap fun page =>
      (corpus.pages.find? fun other => other.id = page.id).map graphPriorResult

/-! ## The two branches -/

def hybridLexicalWeight : ℚ := 1

def hybridRelatedVectorWeight : ℚ := 1

def hybridGlobalVectorWeight : ℚ := 3 / 4

def hybridOrientationDocWeight : ℚ := 7 / 20

def hybridGraphPriorWeight : ℚ := 1 / 4

omit [Floats R] in
def allowedResults (required : Option (List Text)) (suppressed : List Text)
    (results : List (SearchResult R)) : List (SearchResult R) :=
  results.filter fun result =>
    (required.all fun pageIds => result.pageId ∈ pageIds) && result.pageId ∉ suppressed

variable [Unicode]

def plainHybridSearchResults (lexicalResults vectorResults : List (SearchResult R))
    (corpus : SearchCorpus) (query : Text) (limit : Int) (suppressOrientationAnswers : Bool) :
    List (SearchResult R) :=
  let required := exactRequiredPageIdsForQuery corpus query
  if required = some [] then []
  else
    let suppressed :=
      if suppressOrientationAnswers then suppressedOrientationAnswerPageIds corpus query else []
    let lexicalRanked := allowedResults required suppressed lexicalResults
    let vectorRanked := allowedResults required suppressed vectorResults
    fusedHybridResults required lexicalRanked [(1, lexicalRanked), (1, vectorRanked)] limit

def orientationSeededHybridSearchResults (lexicalResults vectorResults : List (SearchResult R))
    (related : RelatedVectorResults R) (seeds : List OrientationSeed) (corpus : SearchCorpus)
    (query : Text) (limit : Int) : List (SearchResult R) :=
  let required := exactRequiredPageIdsForQuery corpus query
  if required = some [] then []
  else
    let allowed := allowedResults required (suppressedOrientationAnswerPageIds corpus query)
    let lexicalRanked := allowed lexicalResults
    let relatedRanked := rerankRelatedVectorResults
      (allowed (related.results.filter fun result => result.pageId ∈ related.relatedIds))
      (rankByPage lexicalRanked) related.exactScores
    let graphPrior := graphPriorResultsByVectorRelevance corpus related.relatedIds relatedRanked
      related.exactScores
    fusedHybridResults required lexicalRanked
      [(hybridLexicalWeight, lexicalRanked), (hybridRelatedVectorWeight, relatedRanked),
        (hybridGlobalVectorWeight, allowed vectorResults),
        (hybridOrientationDocWeight, allowed (seeds.map seedResult)),
        (hybridGraphPriorWeight, allowed graphPrior)] limit

/-- For which rows the array library answers, in each of the three vector searches. -/
structure HybridAnswers where
  orientation : List Nat → Bool
  related : List Nat → Bool
  global : List Nat → Bool

structure HybridOptions where
  limit : Int
  candidateLimit : Int
  snippetChars : Option Int := none
  excludePageIds : List Text := []

structure HybridLexical (R : Type) where
  results : List (SearchResult R)
  orientation : List (SearchResult R)

def queryStateSearch (answers : List Nat → Bool) (index : VectorIndex R) (pages : List WikiPage)
    (query : Text) (queryState : Option (List R × R)) (options : VectorOptions) :
    Except ScoreFailure (List (SearchResult R)) :=
  searchVectorIndexWithQueryVector answers index pages query (queryState.map Prod.fst)
    ((queryState.map Prod.snd).getD (Floats.ofRat 0)) options

def hybridRelated (answers : HybridAnswers) (lexical : HybridLexical R) (index : VectorIndex R)
    (pages : List WikiPage) (corpus : SearchCorpus) (query : Text)
    (queryState : Option (List R × R)) (options : HybridOptions) :
    Except ScoreFailure (List OrientationSeed × RelatedVectorResults R) := do
  let vectorResults ← queryStateSearch answers.orientation index
    (pages.filter hybridOrientationPage) query queryState
    { limit := hybridOrientationCandidateLimit, snippetChars := options.snippetChars
      excludePageIds := options.excludePageIds }
  let seeds := orientationSeeds lexical.orientation vectorResults corpus
  let related ← relatedVectorResultsFromOrientation answers.related corpus seeds index query
    queryState options.snippetChars options.excludePageIds
  return (seeds, related)

def globalVectorResults (answers : HybridAnswers) (index : VectorIndex R) (pages : List WikiPage)
    (query : Text) (queryState : Option (List R × R)) (options : HybridOptions) :
    Except ScoreFailure (List (SearchResult R)) :=
  queryStateSearch answers.global index pages query queryState
    { limit := options.candidateLimit, snippetChars := options.snippetChars
      excludePageIds := options.excludePageIds }

def hybridSearchResultsForVectorIndex (answers : HybridAnswers) (lexical : HybridLexical R)
    (index : VectorIndex R) (provider : EmbeddingProvider R) (pages : List WikiPage)
    (corpus : SearchCorpus) (query : Text) (options : HybridOptions) :
    Except ScoreFailure (List (SearchResult R)) := do
  let queryState ← embedQueryVector provider query
  let (seeds, related) ←
    hybridRelated answers lexical index pages corpus query queryState options
  let vectorResults ← globalVectorResults answers index pages query queryState options
  if seeds = [] ∨ related.relatedIds = [] then
    return plainHybridSearchResults lexical.results vectorResults corpus query options.limit true
  else
    return orientationSeededHybridSearchResults lexical.results vectorResults related seeds corpus
      query options.limit

variable [Stemming]

def hybridResultObjects (answers : HybridAnswers) (index : VectorIndex R)
    (provider : EmbeddingProvider R) (corpus : SearchCorpus) (query : Text) (limit : Int)
    (snippetChars : Option Int) (excludePageIds : List Text) :
    Except ScoreFailure (List (SearchResult R)) :=
  let candidateLimit := hybridCandidateDepth limit corpus.documents.length
  let lexical := fun (limit : Int) (excludePageIds : List Text) =>
    searchCorpus corpus .lexical query
      { limit, snippetChars, minScore := none, excludePageIds, managed := none }
  hybridSearchResultsForVectorIndex answers
    { results := lexical candidateLimit excludePageIds
      orientation := lexical hybridOrientationCandidateLimit
        (orientationExcludePageIds corpus.pages excludePageIds) }
    index provider corpus.pages corpus query
    { limit, candidateLimit, snippetChars, excludePageIds }

end Fusion

end LlmWikiServe.HybridSearch
