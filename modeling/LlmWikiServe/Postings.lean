import LlmWikiServe.Search

/-!
# Postings

The tables `build_search_corpus` fills page by page, and lexical search over them.  They hold the
postings that the corpus of the search model finds by looking through its documents.
-/

namespace LlmWikiServe.Postings

/-! ## Counters and postings -/

section Counters

def countOf (counts : List (Text × Nat)) (token : Text) : Nat := (Keyed.get? counts token).getD 0

def increment (counts : List (Text × Nat)) (token : Text) : List (Text × Nat) :=
  Keyed.set counts token (countOf counts token + 1)

/-- `Counter(tokens)` -/
def counter (tokens : List Text) : List (Text × Nat) := tokens.foldl increment []

/-- The documents that hold a token, with its frequency. -/
abbrev TokenPostings := List (Text × List (Nat × Nat))

def entries (postings : TokenPostings) (token : Text) : List (Nat × Nat) :=
  (Keyed.get? postings token).getD []

/-- `postings.setdefault(token, []).append((doc_index, frequency))` -/
def appendPosting (docIndex : Nat) (postings : TokenPostings) (counted : Text × Nat) :
    TokenPostings :=
  Keyed.set postings counted.1 (entries postings counted.1 ++ [(docIndex, counted.2)])

theorem countOf_increment (counts : List (Text × Nat)) (token wanted : Text) :
    countOf (increment counts token) wanted =
      countOf counts wanted + if token = wanted then 1 else 0 := by
  unfold increment
  conv_lhs => rw [countOf]
  rw [Keyed.get?_set]
  by_cases same : token = wanted
  · simp [same]
  · simp [same, countOf]

theorem countOf_foldl_increment (tokens : List Text) (counts : List (Text × Nat))
    (wanted : Text) :
    countOf (tokens.foldl increment counts) wanted = countOf counts wanted + tokens.count wanted := by
  induction tokens generalizing counts with
  | nil => simp
  | cons token rest inductionHypothesis =>
      rw [List.foldl_cons, inductionHypothesis, countOf_increment, List.count_cons]
      by_cases same : token = wanted
      · simp only [same, if_true, BEq.rfl]
        omega
      · simp [same]

theorem countOf_counter (tokens : List Text) (token : Text) :
    countOf (counter tokens) token = tokens.count token :=
  (countOf_foldl_increment tokens [] token).trans (Nat.zero_add _)

theorem nodup_foldl_increment (tokens : List Text) {counts : List (Text × Nat)}
    (distinct : (counts.map Prod.fst).Nodup) :
    ((tokens.foldl increment counts).map Prod.fst).Nodup := by
  induction tokens generalizing counts with
  | nil => exact distinct
  | cons token rest inductionHypothesis =>
      exact inductionHypothesis (Keyed.nodup_map_fst_set distinct _ _)

theorem nodup_counter (tokens : List Text) : ((counter tokens).map Prod.fst).Nodup :=
  nodup_foldl_increment tokens List.nodup_nil

theorem counter_pos {tokens : List Text} {counted : Text × Nat} (among : counted ∈ counter tokens) :
    counted.2 ≠ 0 := by
  have general : ∀ counts : List (Text × Nat), (∀ other ∈ counts, other.2 ≠ 0) →
      ∀ other ∈ tokens.foldl increment counts, other.2 ≠ 0 := by
    clear among
    intro counts positive
    induction tokens generalizing counts with
    | nil => exact positive
    | cons token rest inductionHypothesis =>
        apply inductionHypothesis
        intro other otherIn
        rcases Keyed.mem_set otherIn with rfl | old
        · exact Nat.succ_ne_zero _
        · exact positive other old
  exact general [] (by simp) counted among

theorem entries_appendPosting (docIndex : Nat) (postings : TokenPostings) (counted : Text × Nat)
    (token : Text) :
    entries (appendPosting docIndex postings counted) token =
      entries postings token ++ if counted.1 = token then [(docIndex, counted.2)] else [] := by
  unfold appendPosting
  conv_lhs => rw [entries]
  rw [Keyed.get?_set]
  by_cases same : counted.1 = token
  · simp [same]
  · simp [same, entries]

def posting (docIndex frequency : Nat) : List (Nat × Nat) :=
  if frequency = 0 then [] else [(docIndex, frequency)]

theorem posting_length (docIndex frequency : Nat) :
    (posting docIndex frequency).length = if frequency = 0 then 0 else 1 := by
  unfold posting
  split <;> rfl

theorem entries_foldl_appendPosting (docIndex : Nat) {counts : List (Text × Nat)}
    (distinct : (counts.map Prod.fst).Nodup) (positive : ∀ counted ∈ counts, counted.2 ≠ 0)
    (postings : TokenPostings) (token : Text) :
    entries (counts.foldl (appendPosting docIndex) postings) token =
      entries postings token ++ posting docIndex (countOf counts token) := by
  induction counts generalizing postings with
  | nil => simp [posting, countOf, Keyed.get?]
  | cons counted rest inductionHypothesis =>
      obtain ⟨fresh, restDistinct⟩ := List.nodup_cons.mp distinct
      rw [List.foldl_cons, inductionHypothesis restDistinct
        (fun other among => positive other (List.mem_cons_of_mem _ among)), entries_appendPosting]
      by_cases same : counted.1 = token
      · have absent : Keyed.get? rest token = none := Keyed.get?_eq_none_iff.mpr (same ▸ fresh)
        have found : Keyed.get? (counted :: rest) token = some counted.2 := by
          simp [Keyed.get?, same]
        simp [same, posting, countOf, absent, found, positive counted List.mem_cons_self]
      · have later : Keyed.get? (counted :: rest) token = Keyed.get? rest token := by
          simp [Keyed.get?, same]
        simp [same, countOf, later]

theorem entries_counter (docIndex : Nat) (tokens : List Text) (postings : TokenPostings)
    (token : Text) :
    entries ((counter tokens).foldl (appendPosting docIndex) postings) token =
      entries postings token ++ posting docIndex (tokens.count token) := by
  rw [entries_foldl_appendPosting docIndex (nodup_counter tokens) (fun _ => counter_pos),
    countOf_counter]

end Counters

/-! ## The corpus -/

structure SearchDocument where
  page : WikiPage
  tokens : List Text
  counts : List (Text × Nat)

structure SearchCorpus (R : Type) where
  pages : List WikiPage
  documents : List SearchDocument
  docFreq : List (Text × Nat)
  docLengths : List Nat
  averageDocLength : R
  postings : TokenPostings
  exactCompoundPostings : TokenPostings
  exactMetadataPostings : TokenPostings
  analyzerProfile : AnalyzerProfile

def SearchCorpus.total {R : Type} (corpus : SearchCorpus R) : Nat := max 1 corpus.documents.length

/-- What the loop over the pages fills. -/
structure Tables where
  documents : List SearchDocument := []
  docFreq : List (Text × Nat) := []
  docLengths : List Nat := []
  postings : TokenPostings := []
  exactCompoundPostings : TokenPostings := []
  exactMetadataPostings : TokenPostings := []

section Building

variable [Unicode] [Stemming]

omit [Stemming] in
def indexExactChannel (postings : TokenPostings) (docIndex : Nat) (text : Text) : TokenPostings :=
  (counter (exactCompoundTokens .english text)).foldl (appendPosting docIndex) postings

/-- One turn of the loop of `build_search_corpus`. -/
def indexPage (profile : AnalyzerProfile) (tables : Tables) (numbered : WikiPage × Nat) : Tables :=
  let page := numbered.1
  let tokens := tokenize profile (pageTextForProfile profile page)
  let counts := counter tokens
  { documents := tables.documents ++ [{ page, tokens, counts }]
    docFreq := (uniqueTokens tokens).foldl increment tables.docFreq
    docLengths := tables.docLengths ++ [tokens.length]
    postings := counts.foldl (appendPosting numbered.2) tables.postings
    exactCompoundPostings :=
      if profile = .english then
        indexExactChannel tables.exactCompoundPostings numbered.2 (authoredPageText page)
      else tables.exactCompoundPostings
    exactMetadataPostings :=
      if profile = .english then
        indexExactChannel tables.exactMetadataPostings numbered.2 (exactMetadataText page)
      else tables.exactMetadataPostings }

def indexPages (profile : AnalyzerProfile) (pages : List WikiPage) : Tables :=
  pages.zipIdx.foldl (indexPage profile) {}

variable {R : Type} [Floats R]

def buildSearchCorpus (profile : AnalyzerProfile) (pages : List WikiPage) : SearchCorpus R :=
  let tables := indexPages profile pages
  let total := max 1 tables.documents.length
  let average : R := Floats.div (Floats.ofRat tables.docLengths.sum) (Floats.ofRat total)
  { pages
    documents := tables.documents
    docFreq := tables.docFreq
    docLengths := tables.docLengths
    averageDocLength :=
      -- `max(1.0, sum(doc_lengths) / total)`
      if tables.documents = [] || Floats.le average (Floats.ofRat 1) then Floats.ofRat 1
      else average
    postings := tables.postings
    exactCompoundPostings := tables.exactCompoundPostings
    exactMetadataPostings := tables.exactMetadataPostings
    analyzerProfile := profile }

end Building

/-! ## Lexical search -/

section Lexical

variable [Unicode] {R : Type} [Floats R]

omit [Unicode] [Floats R] in
def exactRequiredDocIndexes (corpus : SearchCorpus R) (token : Text) : Option (List Nat) :=
  if token = [] then none
  else
    some ((entries corpus.exactCompoundPostings token).map Prod.fst ++
      (entries corpus.exactMetadataPostings token).map Prod.fst)

def addTokenScores (corpus : SearchCorpus R) (required : Option (List Nat))
    (scores : List (Nat × R)) (token : Text) : List (Nat × R) :=
  let docFrequency := countOf corpus.docFreq token
  if docFrequency = 0 then scores
  else
    let idf : R := inverseDocumentFrequency corpus.total docFrequency
    (entries corpus.postings token).foldl (fun scores entry =>
      if !isRequired required entry.1 then scores
      else
        let frequency :=
          bm25TermFrequency entry.2 (corpus.docLengths.getD entry.1 0) corpus.averageDocLength
        addScore scores entry.1 (Floats.mul (Floats.mul idf frequency) (queryTokenWeight token)))
      scores

omit [Unicode] in
def addExactChannelScores (corpus : SearchCorpus R) (postings : TokenPostings) (weight : R)
    (required : Option (List Nat)) (scores : List (Nat × R)) (token : Text) : List (Nat × R) :=
  let docFrequency := (entries postings token).length
  if docFrequency = 0 then scores
  else
    let idf : R := inverseDocumentFrequency corpus.total docFrequency
    (entries postings token).foldl (fun scores entry =>
      if !isRequired required entry.1 then scores
      else
        let frequency := Floats.add (Floats.ofRat 1) (Floats.log1p (Floats.ofRat entry.2))
        addScore scores entry.1 (Floats.mul (Floats.mul idf frequency) weight)) scores

/-- The loops of `search_corpus` over the postings. -/
def candidateScores (corpus : SearchCorpus R) (query : Text) (tokens : List Text) :
    List (Nat × R) :=
  let exactQueryToken := singleExactCompoundQueryToken corpus.analyzerProfile query
  let exactQueryTokens :=
    if exactQueryToken ≠ [] then [exactQueryToken]
    else exactCompoundTokens corpus.analyzerProfile query
  let required := exactRequiredDocIndexes corpus exactQueryToken
  let lexical := tokens.foldl (addTokenScores corpus required) []
  let withCompounds :=
    if exactQueryToken = [] then lexical
    else
      addExactChannelScores corpus corpus.exactCompoundPostings (Floats.ofRat (17 / 20)) required
        lexical exactQueryToken
  exactQueryTokens.foldl
    (addExactChannelScores corpus corpus.exactMetadataPostings (Floats.ofRat (7 / 20)) required)
    withCompounds

variable [Stemming]

/-- `search_corpus` in the lexical mode. -/
def searchCorpus (corpus : SearchCorpus R) (query : Text) (options : SearchOptions R) :
    List (SearchResult R) :=
  let tokens := uniqueTokens (tokenize corpus.analyzerProfile query)
  let exactQueryToken := singleExactCompoundQueryToken corpus.analyzerProfile query
  let excluded := pageExclusionSet options.excludePageIds
  if tokens = [] then
    if !lexicalEmptyQueryUsesOverview corpus.analyzerProfile query then []
    else overviewResults corpus.pages options.limit options.snippetChars options.excludePageIds
  else if exactRequiredDocIndexes corpus exactQueryToken = some [] then []
  else
    let scores : List (Nat × R) := candidateScores corpus query tokens
    let results := (sortBy (fun first second => first ≤ second) (scores.map Prod.fst)).filterMap
      fun docIndex =>
        corpus.documents[docIndex]?.bind fun document =>
          (Keyed.get? scores docIndex).bind fun textScore =>
            if pageIsExcluded excluded document.page || Floats.le textScore (Floats.ofRat 0) then
              none
            else
              let score := Floats.mul textScore (roleMultiplier document.page.role)
              if belowMinimum options.minScore score then none
              else
                some (toResult document.page score "search" options.snippetChars
                  { queryTokens := tokens })
    takeLimit options.limit (rankSearchResults options.managed results)

end Lexical

/-! ## Agreement with the search model -/

section Agreement

variable [Unicode] [Stemming] {R : Type} [Floats R]

abbrev scanned (profile : AnalyzerProfile) (pages : List WikiPage) : LlmWikiServe.SearchCorpus :=
  LlmWikiServe.buildSearchCorpus profile pages

theorem scanned_append (profile : AnalyzerProfile) (pages : List WikiPage) (page : WikiPage)
    (channel : LlmWikiServe.SearchDocument → List Text) (token : Text) :
    (scanned profile (pages ++ [page])).postings channel token =
      (scanned profile pages).postings channel token ++
        posting pages.length ((channel (searchDocument profile page)).count token) := by
  simp only [LlmWikiServe.SearchCorpus.postings, LlmWikiServe.buildSearchCorpus, List.map_append,
    List.zipIdx_append, List.filterMap_append]
  congr 1
  by_cases absent : (channel (searchDocument profile page)).count token = 0
  · simp [posting, absent]
  · simp [posting, absent]

/-- The tables hold what the search model finds in the pages. -/
structure Tabulates (profile : AnalyzerProfile) (pages : List WikiPage) (tables : Tables) :
    Prop where
  documents : tables.documents = pages.map fun page =>
    let tokens := tokenize profile (pageTextForProfile profile page)
    ⟨page, tokens, counter tokens⟩
  docFreq : ∀ token, countOf tables.docFreq token =
    ((scanned profile pages).postings LlmWikiServe.SearchDocument.tokens token).length
  docLengths : tables.docLengths = pages.map fun page =>
    (tokenize profile (pageTextForProfile profile page)).length
  postings : ∀ token, entries tables.postings token =
    (scanned profile pages).postings LlmWikiServe.SearchDocument.tokens token
  exactCompounds : ∀ token, entries tables.exactCompoundPostings token =
    (scanned profile pages).postings LlmWikiServe.SearchDocument.exactCompounds token
  exactMetadata : ∀ token, entries tables.exactMetadataPostings token =
    (scanned profile pages).postings LlmWikiServe.SearchDocument.exactMetadata token

omit [Unicode] [Stemming] in
theorem count_uniqueTokens (tokens : List Text) (token : Text) :
    (uniqueTokens tokens).count token = if tokens.count token = 0 then 0 else 1 := by
  have distinct : (uniqueTokens tokens).Nodup := by
    simpa [uniqueTokens] using List.nodup_dedup tokens.reverse
  by_cases among : token ∈ tokens
  · rw [if_neg (List.count_pos_iff.mpr among).ne']
    exact List.count_eq_one_of_mem distinct (by simpa [uniqueTokens] using among)
  · rw [if_pos (List.count_eq_zero.mpr among), List.count_eq_zero]
    simpa [uniqueTokens] using among

theorem Tabulates.step {profile : AnalyzerProfile} {pages : List WikiPage} {tables : Tables}
    (tabulates : Tabulates profile pages tables) (page : WikiPage) :
    Tabulates profile (pages ++ [page]) (indexPage profile tables (page, pages.length)) := by
  refine ⟨?_, ?_, ?_, ?_, ?_, ?_⟩
  · simp [indexPage, tabulates.documents]
  · intro token
    rw [scanned_append, List.length_append, ← tabulates.docFreq]
    rw [posting_length]
    simp only [indexPage, countOf_foldl_increment, count_uniqueTokens, searchDocument]
    rfl
  · simp [indexPage, tabulates.docLengths]
  · intro token
    rw [scanned_append, ← tabulates.postings]
    exact entries_counter _ _ _ _
  · intro token
    rw [scanned_append, ← tabulates.exactCompounds]
    cases profile with
    | english => exact entries_counter _ _ _ _
    | legacy => simp [indexPage, searchDocument, exactCompoundTokens, posting]
  · intro token
    rw [scanned_append, ← tabulates.exactMetadata]
    cases profile with
    | english => exact entries_counter _ _ _ _
    | legacy => simp [indexPage, searchDocument, exactCompoundTokens, posting]

theorem indexPages_tabulates (profile : AnalyzerProfile) (pages : List WikiPage) :
    Tabulates profile pages (indexPages profile pages) := by
  induction pages using List.reverseRecOn with
  | nil => constructor <;> intros <;> rfl
  | append_singleton pages page inductionHypothesis =>
      have turn : indexPages profile (pages ++ [page]) =
          indexPage profile (indexPages profile pages) (page, pages.length) := by
        simp [indexPages, List.zipIdx_append]
      exact turn ▸ inductionHypothesis.step page

section Built

variable (profile : AnalyzerProfile) (pages : List WikiPage)

theorem built_pages : (buildSearchCorpus profile pages : SearchCorpus R).documents.map
    SearchDocument.page = pages := by
  simp [buildSearchCorpus, (indexPages_tabulates profile pages).documents, Function.comp_def]

theorem built_total : (buildSearchCorpus profile pages : SearchCorpus R).total =
    (scanned profile pages).total := by
  simp [SearchCorpus.total, LlmWikiServe.SearchCorpus.total, buildSearchCorpus,
    LlmWikiServe.buildSearchCorpus, (indexPages_tabulates profile pages).documents]

theorem built_docLength (docIndex : Nat) :
    (buildSearchCorpus profile pages : SearchCorpus R).docLengths.getD docIndex 0 =
      (scanned profile pages).docLength docIndex := by
  simp [LlmWikiServe.SearchCorpus.docLength, buildSearchCorpus, LlmWikiServe.buildSearchCorpus,
    (indexPages_tabulates profile pages).docLengths, searchDocument, List.getD_eq_getElem?_getD,
    Function.comp_def]

theorem built_averageDocLength :
    (buildSearchCorpus profile pages : SearchCorpus R).averageDocLength =
      averageDocLength (scanned profile pages) := by
  simp [averageDocLength, LlmWikiServe.SearchCorpus.total, buildSearchCorpus,
    LlmWikiServe.buildSearchCorpus, (indexPages_tabulates profile pages).documents,
    (indexPages_tabulates profile pages).docLengths, searchDocument, Function.comp_def]

theorem built_required (token : Text) :
    exactRequiredDocIndexes (buildSearchCorpus profile pages : SearchCorpus R) token =
      LlmWikiServe.exactRequiredDocIndexes (scanned profile pages) token := by
  have tabulates := indexPages_tabulates profile pages
  simp [exactRequiredDocIndexes, LlmWikiServe.exactRequiredDocIndexes, buildSearchCorpus,
    tabulates.exactCompounds, tabulates.exactMetadata]

omit [Unicode] [Stemming] [Floats R] in
theorem foldl_required (required : Option (List Nat)) (score : List (Nat × R) → Nat × Nat →
    List (Nat × R)) (postings : List (Nat × Nat)) (scores : List (Nat × R)) :
    (if postings.length = 0 then scores
      else postings.foldl (fun scores entry =>
        if !isRequired required entry.1 then scores else score scores entry) scores) =
      (postings.filter fun entry => isRequired required entry.1).foldl score scores := by
  rw [List.foldl_filter]
  cases postings with
  | nil => rfl
  | cons first rest =>
      rw [if_neg (by simp)]
      congr 1
      funext scores entry
      cases isRequired required entry.1 <;> rfl

theorem built_addTokenScores (required : Option (List Nat)) :
    addTokenScores (buildSearchCorpus profile pages : SearchCorpus R) required =
      LlmWikiServe.addTokenScores (scanned profile pages) required := by
  have tabulates := indexPages_tabulates profile pages
  funext scores token
  unfold addTokenScores LlmWikiServe.addTokenScores
  have frequency : countOf (buildSearchCorpus profile pages : SearchCorpus R).docFreq token =
      ((scanned profile pages).postings LlmWikiServe.SearchDocument.tokens token).length :=
    tabulates.docFreq token
  have held : entries (buildSearchCorpus profile pages : SearchCorpus R).postings token =
      (scanned profile pages).postings LlmWikiServe.SearchDocument.tokens token :=
    tabulates.postings token
  simp only [frequency, held, built_total, built_docLength, built_averageDocLength]
  exact foldl_required required _ _ scores

theorem built_addExactChannelScores (required : Option (List Nat)) (weight : R)
    {postings : TokenPostings} {channel : LlmWikiServe.SearchDocument → List Text}
    (held : ∀ token, entries postings token = (scanned profile pages).postings channel token) :
    addExactChannelScores (buildSearchCorpus profile pages : SearchCorpus R) postings weight
        required =
      LlmWikiServe.addExactChannelScores (scanned profile pages) channel weight required := by
  funext scores token
  unfold addExactChannelScores LlmWikiServe.addExactChannelScores
  simp only [held, built_total]
  exact foldl_required required _ _ scores

theorem built_candidateScores (query : Text) (tokens : List Text) :
    candidateScores (buildSearchCorpus profile pages : SearchCorpus R) query tokens =
      LlmWikiServe.candidateScores (scanned profile pages) query tokens := by
  have tabulates := indexPages_tabulates profile pages
  have compounds := fun required =>
    built_addExactChannelScores (R := R) profile pages required (Floats.ofRat (17 / 20))
      tabulates.exactCompounds
  have metadata := fun required =>
    built_addExactChannelScores (R := R) profile pages required (Floats.ofRat (7 / 20))
      tabulates.exactMetadata
  unfold candidateScores LlmWikiServe.candidateScores
  simp only [built_required, built_addTokenScores]
  rw [← compounds, ← metadata]
  rfl

end Built

/-! ### Candidates in document order -/

omit [Unicode] [Stemming] in
structure Numbered (bound : Nat) (scores : List (Nat × R)) : Prop where
  distinct : (scores.map Prod.fst).Nodup
  below : ∀ docIndex ∈ scores.map Prod.fst, docIndex < bound

omit [Unicode] [Stemming] in
theorem Numbered.foldl_addScore {bound : Nat} {amount : Nat × Nat → R}
    {postings : List (Nat × Nat)} (below : ∀ entry ∈ postings, entry.1 < bound)
    {scores : List (Nat × R)} (numbered : Numbered bound scores) :
    Numbered bound
      (postings.foldl (fun scores entry => addScore scores entry.1 (amount entry)) scores) := by
  induction postings generalizing scores with
  | nil => exact numbered
  | cons entry rest inductionHypothesis =>
      apply inductionHypothesis (fun other among => below other (List.mem_cons_of_mem _ among))
      refine ⟨Keyed.nodup_map_fst_set numbered.distinct _ _, fun docIndex among => ?_⟩
      rcases Keyed.mem_map_fst_set.mp among with rfl | old
      · exact below entry List.mem_cons_self
      · exact numbered.below docIndex old

omit [Unicode] [Stemming] in
theorem mem_postings {corpus : LlmWikiServe.SearchCorpus}
    {channel : LlmWikiServe.SearchDocument → List Text} {token : Text} {entry : Nat × Nat}
    (among : entry ∈ corpus.postings channel token) : entry.1 < corpus.documents.length := by
  obtain ⟨numbered, numberedIn, found⟩ := List.mem_filterMap.mp among
  dsimp only at found
  split at found
  · cases found
  · obtain rfl := Option.some.inj found
    exact List.snd_lt_of_mem_zipIdx numberedIn

omit [Stemming] in
theorem candidateScores_numbered (corpus : LlmWikiServe.SearchCorpus) (query : Text)
    (tokens : List Text) : Numbered corpus.documents.length
      (LlmWikiServe.candidateScores (R := R) corpus query tokens) := by
  have tokenTurn : ∀ required scores token, Numbered (R := R) corpus.documents.length scores →
      Numbered corpus.documents.length
        (LlmWikiServe.addTokenScores corpus required scores token) :=
    fun required scores token numbered =>
      numbered.foldl_addScore fun entry among => mem_postings (List.mem_of_mem_filter among)
  have channelTurn : ∀ channel weight required scores token,
      Numbered (R := R) corpus.documents.length scores → Numbered corpus.documents.length
        (LlmWikiServe.addExactChannelScores corpus channel weight required scores token) :=
    fun channel weight required scores token numbered =>
      numbered.foldl_addScore fun entry among => mem_postings (List.mem_of_mem_filter among)
  have lexical : ∀ required, Numbered (R := R) corpus.documents.length
      (tokens.foldl (LlmWikiServe.addTokenScores corpus required) []) :=
    fun required => List.foldlRecOn tokens _ ⟨List.nodup_nil, by simp⟩
      fun scores numbered token _ => tokenTurn required scores token numbered
  unfold LlmWikiServe.candidateScores
  refine List.foldlRecOn _ _ ?_ fun scores numbered token _ =>
    channelTurn _ _ _ scores token numbered
  split
  · exact lexical _
  · exact channelTurn _ _ _ _ _ (lexical _)

omit [Unicode] [Stemming] in
theorem filterMap_zipIdx {α β : Type} (values : List α) (pick : Nat → α → Option β) :
    values.zipIdx.filterMap (fun numbered => pick numbered.2 numbered.1) =
      (List.range values.length).filterMap fun index => values[index]?.bind (pick index) := by
  induction values using List.reverseRecOn with
  | nil => rfl
  | append_singleton values value inductionHypothesis =>
      rw [List.zipIdx_append, List.filterMap_append, inductionHypothesis, List.length_append,
        List.length_singleton, List.range_succ, List.filterMap_append]
      congr 1
      · apply List.filterMap_congr
        intro index among
        rw [List.getElem?_append_left (List.mem_range.mp among)]
      · simp [List.filterMap_cons]

omit [Unicode] [Stemming] [Floats R] in
/-- The sorted candidates are the documents with a score, in their order. -/
theorem Numbered.sorted {bound : Nat} {scores : List (Nat × R)} (numbered : Numbered bound scores) :
    sortBy (fun first second => first ≤ second) (scores.map Prod.fst) =
      (List.range bound).filter fun docIndex => docIndex ∈ scores.map Prod.fst := by
  have inOrder : (sortBy (fun first second : Nat => first ≤ second) (scores.map Prod.fst)).Pairwise
      (· ≤ ·) := by
    simpa [sortBy] using List.pairwise_insertionSort (· ≤ ·) (scores.map Prod.fst)
  have rangeInOrder : ((List.range bound).filter fun docIndex =>
      docIndex ∈ scores.map Prod.fst).Pairwise (· ≤ ·) :=
    List.Pairwise.filter _ (List.pairwise_lt_range.imp Nat.le_of_lt)
  have same : (sortBy (fun first second : Nat => first ≤ second) (scores.map Prod.fst)).Perm
      ((List.range bound).filter fun docIndex => docIndex ∈ scores.map Prod.fst) := by
    refine (List.perm_insertionSort _ _).trans ?_
    rw [List.perm_ext_iff_of_nodup numbered.distinct (List.nodup_range.filter _)]
    intro docIndex
    rw [List.mem_filter, List.mem_range, decide_eq_true_eq]
    exact ⟨fun among => ⟨numbered.below docIndex among, among⟩, And.right⟩
  exact same.eq_of_pairwise' inOrder rangeInOrder

omit [Unicode] [Stemming] [Floats R] in
theorem Numbered.filterMap {α β : Type} {values : List α} {scores : List (Nat × R)}
    (numbered : Numbered values.length scores) (pick : α → R → Option β) :
    (sortBy (fun first second => first ≤ second) (scores.map Prod.fst)).filterMap (fun docIndex =>
        values[docIndex]?.bind fun value => (Keyed.get? scores docIndex).bind (pick value)) =
      values.zipIdx.filterMap fun numbered =>
        (Keyed.get? scores numbered.2).bind (pick numbered.1) := by
  rw [filterMap_zipIdx values fun docIndex value => (Keyed.get? scores docIndex).bind (pick value),
    numbered.sorted, List.filterMap_filter]
  apply List.filterMap_congr
  intro docIndex _
  by_cases scored : docIndex ∈ scores.map Prod.fst
  · rw [if_pos (decide_eq_true scored)]
  · rw [Keyed.get?_eq_none_iff.mpr scored, if_neg (by simpa using scored)]
    cases values[docIndex]? <;> rfl

def pageResult (query : Text) (profile : AnalyzerProfile) (options : SearchOptions R)
    (page : WikiPage) (textScore : R) : Option (SearchResult R) :=
  if pageIsExcluded (pageExclusionSet options.excludePageIds) page ||
      Floats.le textScore (Floats.ofRat 0) then
    none
  else
    let score := Floats.mul textScore (roleMultiplier page.role)
    if belowMinimum options.minScore score then none
    else
      some (toResult page score "search" options.snippetChars
        { queryTokens := uniqueTokens (tokenize profile query) })

theorem lexicalSearchCorpus_scored {profile : AnalyzerProfile} {pages : List WikiPage}
    {query : Text} (options : SearchOptions R)
    (words : uniqueTokens (tokenize profile query) ≠ [])
    (matched : LlmWikiServe.exactRequiredDocIndexes (scanned profile pages)
      (singleExactCompoundQueryToken profile query) ≠ some []) :
    lexicalSearchCorpus (scanned profile pages) query options =
      takeLimit options.limit (rankSearchResults options.managed
        (pages.zipIdx.filterMap fun numbered =>
          (Keyed.get? (LlmWikiServe.candidateScores (scanned profile pages) query
            (uniqueTokens (tokenize profile query))) numbered.2).bind
            (pageResult query profile options numbered.1))) := by
  refine ((if_neg words).trans (if_neg matched)).trans ?_
  refine congrArg (fun results => takeLimit options.limit
    (rankSearchResults options.managed results)) ?_
  simp only [LlmWikiServe.buildSearchCorpus, List.zipIdx_map, List.filterMap_map]
  rfl

/-- Search over the tables of `build_search_corpus` is search over the documents. -/
theorem searchCorpus_eq (profile : AnalyzerProfile) (pages : List WikiPage) (query : Text)
    (options : SearchOptions R) :
    searchCorpus (buildSearchCorpus profile pages) query options =
      lexicalSearchCorpus (scanned profile pages) query options := by
  have numbered : Numbered pages.length (LlmWikiServe.candidateScores (R := R)
      (scanned profile pages) query (uniqueTokens (tokenize profile query))) := by
    simpa [LlmWikiServe.buildSearchCorpus] using candidateScores_numbered (R := R)
      (scanned profile pages) query (uniqueTokens (tokenize profile query))
  have builtRequired := built_required (R := R) profile pages
    (singleExactCompoundQueryToken profile query)
  by_cases blank : uniqueTokens (tokenize profile query) = []
  · calc searchCorpus (buildSearchCorpus profile pages) query options
        = if !lexicalEmptyQueryUsesOverview profile query then []
          else overviewResults pages options.limit options.snippetChars options.excludePageIds :=
          if_pos blank
      _ = if lexicalEmptyQueryUsesOverview profile query then
            overviewResults (scanned profile pages).pages options.limit options.snippetChars
              options.excludePageIds
          else [] := by
          rw [buildSearchCorpus_pages]
          cases lexicalEmptyQueryUsesOverview profile query <;> rfl
      _ = lexicalSearchCorpus (scanned profile pages) query options := (if_pos blank).symm
  by_cases unmatched : LlmWikiServe.exactRequiredDocIndexes (scanned profile pages)
      (singleExactCompoundQueryToken profile query) = some []
  · calc searchCorpus (buildSearchCorpus profile pages) query options
        = [] := (if_neg blank).trans (if_pos (builtRequired.trans unmatched))
      _ = lexicalSearchCorpus (scanned profile pages) query options :=
          ((if_neg blank).trans (if_pos unmatched)).symm
  refine ((if_neg blank).trans (if_neg fun same => unmatched (builtRequired.symm.trans same))).trans
    (Eq.trans ?_ (lexicalSearchCorpus_scored options blank unmatched).symm)
  refine congrArg (fun results => takeLimit options.limit
    (rankSearchResults options.managed results)) ?_
  let pick := pageResult query profile options
  have sameScores := built_candidateScores (R := R) profile pages query
    (uniqueTokens (tokenize profile query))
  have byPage : ∀ (docIndex : Nat) (scored : WikiPage → Option (SearchResult R)),
      ((buildSearchCorpus profile pages : SearchCorpus R).documents[docIndex]?.bind
        fun document : SearchDocument => scored document.page) = pages[docIndex]?.bind scored := by
    intro docIndex scored
    conv_rhs => rw [← built_pages (R := R) profile pages, List.getElem?_map]
    cases (buildSearchCorpus profile pages : SearchCorpus R).documents[docIndex]? <;> rfl
  calc _ = (sortBy (fun first second => first ≤ second)
            ((candidateScores (buildSearchCorpus profile pages : SearchCorpus R) query
              (uniqueTokens (tokenize profile query))).map Prod.fst)).filterMap fun docIndex =>
          pages[docIndex]?.bind fun page =>
            (Keyed.get? (candidateScores (buildSearchCorpus profile pages : SearchCorpus R) query
              (uniqueTokens (tokenize profile query))) docIndex).bind (pick page) :=
        List.filterMap_congr fun docIndex _ => byPage docIndex _
    _ = pages.zipIdx.filterMap fun numbered =>
          (Keyed.get? (LlmWikiServe.candidateScores (scanned profile pages) query
            (uniqueTokens (tokenize profile query))) numbered.2).bind (pick numbered.1) := by
        rw [sameScores]
        exact numbered.filterMap pick

end Agreement

end LlmWikiServe.Postings
