import LlmWikiServe.Projection
import LlmWikiServe.SearchResults

/-!
# Search and read

Search names the approved pages by their ids and paths, and reading takes the first page with
such an id or path.  The two agree on an index exactly when no other page comes first.
-/

namespace LlmWikiServe

/-! ## Paths of loaded pages -/

def DottedPaths (pages : List WikiPage) : Prop := ∀ page ∈ pages, '.' ∈ page.path

theorem dot_mem_asPosix_drop {path : RelPath} (dotted : '.' ∈ path.name) (count : Nat) :
    '.' ∈ RelPath.asPosix (path.drop count) := by
  unfold RelPath.asPosix
  split
  next => decide
  next rest =>
    have short : count < path.length := by
      by_contra long
      exact rest (List.drop_eq_nil_of_le (by omega))
    have last : (path.drop count).getLast? = path.getLast? := by
      rw [List.getLast?_drop, if_neg (by omega)]
    have nameIn : path.name ∈ path.drop count := by
      apply List.mem_of_getLast?
      rw [last, RelPath.name, RelPath.nameIn]
      cases found : path.getLast? with
      | none => simp [List.getLast?_eq_none_iff.mp found] at short
      | some final => rfl
    exact Text.mem_join nameIn dotted

section Loaded

variable [Unicode] [Interpreter] [Documents] [Host]

omit [Interpreter] [Documents] in
theorem dot_mem_of_adapterFiles {tree : FileTree} {accepts : RelPath → Bool}
    {scanRoot pageRoot : RelPath} (dotted : ∀ path, accepts path = true → '.' ∈ path.name)
    {file : RelPath × Content} (fileIn : file ∈ adapterFiles tree accepts scanRoot pageRoot) :
    '.' ∈ RelPath.asPosix file.1 := by
  obtain ⟨entry, -, selected⟩ := List.mem_filterMap.mp fileIn
  split at selected
  next accepted =>
    obtain ⟨content, -, rfl⟩ := Option.map_eq_some_iff.mp selected
    apply dot_mem_asPosix_drop
    exact dotted _ (Bool.and_eq_true_iff.mp accepted).1
  next => simp at selected

omit [Unicode] [Interpreter] [Documents] [Host] in
theorem dot_mem_of_isMarkdownName (path : RelPath) (markdown : isMarkdownName path = true) :
    '.' ∈ path.name := by
  obtain ⟨front, split⟩ := List.isSuffixOf_iff_suffix.mp markdown
  rw [← split]
  exact List.mem_append_right front (by decide)

omit [Interpreter] [Documents] [Host] in
theorem dot_mem_of_isPageFile (path : RelPath) (pageFile : isPageFile path = true) :
    '.' ∈ path.name := by
  by_contra plain
  have noSuffix : RelPath.suffix path.name = [] := by simp [RelPath.suffix, RelPath.nameSplits, plain]
  rw [isPageFile, noSuffix] at pageFile
  exact absurd pageFile (by simp [Text.lower, Text.lowerFrom, pageSuffixes])

omit [Host] in
theorem parsePage_path {options : PageOptions} {path : RelPath} {content : Content}
    {page : WikiPage} (parsed : parsePage options path content = .ok page) :
    page.path = RelPath.asPosix path := by
  simp only [parsePage, bind_eq_ok] at parsed
  obtain ⟨raw, -, ⟨entries, body⟩, -, frontmatter, -, made⟩ := parsed
  rw [← Except.ok.inj made]
  rfl

omit [Host] in
theorem parseOkfV02Page_path {role : OkfDocumentRole} {path : RelPath} {content : Content}
    {page : WikiPage} (parsed : parseOkfV02Page role path content = .ok page) :
    page.path = RelPath.asPosix path := by
  simp only [parseOkfV02Page, bind_eq_ok] at parsed
  obtain ⟨raw, -, ⟨entries, body⟩, -, -, -, conceptType, -, okf, -, frontmatter, -, made⟩ := parsed
  rw [← Except.ok.inj made]
  rfl

theorem parseMarkdownPages_dotted {tree : FileTree} {options : PageOptions}
    {scanRoot pageRoot : RelPath} {pages : List WikiPage}
    (parsed : parseMarkdownPages tree options scanRoot pageRoot = .ok pages) :
    DottedPaths pages := by
  intro page pageIn
  obtain ⟨file, fileIn, made⟩ := mem_of_mapM_ok parsed pageIn
  rw [parsePage_path made]
  exact dot_mem_of_adapterFiles dot_mem_of_isMarkdownName fileIn

theorem loadMarkdown_dotted {name implementation : Text} {tree : FileTree} {loaded : LoadedWiki}
    (succeeded : loadMarkdown name implementation tree = .ok loaded) :
    DottedPaths loaded.pages := by
  simp only [loadMarkdown, bind_eq_ok] at succeeded
  obtain ⟨pages, parsed, edges, -, made⟩ := succeeded
  rw [← Except.ok.inj made]
  exact parseMarkdownPages_dotted parsed

theorem parseOkfV02Pages_dotted {tree : FileTree} {pages : List WikiPage}
    (succeeded : parseOkfV02Pages (adapterFiles tree isMarkdownName [] []) = .ok pages) :
    DottedPaths pages := by
  simp only [parseOkfV02Pages, bind_eq_ok] at succeeded
  obtain ⟨parsedPages, parsed, same⟩ := succeeded
  have same : parsedPages = pages := by
    split at same
    next => simp [okfError, bind, Except.bind] at same
    next => exact Except.ok.inj same
  subst same
  intro page pageIn
  obtain ⟨file, fileIn, parsedPage⟩ := mem_of_mapM_ok parsed pageIn
  rw [parseOkfV02Page_path parsedPage]
  exact dot_mem_of_adapterFiles dot_mem_of_isMarkdownName (List.mem_of_mem_filter fileIn)

theorem okfV02_dotted {tree : FileTree} {loaded : LoadedWiki}
    (succeeded : okfV02Adapter.load tree = .ok loaded) : DottedPaths loaded.pages := by
  simp only [okfV02Adapter] at succeeded
  split at succeeded
  next => simp [bind, Except.bind] at succeeded
  next =>
    simp only [bind_eq_ok] at succeeded
    obtain ⟨pages, parsed, edges, -, made⟩ := succeeded
    rw [← Except.ok.inj made, loadedFrom_pages]
    exact parseOkfV02Pages_dotted parsed

theorem logseq_dotted {tree : FileTree} {loaded : LoadedWiki}
    (succeeded : logseqAdapter.load tree = .ok loaded) : DottedPaths loaded.pages := by
  unfold logseqAdapter at succeeded
  obtain ⟨pages, parsed, succeeded⟩ := bind_eq_ok.mp succeeded
  obtain ⟨edges, -, made⟩ := bind_eq_ok.mp succeeded
  rw [← Except.ok.inj made, loadedFrom_pages]
  intro page pageIn
  obtain ⟨file, fileIn, parsedPage⟩ := mem_of_mapM_ok parsed pageIn
  obtain ⟨scanRoot, -, fileIn⟩ := List.mem_flatMap.mp fileIn
  rw [parsePage_path parsedPage]
  exact dot_mem_of_adapterFiles dot_mem_of_isPageFile fileIn

theorem dendron_dotted {tree : FileTree} {loaded : LoadedWiki}
    (succeeded : dendronAdapter.load tree = .ok loaded) : DottedPaths loaded.pages := by
  unfold dendronAdapter at succeeded
  obtain ⟨⟨sourceRoots, vaults⟩, -, succeeded⟩ := bind_eq_ok.mp succeeded
  obtain ⟨pages, parsed, succeeded⟩ := bind_eq_ok.mp succeeded
  obtain ⟨edges, -, made⟩ := bind_eq_ok.mp succeeded
  rw [← Except.ok.inj made, loadedFrom_pages]
  intro page pageIn
  obtain ⟨vaultPages, vaultIn, pageIn⟩ := List.mem_flatten.mp pageIn
  obtain ⟨scanRoot, -, parsedVault⟩ := mem_of_mapM_ok parsed vaultIn
  exact parseMarkdownPages_dotted parsedVault page pageIn

theorem quartz_dotted {tree : FileTree} {loaded : LoadedWiki}
    (succeeded : quartzAdapter.load tree = .ok loaded) : DottedPaths loaded.pages := by
  unfold quartzAdapter at succeeded
  obtain ⟨pages, parsed, succeeded⟩ := bind_eq_ok.mp succeeded
  obtain ⟨-, -, succeeded⟩ := bind_eq_ok.mp succeeded
  obtain ⟨edges, -, made⟩ := bind_eq_ok.mp succeeded
  obtain rfl := Except.ok.inj made
  exact parseMarkdownPages_dotted parsed

theorem llmWikiMarkdown_dotted {tree : FileTree} {loaded : LoadedWiki}
    (succeeded : llmWikiMarkdownAdapter.load tree = .ok loaded) : DottedPaths loaded.pages := by
  unfold llmWikiMarkdownAdapter at succeeded
  obtain ⟨pages, parsed, succeeded⟩ := bind_eq_ok.mp succeeded
  obtain ⟨edges, -, made⟩ := bind_eq_ok.mp succeeded
  rw [← Except.ok.inj made, loadedFrom_pages]
  exact parseMarkdownPages_dotted parsed

theorem adapters_dotted {tree : FileTree} {loaded : LoadedWiki} :
    ∀ adapter ∈ adapters, adapter.load tree = .ok loaded → DottedPaths loaded.pages := by
  intro adapter listed succeeded
  simp only [adapters, List.mem_cons, List.not_mem_nil, or_false] at listed
  obtain rfl | rfl | rfl | rfl | rfl | rfl | rfl | rfl := listed
  · exact okfV02_dotted succeeded
  · exact loadMarkdown_dotted succeeded
  · exact logseq_dotted succeeded
  · exact dendron_dotted succeeded
  · exact loadMarkdown_dotted succeeded
  · exact quartz_dotted succeeded
  · exact llmWikiMarkdown_dotted succeeded
  · exact loadMarkdown_dotted succeeded

omit [Unicode] [Interpreter] [Documents] in
theorem requirePages_eq_ok {loaded required : LoadedWiki}
    (succeeded : requirePages loaded = .ok required) : loaded = required := by
  unfold requirePages at succeeded
  split at succeeded
  next => simp at succeeded
  next => exact Except.ok.inj succeeded

omit [Unicode] [Interpreter] [Documents] in
theorem loadWith_eq_ok {tree : FileTree} {tried : List WikiAdapter} {loaded : LoadedWiki}
    (succeeded : loadWith tree tried = .ok loaded) :
    ∃ adapter ∈ tried, adapter.load tree = .ok loaded := by
  induction tried with
  | nil => simp [loadWith] at succeeded
  | cons adapter rest inductionHypothesis =>
      rw [loadWith, bind_eq_ok] at succeeded
      obtain ⟨detected, -, succeeded⟩ := succeeded
      cases detected with
      | false =>
          obtain ⟨later, laterIn, load⟩ := inductionHypothesis succeeded
          exact ⟨later, List.mem_cons_of_mem adapter laterIn, load⟩
      | true =>
          obtain ⟨required, load, succeeded⟩ := bind_eq_ok.mp succeeded
          obtain rfl := requirePages_eq_ok succeeded
          exact ⟨adapter, List.mem_cons_self, load⟩

theorem loadWiki_dotted {profile : SourceProfile} {tree : FileTree} {loaded : LoadedWiki}
    (succeeded : loadWiki profile tree = .ok loaded) : DottedPaths loaded.pages := by
  unfold loadWiki at succeeded
  split at succeeded
  next => simp at succeeded
  next =>
    cases profile with
    | auto =>
        obtain ⟨adapter, listed, load⟩ := loadWith_eq_ok succeeded
        exact adapters_dotted adapter listed load
    | okfV02 =>
        obtain ⟨required, load, succeeded⟩ := bind_eq_ok.mp succeeded
        obtain rfl := requirePages_eq_ok succeeded
        exact okfV02_dotted load

end Loaded

/-! ## Reading what a search names -/

/-- The first page known by an id or by a path is served, has the path and is known by the id. -/
def Addressable [Unicode] (pages : List WikiPage) (pageId path : Text) : Prop :=
  ∃ before page after, pages = before ++ page :: after ∧ page.approvedForServing = true ∧
    page.path = path ∧ isNamed pageId page = true ∧
    ∀ earlier ∈ before, isNamed pageId earlier = false ∧ isNamed path earlier = false

def ReadsBack [Unicode] (index : WikiIndex) (pageId path : Text) : Prop :=
  ∃ page, page.approvedForServing = true ∧ page.path = path ∧
    read index pageId false = .found page ∧ read index path false = .found page

section Reading

variable [Unicode]

theorem read_found {index : WikiIndex} {pageId : Text} {page : WikiPage} :
    read index pageId false = .found page ↔
      index.pages.find? (isNamed pageId) = some page ∧ page.approvedForServing = true := by
  unfold read
  cases found : index.pages.find? (isNamed pageId) with
  | none => simp
  | some first =>
      by_cases served : first.approvedForServing = true
      · simp only [served, Bool.not_true, Bool.and_false, Bool.false_eq_true, reduceIte,
          Option.some.injEq, ReadOutcome.found.injEq]
        exact ⟨fun same => ⟨same, same ▸ served⟩, And.left⟩
      · simp only [served, Bool.not_false, Bool.and_self, reduceIte, Option.some.injEq,
          reduceCtorEq, false_iff, not_and]
        rintro rfl
        exact served

omit [Unicode] in
theorem find?_both {pages : List WikiPage} {first second : WikiPage → Bool} {page : WikiPage} :
    (pages.find? first = some page ∧ pages.find? second = some page) ↔
      ∃ before after, pages = before ++ page :: after ∧ first page = true ∧ second page = true ∧
        ∀ earlier ∈ before, first earlier = false ∧ second earlier = false := by
  constructor
  · rintro ⟨foundFirst, foundSecond⟩
    induction pages with
    | nil => simp at foundFirst
    | cons head tail inductionHypothesis =>
        rw [List.find?_cons] at foundFirst foundSecond
        cases isFirst : first head with
        | true =>
            rw [isFirst] at foundFirst
            obtain rfl := Option.some.inj foundFirst
            have isSecond : second head = true := List.find?_some (p := second) (l := head :: tail)
              (by rw [List.find?_cons]; exact foundSecond)
            exact ⟨[], tail, rfl, isFirst, isSecond, by simp⟩
        | false =>
            cases isSecond : second head with
            | true =>
                rw [isSecond] at foundSecond
                obtain rfl := Option.some.inj foundSecond
                have impossible : first head = true :=
                  List.find?_some (p := first) (l := head :: tail)
                    (by rw [List.find?_cons]; exact foundFirst)
                simp [isFirst] at impossible
            | false =>
                rw [isFirst] at foundFirst
                rw [isSecond] at foundSecond
                obtain ⟨before, after, rfl, holdsFirst, holdsSecond, earlier⟩ :=
                  inductionHypothesis foundFirst foundSecond
                refine ⟨head :: before, after, rfl, holdsFirst, holdsSecond, ?_⟩
                intro other otherIn
                rcases List.mem_cons.mp otherIn with rfl | later
                · exact ⟨isFirst, isSecond⟩
                · exact earlier other later
  · rintro ⟨before, after, rfl, holdsFirst, holdsSecond, earlier⟩
    have skipped : ∀ {test : WikiPage → Bool}, test page = true →
        (∀ other ∈ before, test other = false) →
        (before ++ page :: after).find? test = some page := by
      intro test holds none
      rw [List.find?_append, List.find?_eq_none.mpr (by simpa using none), Option.none_or,
        List.find?_cons, holds]
    exact ⟨skipped holdsFirst fun other otherIn => (earlier other otherIn).1,
      skipped holdsSecond fun other otherIn => (earlier other otherIn).2⟩

theorem readsBack_iff {index : WikiIndex} {pageId path : Text} :
    ReadsBack index pageId path ↔ Addressable index.pages pageId path := by
  constructor
  · rintro ⟨page, served, samePath, readId, readPath⟩
    obtain ⟨before, after, split, named, -, earlier⟩ :=
      find?_both.mp ⟨(read_found.mp readId).1, (read_found.mp readPath).1⟩
    exact ⟨before, page, after, split, served, samePath, named, earlier⟩
  · rintro ⟨before, page, after, split, served, samePath, named, earlier⟩
    have namedByPath : isNamed path page = true := by simp [isNamed, samePath]
    obtain ⟨foundId, foundPath⟩ := find?_both.mpr ⟨before, after, split, named, namedByPath, earlier⟩
    exact ⟨page, served, samePath, read_found.mpr ⟨foundId, served⟩,
      read_found.mpr ⟨foundPath, served⟩⟩

end Reading

/-! ## Every page is found by its dot -/

theorem substringCountFrom_single {char : Char} {text : Text} (charIn : char ∈ text) :
    substringCountFrom [char] 0 text ≠ 0 := by
  induction text with
  | nil => exact absurd charIn List.not_mem_nil
  | cons head tail inductionHypothesis =>
      rw [substringCountFrom]
      split
      next => exact Nat.succ_ne_zero _
      next different =>
        have later : char ∈ tail := by
          rcases List.mem_cons.mp charIn with rfl | later
          · simp [List.isPrefixOf] at different
          · exact later
        exact inductionHypothesis later

section Search

variable [Unicode]

theorem casefold_dot : Text.casefold ("." : Text) = ("." : Text) := by
  have folded := Unicode.foldChar_ascii '.' (by decide)
  simp only [Text.casefold]
  change List.flatMap Unicode.foldChar ['.'] = ['.']
  rw [List.flatMap_singleton, folded]
  rfl

theorem dot_mem_casefold {text : Text} (dotted : '.' ∈ text) : '.' ∈ Text.casefold text := by
  apply List.mem_flatMap.mpr
  refine ⟨'.', dotted, ?_⟩
  rw [Unicode.foldChar_ascii '.' (by decide)]
  exact List.mem_singleton.mpr (by decide)

variable {R : Type} [Floats R]

theorem literalSearch_complete (corpus : SearchCorpus) (managed : Option (ManagedRanking R))
    {page : WikiPage} (pageIn : page ∈ corpus.pages) {query : Text}
    (nonempty : normalizedLiteral query ≠ [])
    (occurs : substringCount (Text.casefold (literalPageText page))
      (Text.casefold (normalizedLiteral query)) ≠ 0) :
    ∃ limit, ∃ result ∈ literalSearchCorpus corpus query { limit, managed },
      result.Names page := by
  simp only [literalSearchCorpus, nonempty, reduceIte]
  generalize resultsAre : corpus.pages.filterMap _ = results
  refine ⟨(rankSearchResults managed results).length, ?_⟩
  rw [takeLimit_length, ← resultsAre]
  let occurrences := substringCount (Text.casefold (literalPageText page))
    (Text.casefold (normalizedLiteral query))
  let score : R := Floats.mul (literalScore page (Text.casefold (normalizedLiteral query))
    occurrences) (roleMultiplier page.role)
  let found : SearchResult R :=
    toResult page score "literal" none { literalQuery := normalizedLiteral query }
  refine ⟨found, mem_rankSearchResults.mpr ?_, rfl, rfl⟩
  apply List.mem_filterMap.mpr
  refine ⟨page, pageIn, ?_⟩
  have kept : ¬(pageIsExcluded (pageExclusionSet []) page || decide (occurrences = 0)) = true := by
    simpa [pageIsExcluded, pageExclusionSet] using occurs
  rw [if_neg kept]
  rfl

/-- A literal search for a dot finds every page with a dot in its path, the limit allowing. -/
theorem dotSearch_complete (corpus : SearchCorpus) (managed : Option (ManagedRanking R))
    {page : WikiPage} (pageIn : page ∈ corpus.pages) (dotted : '.' ∈ page.path) :
    ∃ limit, ∃ result ∈ literalSearchCorpus corpus "." { limit, managed }, result.Names page := by
  have normalized : normalizedLiteral "." = ("." : Text) := by decide
  have dotPresent : '.' ∈ literalPageText page := by
    have joined : page.path ∈ [page.title, page.path, page.summary, page.text,
        Text.join " " page.tags, Text.join " " page.sourceRefs] := by
      simp
    exact Text.mem_join joined dotted
  apply literalSearch_complete corpus managed pageIn
  · rw [normalized]
    decide
  · rw [normalized, casefold_dot]
    exact substringCountFrom_single (dot_mem_casefold dotPresent)

variable [Stemming]

theorem searchResultObjects_named {settings : ServiceSettings}
    {managed : Option (ManagedRanking R)} {index : WikiIndex} {request : SearchRequest R}
    {results : List (SearchResult R)}
    (succeeded : searchResultObjects settings managed index request = .ok results)
    {result : SearchResult R} (membership : result ∈ results) :
    NamesIncluded (visiblePages index.pages request.includeDrafts) request.excludePageIds
      result := by
  unfold searchResultObjects at succeeded
  cases channels : effectiveLexicalQueryChannels request.query request.queryVariants
      request.mode with
  | error error => simp [channels, bind, Except.bind] at succeeded
  | ok queries =>
      simp only [channels, bind, Except.bind] at succeeded
      split at succeeded
      next =>
        obtain rfl := Except.ok.inj succeeded
        have named := fusedLexicalVariantResults_named membership
        rwa [buildSearchCorpus_pages] at named
      next =>
        obtain rfl := Except.ok.inj succeeded
        have named := mem_searchCorpus membership
        rwa [buildSearchCorpus_pages] at named

/-- The page of every result without drafts is read back under its id and under its path. -/
def SearchReadAgree (settings : ServiceSettings) (managed : Option (ManagedRanking R))
    (index : WikiIndex) : Prop :=
  ∀ request : SearchRequest R, request.includeDrafts = false →
    ∀ results, search settings managed index request = .ok results →
      ∀ result, .full result ∈ results → ReadsBack index result.pageId result.path

/-- Search and read agree on a loaded wiki exactly when every served page comes first under its
id and its path. -/
theorem searchReadAgree_iff [Interpreter] [Documents] [Host] (settings : ServiceSettings)
    (managed : Option (ManagedRanking R)) {profile : SourceProfile} {tree : FileTree}
    {loaded : LoadedWiki} (succeeded : loadWiki profile tree = .ok loaded) :
    SearchReadAgree settings managed (projectWiki loaded) ↔
      ∀ page ∈ loaded.pages, page.approvedForServing = true →
        Addressable loaded.pages page.id page.path := by
  constructor
  · intro agree page pageIn served
    have visible : page ∈ visiblePages loaded.pages false := List.mem_filter.mpr ⟨pageIn, served⟩
    have corpusIn : page ∈ (buildSearchCorpus settings.analyzerProfile
        (visiblePages loaded.pages false)).pages := by
      rwa [buildSearchCorpus_pages]
    obtain ⟨limit, result, found, sameId, samePath⟩ :=
      dotSearch_complete _ managed corpusIn (loadWiki_dotted succeeded page pageIn)
    let request : SearchRequest R := { query := ".", limit, mode := .literal }
    have answered : search settings managed (projectWiki loaded) request =
        .ok ((literalSearchCorpus (buildSearchCorpus settings.analyzerProfile
          (visiblePages loaded.pages false)) "." { limit, managed }).map .full) := rfl
    have back := agree request rfl _ answered result (List.mem_map_of_mem found)
    rw [sameId, samePath] at back
    exact readsBack_iff.mp back
  · intro addressable request approvedOnly results answered result membership
    unfold search at answered
    cases objects : searchResultObjects settings managed (projectWiki loaded) request with
    | error error => simp [objects, bind, Except.bind] at answered
    | ok found =>
        simp only [objects, bind, Except.bind] at answered
        obtain rfl := Except.ok.inj answered
        obtain ⟨original, originalIn, projected⟩ := List.mem_map.mp membership
        have same : original = result := by
          unfold projectSearchResult at projected
          split at projected
          next => exact ContextSearchResult.full.inj projected
          next => simp at projected
        subst same
        obtain ⟨page, pageIn, -, sameId, samePath⟩ := searchResultObjects_named objects originalIn
        rw [approvedOnly] at pageIn
        obtain ⟨pageIn, served⟩ := List.mem_filter.mp pageIn
        rw [sameId, samePath]
        exact readsBack_iff.mpr (addressable page pageIn served)

end Search

section Sample

attribute [local instance] Unicode.ascii Value.plainInterpreter Documents.lines Host.plain
  Floats.rational Stemming.identity

def singlePageTree : FileTree :=
  .ofChildren ⟨1, 1, 0, 0⟩ [("b.md", FileTree.textFile 2 "text")] (by decide)

theorem singlePage_loads : ∃ loaded, loadWiki .auto singlePageTree = .ok loaded := ⟨_, rfl⟩

theorem searchReadAgree_iff_singlePage :
    ∃ loaded, loadWiki .auto singlePageTree = .ok loaded ∧
      (SearchReadAgree (R := ℚ) {} none (projectWiki loaded) ↔
        ∀ page ∈ loaded.pages, page.approvedForServing = true →
          Addressable loaded.pages page.id page.path) := by
  obtain ⟨loaded, loads⟩ := singlePage_loads
  exact ⟨loaded, loads, searchReadAgree_iff {} none loads⟩

/-- A draft that takes the id of another page, before it in the order of paths. -/
def shadowTree : FileTree :=
  .ofChildren ⟨1, 1, 0, 0⟩
    [("a.md", FileTree.textFile 2 "---\nid: b\nreview_state: draft\n---\n"),
      ("b.md", FileTree.textFile 3 "text")] (by decide)

/-- The served page is found by an overview and cannot be read under its id. -/
theorem shadowedPage_unreadable :
    ¬ ∀ loaded, loadWiki .auto shadowTree = .ok loaded →
      SearchReadAgree (R := ℚ) {} none (projectWiki loaded) := by
  intro claimed
  have found : ∃ loaded, loadWiki .auto shadowTree = .ok loaded ∧
      ∃ result rest, search (R := ℚ) {} none (projectWiki loaded) { query := "" } =
        .ok (.full result :: rest) ∧ read (projectWiki loaded) result.pageId false = .notApproved :=
    ⟨_, rfl, _, _, rfl, rfl⟩
  obtain ⟨loaded, loads, result, rest, answered, withheld⟩ := found
  obtain ⟨page, -, -, readId, -⟩ :=
    claimed loaded loads { query := "" } rfl _ answered result List.mem_cons_self
  simp [withheld] at readId

end Sample

end LlmWikiServe
