import LlmWikiServe.SourceComparison

/-!
# Coverage of the signature

Trees without symbolic links that are filed under the same digest load alike, unless they differ
in what the walk leaves out and an adapter looks at: files below `.runtime-logs` or called `.md`,
pages of a vault in a skipped directory and directories that hold no signed file.
-/

namespace LlmWikiServe

theorem mapM_congr_mem {Input Output : Type} {first second : Input → Except LoadError Output}
    {inputs : List Input} (same : ∀ input ∈ inputs, first input = second input) :
    inputs.mapM first = inputs.mapM second := by
  induction inputs with
  | nil => rfl
  | cons head tail inductionHypothesis =>
      rw [List.mapM_cons, List.mapM_cons, same head List.mem_cons_self,
        inductionHypothesis fun input inputIn => same input (List.mem_cons_of_mem _ inputIn)]

section Coverage

variable [Unicode] [Interpreter] [Documents] [Host] {tree first second : FileTree}
  {roots : List RelPath}

/-! ## Files at fixed places -/

omit [Interpreter] [Documents] in
theorem included_of_content (linkless : tree.Linkless) {path : RelPath} {content : Content}
    (plain : PlainRoot path) (read : contentAt? tree path = some content) :
    includeAdapterFile tree [] path = true := by
  obtain ⟨stat, found⟩ := (contentAt?_eq_some_iff linkless).mp read
  have names : ∀ part ∈ path, part ∉ ignoredAdapterParts ∧ part ≠ (".vscode" : Text) := by
    intro part partIn
    simpa [ignoredHubRootNames] using plain part partIn
  rw [includeAdapterFile_eq linkless, read, mayRead, resolveBelow_found linkless found, resolveBelow]
  have unhinted : (".vscode" : Text) ∉ path := fun hinted => (names _ hinted).2 rfl
  have clean : path.any (· ∈ ignoredAdapterParts) = false := by
    rw [List.any_eq_false]
    intro part partIn
    simpa using (names part partIn).1
  rw [List.length_nil, List.drop_zero, clean]
  simp only [unhinted, decide_false]
  simp

omit [Unicode] [Interpreter] [Documents] in
theorem includeAdapterDir_eq (linkless : tree.Linkless) (path : RelPath) :
    includeAdapterDir tree [] path = isDirAt tree path := by
  unfold includeAdapterDir
  cases found : isDirAt tree path with
  | false => simp
  | true =>
      obtain ⟨stat, children, here⟩ := (isDirAt_iff linkless).mp found
      rw [Bool.and_true, includeAdapterPath_iff linkless, here,
        resolveBelow_found linkless here, resolveBelow]
      simp

omit [Interpreter] [Documents] in
theorem adapterFiles_of_not_dir (linkless : tree.Linkless) {accepts : RelPath → Bool}
    {scanRoot pageRoot : RelPath} (missing : isDirAt tree scanRoot = false) :
    adapterFiles tree accepts scanRoot pageRoot = [] := by
  rw [adapterFiles_eq, List.map_eq_nil_iff, List.eq_nil_iff_forall_not_mem]
  intro file fileIn
  obtain ⟨⟨name, rest, shape⟩, -, included, -⟩ := (mem_readFiles linkless).mp fileIn
  obtain ⟨stat, content, found, -⟩ := contentAt?_of_included linkless included
  rw [shape] at found
  simp [isDirAt_of_below found] at missing

namespace Comparison

variable (comparison : Comparison roots first second)

include comparison

omit [Interpreter] [Documents] in
theorem plainContent {path : RelPath} (source : isSourceFile path = true) (plain : PlainRoot path)
    (covered : Covered roots path) :
    contentAt? first path = contentAt? second path := by
  cases firstRead : contentAt? first path with
  | some content =>
      rw [← firstRead]
      exact comparison.sources path source covered
        (Or.inl (included_of_content comparison.firstLinkless plain firstRead))
  | none =>
      cases secondRead : contentAt? second path with
      | none => rfl
      | some content =>
          rw [← firstRead, ← secondRead]
          exact comparison.sources path source covered
            (Or.inr (included_of_content comparison.secondLinkless plain secondRead))

/-! ## Sidecar graphs and hints -/

omit [Interpreter] [Documents] in
theorem graphCandidates {root sourceRoot : RelPath} (plain : PlainRoot root)
    (within : root <+: sourceRoot) (own : Covered roots (root ++ graphJsonPath))
    (covered : Covered roots (sourceRoot ++ graphJsonPath)) :
    graphJsonCandidates first root sourceRoot = graphJsonCandidates second root sourceRoot ∧
      ∀ path ∈ graphJsonCandidates first root sourceRoot,
        contentAt? first path = contentAt? second path := by
  have source : ∀ front : RelPath, isSourceFile (front ++ graphJsonPath) = true := by
    intro front
    simp [isSourceFile, List.isSuffixOf_iff_suffix]
  have placed : ∀ path ∈ [root ++ graphJsonPath, sourceRoot ++ graphJsonPath],
      root <+: path ∧ isSourceFile path = true ∧ Covered roots path := by
    intro path pathIn
    rcases List.mem_cons.mp pathIn with rfl | later
    · exact ⟨List.prefix_append _ _, source _, own⟩
    · obtain rfl := List.mem_singleton.mp later
      exact ⟨within.trans (List.prefix_append _ _), source _, covered⟩
  constructor
  · refine List.filter_congr fun path pathIn => ?_
    obtain ⟨below, named, covered⟩ := placed path pathIn
    exact comparison.included plain below named covered
  · intro path pathIn
    obtain ⟨listed, included⟩ := List.mem_filter.mp pathIn
    obtain ⟨below, named, covered⟩ := placed path listed
    exact comparison.content plain below named covered (Or.inl included)

omit [Interpreter] in
theorem sidecarEdges {root : RelPath} {sourceRoots : List RelPath} (plain : PlainRoot root)
    (within : ∀ sourceRoot ∈ sourceRoots, root <+: sourceRoot)
    (own : Covered roots (root ++ graphJsonPath))
    (covered : ∀ sourceRoot ∈ sourceRoots, Covered roots (sourceRoot ++ graphJsonPath)) :
    loadSidecarGraphEdges first root sourceRoots = loadSidecarGraphEdges second root sourceRoots := by
  have candidates : sourceRoots.flatMap (graphJsonCandidates first root) =
      sourceRoots.flatMap (graphJsonCandidates second root) := by
    rw [List.flatMap_def, List.flatMap_def]
    congr 1
    exact List.map_congr_left fun sourceRoot rootIn =>
      (comparison.graphCandidates plain (within sourceRoot rootIn) own
        (covered sourceRoot rootIn)).1
  unfold loadSidecarGraphEdges
  rw [← candidates, resolveBelow_congr comparison.firstLinkless comparison.secondLinkless]
  dsimp only
  congr 1
  refine mapM_congr_mem fun path pathIn => ?_
  obtain ⟨sourceRoot, rootIn, pathIn⟩ := List.mem_flatMap.mp (Keyed.mem_of_mem_firstWins pathIn)
  rw [sidecarFacts, sidecarFacts,
    (comparison.graphCandidates plain (within sourceRoot rootIn) own
      (covered sourceRoot rootIn)).2 path pathIn]

omit [Interpreter] in
theorem rootEdges : loadSidecarGraphEdges first [] [[]] = loadSidecarGraphEdges second [] [[]] := by
  refine comparison.sidecarEdges (by decide) (fun _ _ => List.nil_prefix) (Or.inl (by decide)) ?_
  intro sourceRoot rootIn
  obtain rfl := List.mem_singleton.mp rootIn
  exact Or.inl (by decide)

omit [Interpreter] in
theorem searchedEdges {sourceRoots : List RelPath}
    (searched : ∀ sourceRoot ∈ sourceRoots, Searched roots sourceRoot) :
    loadSidecarGraphEdges first [] sourceRoots = loadSidecarGraphEdges second [] sourceRoots :=
  comparison.sidecarEdges (by decide) (fun _ _ => List.nil_prefix) (Or.inl (by decide))
    fun sourceRoot rootIn => Or.inr ((searched sourceRoot rootIn).below (List.prefix_append _ _))

theorem vscodeHint (needle : Text) :
    hasVscodeExtensionHint first needle = hasVscodeExtensionHint second needle := by
  have source : isSourceFile [".vscode", "extensions.json"] = true := by
    simp [isSourceFile, signatureRelativeFilenames]
  have included := comparison.included (by decide) List.nil_prefix source (Or.inl (by decide))
  unfold hasVscodeExtensionHint
  dsimp only
  rw [← included]
  cases read : includeAdapterFile first [] [".vscode", "extensions.json"] with
  | false => rfl
  | true =>
      rw [comparison.content (by decide) List.nil_prefix source (Or.inl (by decide))
        (Or.inl read)]

/-! ## Pages -/

theorem parsedPages {options : PageOptions} {scanRoot pageRoot : RelPath}
    (plain : PlainRoot pageRoot) (within : pageRoot <+: scanRoot)
    (searched : Searched roots scanRoot) :
    parseMarkdownPages first options scanRoot pageRoot =
      parseMarkdownPages second options scanRoot pageRoot := by
  rw [parseMarkdownPages, parseMarkdownPages, comparison.markdownFiles plain within searched]

theorem genericPages {root : RelPath} (plain : PlainRoot root) (searched : Searched roots root) :
    parseGenericPages first root = parseGenericPages second root := by
  rw [parseGenericPages, parseGenericPages, comparison.hubRoots plain searched,
    comparison.parsedPages plain List.prefix_rfl searched]

theorem loadedMarkdown (searched : Searched roots []) (name implementation : Text) :
    loadMarkdown name implementation first = loadMarkdown name implementation second := by
  rw [loadMarkdown, loadMarkdown, comparison.genericPages (by decide) searched,
    comparison.rootEdges]

omit [Interpreter] [Documents] in
theorem detectedMarkdown (searched : Searched roots []) :
    detectMarkdown first = detectMarkdown second :=
  comparison.pages (by decide) List.nil_prefix searched

end Comparison

/-! ## Vaults -/

def configuredVaults (tree : FileTree) : Except LoadError (List RelPath) :=
  if !includeAdapterFile tree [] ["dendron.yml"] then .ok []
  else
    match contentAt? tree ["dendron.yml"] with
    | none => .ok []
    | some content => do
        let raw ← content.readText
        match Documents.safeLoad raw with
        | .error .syntax_ => return []
        | .error (.raised message) => .error (.document message)
        | .ok (.dict data) => do
            let vaults ← (dendronVaultEntries data).mapM (dendronVaultPath tree)
            return Keyed.firstWins id (vaults.filterMap id)
        | .ok _ => return []

omit [Interpreter] in
theorem dendronSourceRoots_eq (tree : FileTree) : dendronSourceRoots tree =
    (configuredVaults tree).map fun vaults => (vaults.filter (isDirAt tree), vaults.length) := by
  unfold dendronSourceRoots configuredVaults
  cases includeAdapterFile tree [] ["dendron.yml"] with
  | false => rfl
  | true =>
      simp only [Bool.not_true, Bool.false_eq_true, if_false]
      cases contentAt? tree ["dendron.yml"] with
      | none => rfl
      | some content =>
          simp only [bind, Except.bind]
          cases content.readText with
          | error error => rfl
          | ok raw =>
              dsimp only
              cases Documents.safeLoad raw with
              | error error => cases error <;> rfl
              | ok value =>
                  cases value with
                  | dict data =>
                      dsimp only
                      cases (dendronVaultEntries data).mapM (dendronVaultPath tree) <;> rfl
                  | _ => rfl

omit [Interpreter] in
theorem Comparison.vaults (comparison : Comparison roots first second) :
    configuredVaults first = configuredVaults second := by
  have source : isSourceFile ["dendron.yml"] = true := by
    simp [isSourceFile, signatureFilenames, RelPath.name, RelPath.nameIn]
  have included := comparison.included (by decide) List.nil_prefix source (Or.inl (by decide))
  have paths : dendronVaultPath first = dendronVaultPath second := by
    funext vault
    unfold dendronVaultPath
    rw [resolveText_congr comparison.firstLinkless comparison.secondLinkless]
  unfold configuredVaults
  rw [← included, comparison.plainContent source (by decide) (Or.inl (by decide)), paths]

/-! ## What the walk leaves out -/

/-- The trees agree on the source files below the roots that the walk overlooks. -/
def OverlookedAlike (roots : List RelPath) (first second : FileTree) : Prop :=
  ∀ path, Searched roots path → isSourceFile path = true → isOverlooked path = true →
    (includeAdapterFile first [] path = true ∨ includeAdapterFile second [] path = true) →
    contentAt? first path = contentAt? second path

/-- What an adapter looks at and the walk leaves out is alike in two trees: for its detection, and
for its load. -/
structure AdapterSearch where
  adapter : WikiAdapter
  detects : FileTree → FileTree → Prop
  loads : FileTree → FileTree → Prop

def okfSearch : AdapterSearch where
  adapter := okfV02Adapter
  detects _ _ := True
  loads := OverlookedAlike [[]]

/-- The pages are searched where there is a directory `.obsidian`. -/
def obsidianSearch : AdapterSearch where
  adapter := obsidianAdapter
  detects first second := isDirAt first [".obsidian"] = true → OverlookedAlike [[]] first second
  loads := OverlookedAlike [[]]

/-- Only the directories tell a Logseq graph without a configuration. -/
def logseqSearch : AdapterSearch where
  adapter := logseqAdapter
  detects first second := includeAdapterFile first [] ["logseq", "config.edn"] = false →
    (isDirAt first ["pages"] && isDirAt first ["journals"]) =
      (isDirAt second ["pages"] && isDirAt second ["journals"])
  loads := OverlookedAlike [["pages"], ["journals"]]

/-- The vaults are searched, a single one from its own root. -/
def dendronSearch : AdapterSearch where
  adapter := dendronAdapter
  detects _ _ := True
  loads first second := ∀ configured, configuredVaults first = .ok configured →
    (∀ vault ∈ configured, isDirAt first vault = isDirAt second vault) ∧
      OverlookedAlike (if configured = [] then [[]] else configured) first second ∧
      ∀ vault, configured = [vault] → ¬ PlainRoot vault →
        AgreeBelow first second isMarkdownName vault vault

/-- The entry `.foam` counts where no extension hints at Foam. -/
def foamSearch : AdapterSearch where
  adapter := foamAdapter
  detects first second := hasVscodeExtensionHint first "foam" ≠ .ok true →
    (first.at? [".foam"]).isSome = (second.at? [".foam"]).isSome
  loads := OverlookedAlike [[]]

def quartzSearch : AdapterSearch where
  adapter := quartzAdapter
  detects _ _ := True
  loads first second := isDirAt first ["content"] = isDirAt second ["content"] ∧
    OverlookedAlike [if isDirAt first ["content"] then ["content"] else []] first second

def llmWikiMarkdownSearch : AdapterSearch where
  adapter := llmWikiMarkdownAdapter
  detects first second := OverlookedAlike (typedDirs first) first second
  loads first second := OverlookedAlike [(llmwikiSourceRoot? first).getD []] first second

def markdownWikiSearch : AdapterSearch where
  adapter := markdownWikiAdapter
  detects := OverlookedAlike [[]]
  loads := OverlookedAlike [[]]

def searches : List AdapterSearch :=
  [okfSearch, obsidianSearch, logseqSearch, dendronSearch, foamSearch, quartzSearch,
    llmWikiMarkdownSearch, markdownWikiSearch]

def AlikeFor (first second : FileTree) : List AdapterSearch → Prop
  | [] => True
  | search :: rest => search.detects first second ∧
      match search.adapter.detect first with
      | .error _ => True
      | .ok true => search.loads first second
      | .ok false => AlikeFor first second rest

/-- Two trees do not differ in what the adapters tried look at and the walk leaves out. -/
structure SameUnsigned (first second : FileTree) : Prop where
  firstLines : first.SingleLine
  secondLines : second.SingleLine
  root : isDirAt first [] = isDirAt second []
  tried : AlikeFor first second searches

/-- Trees in which the search of an adapter is alike are told and loaded alike. -/
structure AdapterSearch.Sound (search : AdapterSearch) (first second : FileTree) : Prop where
  detect : search.detects first second →
    search.adapter.detect first = search.adapter.detect second
  load : search.detects first second → search.loads first second →
    search.adapter.detect first = .ok true →
      search.adapter.load first = search.adapter.load second

omit [Unicode] [Interpreter] [Documents] in
theorem loadWith_congr {listed : List AdapterSearch}
    (sound : ∀ search ∈ listed, search.Sound first second)
    (alike : AlikeFor first second listed) :
    loadWith first (listed.map AdapterSearch.adapter) =
      loadWith second (listed.map AdapterSearch.adapter) := by
  induction listed with
  | nil => rfl
  | cons search rest inductionHypothesis =>
      obtain ⟨detects, tried⟩ := alike
      have here := sound search List.mem_cons_self
      rw [List.map_cons, loadWith, loadWith, ← here.detect detects]
      cases found : search.adapter.detect first with
      | error error => rfl
      | ok recognized =>
          rw [found] at tried
          cases recognized with
          | false =>
              exact inductionHypothesis
                (fun other otherIn => sound other (List.mem_cons_of_mem _ otherIn)) tried
          | true =>
              rw [here.load detects tried found]
              simp only [bind, Except.bind, if_true]

omit [Interpreter] [Documents] in
theorem plain_llmwikiSourceRoot (tree : FileTree) :
    PlainRoot ((llmwikiSourceRoot? tree).getD []) := by
  unfold llmwikiSourceRoot?
  cases named : llmwikiSourceRootNames.find? fun name => isLlmwikiMarkdownRoot tree true [name] with
  | some name =>
      have plain : ∀ name ∈ llmwikiSourceRootNames, PlainRoot [name] := by decide
      exact plain name (List.mem_of_find?_eq_some named)
  | none =>
      have plain : PlainRoot [] := by decide
      cases isLlmwikiMarkdownRoot tree false [] <;> exact plain

section Adapters

variable (comparison : Comparison roots first second)

include comparison

theorem okf_detect : okfV02Adapter.detect first = okfV02Adapter.detect second := by
  have markdown : isMarkdownName ["index.md"] = true := by decide
  have source : isSourceFile ["index.md"] = true := by
    simp only [isSourceFile, markdown, Bool.true_or]
  have index : ∀ {tree : FileTree}, tree.Linkless → isOkfV02Root (tree.at? ["index.md"]) =
      isOkfV02Root ((contentAt? tree ["index.md"]).map (Node.file ⟨0, 0, 0, 0⟩)) := by
    intro tree linkless
    unfold contentAt?
    cases found : tree.at? ["index.md"] with
    | none => rfl
    | some node =>
        rw [Option.bind_some, (linkless.at? found).resolve]
        have plain := linkless.at? found [] node rfl
        cases node <;> rfl
  change isOkfV02Root (first.at? ["index.md"]) = isOkfV02Root (second.at? ["index.md"])
  rw [index comparison.firstLinkless, index comparison.secondLinkless,
    comparison.plainContent source (by decide) (Or.inl (by decide))]

theorem okf_load (searched : Searched roots []) :
    okfV02Adapter.load first = okfV02Adapter.load second := by
  simp only [okfV02Adapter]
  rw [comparison.markdownFiles (by decide) List.nil_prefix searched, comparison.rootEdges]

theorem obsidian_detect (hidden : isDirAt first [".obsidian"] = isDirAt second [".obsidian"])
    (searched : isDirAt first [".obsidian"] = true → detectMarkdown first = detectMarkdown second) :
    obsidianAdapter.detect first = obsidianAdapter.detect second := by
  unfold obsidianAdapter
  dsimp only
  rw [includeAdapterDir_eq comparison.firstLinkless, includeAdapterDir_eq comparison.secondLinkless,
    ← hidden]
  cases present : isDirAt first [".obsidian"] with
  | false => rfl
  | true => rw [searched present]

theorem logseq_detect (directories : logseqSearch.detects first second) :
    logseqAdapter.detect first = logseqAdapter.detect second := by
  have source : isSourceFile ["logseq", "config.edn"] = true := by
    simp [isSourceFile, signatureRelativeFilenames]
  have included := comparison.included (by decide) List.nil_prefix source (Or.inl (by decide))
  simp only [logseqAdapter, ← included, includeAdapterDir_eq comparison.firstLinkless,
    includeAdapterDir_eq comparison.secondLinkless]
  cases read : includeAdapterFile first [] ["logseq", "config.edn"] with
  | true => rfl
  | false => rw [directories read]

theorem logseq_load (searched : ∀ root ∈ ([["pages"], ["journals"]] : List RelPath),
    Searched roots root) : logseqAdapter.load first = logseqAdapter.load second := by
  have scanned : ∀ {tree : FileTree}, tree.Linkless → ∀ candidates : List RelPath,
      ((candidates.filter (includeAdapterDir tree [])).flatMap fun scanRoot =>
        adapterFiles tree isPageFile scanRoot []) =
      candidates.flatMap fun scanRoot => adapterFiles tree isPageFile scanRoot [] := by
    intro tree linkless candidates
    induction candidates with
    | nil => rfl
    | cons scanRoot rest inductionHypothesis =>
        rw [List.filter_cons, List.flatMap_cons, ← inductionHypothesis]
        cases found : includeAdapterDir tree [] scanRoot with
        | true => rfl
        | false =>
            rw [includeAdapterDir_eq linkless] at found
            simp [adapterFiles_of_not_dir linkless found]
  have files : ∀ candidates : List RelPath, (∀ root ∈ candidates, Searched roots root) →
      ((candidates.filter (includeAdapterDir first [])).flatMap fun scanRoot =>
        adapterFiles first isPageFile scanRoot []) =
      (candidates.filter (includeAdapterDir second [])).flatMap fun scanRoot =>
        adapterFiles second isPageFile scanRoot [] := by
    intro candidates searched
    rw [scanned comparison.firstLinkless, scanned comparison.secondLinkless, List.flatMap_def,
      List.flatMap_def]
    congr 1
    exact List.map_congr_left fun scanRoot rootIn =>
      comparison.files (fun path page => by simp [isSourceFile, page]) (by decide) List.nil_prefix
        (searched scanRoot rootIn)
  simp only [logseqAdapter]
  rw [files _ searched, comparison.rootEdges]

theorem dendron_detect : dendronAdapter.detect first = dendronAdapter.detect second := by
  have source : isSourceFile ["dendron.yml"] = true := by
    simp [isSourceFile, signatureFilenames, RelPath.name, RelPath.nameIn]
  simp only [dendronAdapter]
  rw [comparison.included (by decide) List.nil_prefix source (Or.inl (by decide))]

theorem foam_detect (entries : foamSearch.detects first second) :
    foamAdapter.detect first = foamAdapter.detect second := by
  simp only [foamAdapter]
  rw [← comparison.vscodeHint]
  by_cases hinted : hasVscodeExtensionHint first "foam" = .ok true
  · simp only [hinted, ite_self]
  · rw [includeAdapterPath_congr comparison.firstLinkless comparison.secondLinkless
      (entries hinted)]

theorem quartz_detect : quartzAdapter.detect first = quartzAdapter.detect second := by
  have source : ∀ name ∈ quartzConfigNames, isSourceFile [name] = true := by
    intro name nameIn
    have configured : ∀ name ∈ quartzConfigNames, name ∈ signatureFilenames := by decide
    simp [isSourceFile, RelPath.name, RelPath.nameIn, configured name nameIn]
  simp only [quartzAdapter]
  congr 1
  rw [Bool.eq_iff_iff, List.any_eq_true, List.any_eq_true]
  refine exists_congr fun name => and_congr_right fun nameIn => ?_
  have unnamed : ∀ name ∈ quartzConfigNames, isOverlooked [name] = false := by decide
  rw [comparison.included (by decide) List.nil_prefix (source name nameIn)
    (Or.inl (unnamed name nameIn))]

theorem quartz_load (content : isDirAt first ["content"] = isDirAt second ["content"])
    (searched : Searched roots (if isDirAt first ["content"] then ["content"] else [])) :
    quartzAdapter.load first = quartzAdapter.load second := by
  simp only [quartzAdapter]
  rw [includeAdapterDir_eq comparison.firstLinkless, includeAdapterDir_eq comparison.secondLinkless,
    ← content]
  have loaded : ∀ sourceRoot : RelPath, PlainRoot sourceRoot → Searched roots sourceRoot →
      parseGenericPages first sourceRoot = parseGenericPages second sourceRoot ∧
        loadSidecarGraphEdges first sourceRoot [sourceRoot] =
          loadSidecarGraphEdges second sourceRoot [sourceRoot] ∧
        loadSidecarGraphEdges first [] [sourceRoot] =
          loadSidecarGraphEdges second [] [sourceRoot] := by
    intro sourceRoot plain searched
    have edges : ∀ root ∈ [sourceRoot], Searched roots root := fun root rootIn =>
      (List.mem_singleton.mp rootIn) ▸ searched
    refine ⟨comparison.genericPages plain searched, comparison.sidecarEdges plain ?_
      (Or.inr (searched.below (List.prefix_append _ _)))
      (fun root rootIn => Or.inr ((edges root rootIn).below (List.prefix_append _ _))),
      comparison.searchedEdges edges⟩
    intro root rootIn
    exact (List.mem_singleton.mp rootIn) ▸ List.prefix_rfl
  cases found : isDirAt first ["content"] with
  | false =>
      rw [found] at searched
      obtain ⟨pages, own, edges⟩ := loaded [] (by decide) searched
      simp only [Bool.false_eq_true, if_false, pages, own]
  | true =>
      rw [found] at searched
      obtain ⟨pages, own, edges⟩ := loaded ["content"] (by decide) searched
      simp only [if_true, pages, own, edges]

theorem llmWikiMarkdown_load (sourceRoots : llmwikiSourceRoot? first = llmwikiSourceRoot? second)
    (searched : Searched roots ((llmwikiSourceRoot? first).getD [])) :
    llmWikiMarkdownAdapter.load first = llmWikiMarkdownAdapter.load second := by
  have pages := @Comparison.parsedPages _ _ _ _ _ _ _ comparison {} _ _
    (plain_llmwikiSourceRoot first) List.prefix_rfl searched
  have edges := comparison.searchedEdges fun root rootIn =>
    (List.mem_singleton.mp rootIn).symm ▸ searched
  unfold llmWikiMarkdownAdapter
  dsimp only
  rw [← sourceRoots, pages, edges]

theorem dendron_pages {configured : List RelPath}
    (skipped : ∀ vault, configured = [vault] → ¬ PlainRoot vault →
      AgreeBelow first second isMarkdownName vault vault) {options : PageOptions}
    {scanRoot pageRoot : RelPath} (searched : Searched roots scanRoot)
    (rooted : pageRoot = [] ∨ configured = [scanRoot] ∧ pageRoot = scanRoot) :
    parseMarkdownPages first options scanRoot pageRoot =
      parseMarkdownPages second options scanRoot pageRoot := by
  rcases rooted with rfl | ⟨rfl, rfl⟩
  · exact comparison.parsedPages (by decide) List.nil_prefix searched
  · by_cases plain : PlainRoot pageRoot
    · exact comparison.parsedPages plain List.prefix_rfl searched
    · rw [parseMarkdownPages, parseMarkdownPages, adapterFiles_congr comparison.firstLinkless
        comparison.secondLinkless (skipped pageRoot rfl plain)]

theorem dendron_load (alike : dendronSearch.loads first second)
    (searched : ∀ configured, configuredVaults first = .ok configured →
      ∀ root ∈ if configured = [] then [[]] else configured, Searched roots root) :
    dendronAdapter.load first = dendronAdapter.load second := by
  unfold dendronAdapter
  dsimp only
  rw [dendronSourceRoots_eq, dendronSourceRoots_eq, ← comparison.vaults]
  cases vaults : configuredVaults first with
  | error error => rfl
  | ok configured =>
      obtain ⟨directories, -, skipped⟩ := alike configured vaults
      have reached := searched configured vaults
      have found : configured.filter (isDirAt second) = configured.filter (isDirAt first) :=
        List.filter_congr fun vault vaultIn => (directories vault vaultIn).symm
      rw [Except.map, Except.map, found]
      have kept : (configured.filter (isDirAt first)).Sublist configured := List.filter_sublist
      generalize configured.filter (isDirAt first) = vaultRoots at kept ⊢
      -- The scan roots are vaults, or the root where none is configured.
      have scanned : ∀ root ∈ if vaultRoots = [] then
          (if configured.length = 0 then [[]] else []) else vaultRoots, Searched roots root := by
        intro root rootIn
        apply reached
        split at rootIn
        next =>
          split at rootIn
          next none => rwa [if_pos (List.length_eq_zero_iff.mp none)]
          next => simp at rootIn
        next =>
          have vault := kept.subset rootIn
          rwa [if_neg (List.ne_nil_of_mem vault)]
      simp only [bind, Except.bind]
      rcases Nat.lt_or_ge 1 configured.length with several | single
      · simp only [several, if_true]
        rw [mapM_congr_mem fun scanRoot rootIn =>
            dendron_pages comparison skipped (scanned scanRoot rootIn) (Or.inl rfl),
          comparison.searchedEdges scanned]
      · simp only [Nat.not_lt.mpr single, if_false]
        cases vaultRoots with
        | nil =>
            dsimp only
            rw [mapM_congr_mem fun scanRoot rootIn =>
                dendron_pages comparison skipped (scanned scanRoot rootIn) (Or.inl rfl),
              comparison.searchedEdges scanned]
        | cons only rest =>
            have whole : only :: rest = configured :=
              kept.eq_of_length_le (single.trans (by simp))
            obtain rfl : rest = [] := by
              rw [← whole, List.length_cons] at single
              exact List.length_eq_zero_iff.mp (by omega)
            dsimp only
            rw [comparison.searchedEdges scanned]
            congr 1
            refine mapM_congr_mem fun scanRoot rootIn => ?_
            have here := scanned scanRoot rootIn
            rw [if_neg (List.cons_ne_nil _ _)] at rootIn
            obtain rfl := List.mem_singleton.mp rootIn
            exact dendron_pages comparison skipped here (Or.inr ⟨whole.symm, rfl⟩)

end Adapters

omit [Unicode] [Interpreter] [Documents] [Host] in
theorem searched_self {root : RelPath} : Searched [root] root :=
  ⟨root, List.mem_singleton_self root, List.prefix_rfl⟩

omit [Unicode] [Interpreter] [Documents] [Host] in
theorem searched_of_mem {root : RelPath} (rootIn : root ∈ roots) : Searched roots root :=
  ⟨root, rootIn, List.prefix_rfl⟩

omit [Interpreter] [Documents] in
/-- Trees filed under the same digest have the same sources, but for those the walk overlooks. -/
theorem comparison_of_digest [Hashing] (ideal : Hashing.Ideal) (firstLinkless : first.Linkless)
    (secondLinkless : second.Linkless) (firstLines : first.SingleLine)
    (secondLines : second.SingleLine) (same : treeDigest first = treeDigest second)
    (alike : OverlookedAlike roots first second) : Comparison roots first second where
  firstLinkless := firstLinkless
  secondLinkless := secondLinkless
  sources path source covered read := by
    cases seen : isOverlooked path with
    | true =>
        rcases covered with signed | searched
        · rw [seen] at signed
          exact Bool.noConfusion signed
        · exact alike path searched source seen read
    | false =>
        have signed : isSignedPath path = true := by
          rcases read with read | read
          · exact isSignedPath_of_included firstLinkless source seen read
          · exact isSignedPath_of_included secondLinkless source seen read
        exact contentAt?_of_digest ideal firstLinkless secondLinkless firstLines secondLines same
          signed

/-- Every adapter tells and loads trees alike that are filed under the same digest and agree on
what it looks at and the walk leaves out. -/
theorem search_sound [Hashing] (ideal : Hashing.Ideal) (firstLinkless : first.Linkless)
    (secondLinkless : second.Linkless) (firstLines : first.SingleLine)
    (secondLines : second.SingleLine) (same : treeDigest first = treeDigest second) :
    ∀ search ∈ searches, search.Sound first second := by
  have compare : ∀ roots, OverlookedAlike roots first second → Comparison roots first second :=
    fun roots alike =>
      comparison_of_digest ideal firstLinkless secondLinkless firstLines secondLines same alike
  have signed : Comparison [] first second := compare [] fun path ⟨root, rootIn, _⟩ =>
    absurd rootIn List.not_mem_nil
  have markdown : OverlookedAlike [[]] first second → ∀ name implementation,
      loadMarkdown name implementation first = loadMarkdown name implementation second :=
    fun alike => (compare _ alike).loadedMarkdown searched_self
  have detected : OverlookedAlike [[]] first second → detectMarkdown first = detectMarkdown second :=
    fun alike => (compare _ alike).detectedMarkdown searched_self
  intro search listed
  simp only [searches, List.mem_cons, List.not_mem_nil, or_false] at listed
  obtain rfl | rfl | rfl | rfl | rfl | rfl | rfl | rfl := listed
  · exact ⟨fun _ => okf_detect signed, fun _ alike _ => okf_load (compare _ alike) searched_self⟩
  · have hidden := isDirAt_of_digest ideal firstLinkless secondLinkless firstLines secondLines
      same (show (".obsidian" : Text) ∈ signatureMarkerNames by decide)
    exact ⟨fun alike => obsidian_detect signed hidden fun present => detected (alike present),
      fun _ alike _ => markdown alike _ _⟩
  · exact ⟨logseq_detect signed, fun _ alike _ =>
      logseq_load (compare _ alike) fun _ rootIn => searched_of_mem rootIn⟩
  · refine ⟨fun _ => dendron_detect signed, fun _ alike _ => ?_⟩
    cases vaults : configuredVaults first with
    | error error =>
        exact dendron_load signed alike fun configured found => by simp [vaults] at found
    | ok configured =>
        refine dendron_load (compare _ (alike configured vaults).2.1) alike ?_
        intro others found root rootIn
        obtain rfl := Except.ok.inj (vaults.symm.trans found)
        exact searched_of_mem rootIn
  · exact ⟨foam_detect signed, fun _ alike _ => markdown alike _ _⟩
  · exact ⟨fun _ => quartz_detect signed, fun _ alike _ =>
      quartz_load (compare _ alike.2) alike.1 searched_self⟩
  · have sourceRoots : OverlookedAlike (typedDirs first) first second →
        llmwikiSourceRoot? first = llmwikiSourceRoot? second := fun alike =>
      (compare _ alike).sourceRoot fun _ rootIn => searched_of_mem rootIn
    refine ⟨fun alike => ?_, fun typed alike _ =>
      llmWikiMarkdown_load (compare _ alike) (sourceRoots typed) searched_self⟩
    change Except.ok (llmwikiSourceRoot? first).isSome = Except.ok (llmwikiSourceRoot? second).isSome
    rw [sourceRoots alike]
  · exact ⟨fun alike => congrArg Except.ok (detected alike), fun _ alike _ => markdown alike _ _⟩

end Coverage

section Sample

/-- Numbers written with zeros, each ended by a one. -/
def unaryDigits (codes : List Nat) : Text :=
  codes.flatMap fun code => List.replicate code '0' ++ ['1']

theorem unaryDigits_injective : Function.Injective unaryDigits := by
  intro codes
  induction codes with
  | nil =>
      intro others same
      cases others with
      | nil => rfl
      | cons other rest => simp [unaryDigits] at same
  | cons code rest inductionHypothesis =>
      intro others same
      cases others with
      | nil => simp [unaryDigits] at same
      | cons other others =>
          have unfolded : ∀ code rest, unaryDigits (code :: rest) =
              List.replicate code '0' ++ '1' :: unaryDigits rest := by
            intro code rest
            simp [unaryDigits]
          rw [unfolded, unfolded] at same
          have split := congrArg (List.takeWhile (· ≠ '1')) same
          have before : ∀ count (tail : Text),
              (List.replicate count '0' ++ '1' :: tail).takeWhile (· ≠ '1') =
                List.replicate count '0' := by
            intro count tail
            rw [List.takeWhile_append_of_pos]
            · simp
            · intro digit digitIn
              simp [List.eq_of_mem_replicate digitIn]
          rw [before, before] at split
          obtain rfl : code = other := by simpa using congrArg List.length split
          rw [inductionHypothesis (List.cons.inj (List.append_cancel_left same)).2]

/-- Digests in the digits zero and one, from which their inputs are read back. -/
@[reducible]
def Hashing.unary : Hashing where
  blake2b
    | .text text => '0' :: unaryDigits (text.map Char.toNat)
    | .binary octets => '1' :: unaryDigits (octets.map UInt8.toNat)
  sha256 text := text

attribute [local instance] Unicode.ascii Value.plainInterpreter Documents.vaultLines Host.plain
  Hashing.unary

theorem ideal_unary : Hashing.Ideal where
  blake2b_injective := by
    have chars : Function.Injective Char.toNat := fun first second same => Char.toNat_inj.mp same
    have octets : Function.Injective UInt8.toNat := fun first second same => UInt8.toNat_inj.mp same
    intro content other same
    cases content with
    | text text =>
        cases other with
        | text otherText =>
            have codes := unaryDigits_injective (List.cons.inj same).2
            rw [List.map_injective_iff.mpr chars codes]
        | binary _ => exact absurd (List.cons.inj same).1 (by decide)
    | binary bytes =>
        cases other with
        | text _ => exact absurd (List.cons.inj same).1 (by decide)
        | binary otherBytes =>
            have codes := unaryDigits_injective (List.cons.inj same).2
            rw [List.map_injective_iff.mpr octets codes]
  sha256_injective := fun _ _ same => same
  hexadecimal := by
    have digits : ∀ codes, ∀ digit ∈ unaryDigits codes, digit = '0' ∨ digit = '1' := by
      intro codes digit digitIn
      obtain ⟨code, -, digitIn⟩ := List.mem_flatMap.mp digitIn
      rcases List.mem_append.mp digitIn with zero | one
      · exact Or.inl (List.eq_of_mem_replicate zero)
      · exact Or.inr (List.mem_singleton.mp one)
    have known : ∀ digit, digit = '0' ∨ digit = '1' → digit ∈ ("0123456789abcdef" : Text) := by
      rintro digit (rfl | rfl) <;> decide
    intro content digit digitIn
    cases content with
    | text text =>
        rcases List.mem_cons.mp digitIn with rfl | later
        · decide
        · exact known digit (digits _ digit later)
    | binary bytes =>
        rcases List.mem_cons.mp digitIn with rfl | later
        · decide
        · exact known digit (digits _ digit later)

/-- A Logseq graph with a page, and a run log with this text outside its directories. -/
def graphTree (text : Text) : FileTree :=
  .ofChildren ⟨1, 1, 0, 0⟩
    [(".runtime-logs", .dir ⟨1, 2, 0, 0⟩ [("run.md", FileTree.textFile 3 text)]),
      ("journals", .dir ⟨1, 4, 0, 0⟩ []),
      ("pages", .dir ⟨1, 5, 0, 0⟩ [("a.md", FileTree.textFile 6 "page")])] rfl

theorem Node.at?_dir_cons {stat : Stat} {children : List (Text × Node)} {name : Text}
    {rest : RelPath} {node : Node} (found : (Node.dir stat children).at? (name :: rest) = some node) :
    ∃ child, (name, child) ∈ children ∧ child.at? rest = some node := by
  simp only [Node.at?, Node.child?, Node.resolve_dir, Option.bind_eq_some_iff] at found
  obtain ⟨child, listed, found⟩ := found
  exact ⟨child, Keyed.mem_of_get? listed, found⟩

/-- A page and a page below `.runtime-logs` with this text. -/
def loggedTree (text : Text) : FileTree :=
  .ofChildren ⟨1, 1, 0, 0⟩
    [(".runtime-logs", .dir ⟨1, 2, 0, 0⟩ [("run.md", FileTree.textFile 3 text)]),
      ("a.md", FileTree.textFile 4 "page")] rfl

def loadedPageTexts (tree : FileTree) : Option (List Text) :=
  (loadWiki .auto tree).toOption.map fun loaded => loaded.pages.map WikiPage.text

end Sample

end LlmWikiServe
