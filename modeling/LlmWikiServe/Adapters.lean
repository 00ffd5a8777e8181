import LlmWikiServe.Foundation.Keyed
import LlmWikiServe.Okf

/-!
# Adapters

The readers of the supported wiki layouts, tried in order: each looks at marker files and
directories below the root, and the first that recognizes the root loads its pages.
-/

namespace LlmWikiServe

/-- The file system around the root. -/
class Host where
  /-- The parts of the resolved root. -/
  rootParts : List Text
  /-- Where the symbolic link at a path outside of the root leads, if there is one. -/
  linkAt : List Text → Option (List Text)

/-- A root without symbolic links around it. -/
@[reducible]
def Host.plain : Host where
  rootParts := ["srv", "wiki"]
  linkAt _ := none

def llmwikiTypedDirs : List Text :=
  ["concepts", "entities", "sources", "queries", "comparisons", "synthesis", "syntheses",
    "projects", "categories", "questions"]

def llmwikiHubFiles : List Text :=
  ["index.md", "overview.md", "hot.md", "critical_facts.md", "quickstart.md"]

def llmwikiSourceRootNames : List Text := ["wiki", "openwiki"]

def ignoredAdapterParts : List Text :=
  [".git", ".obsidian", ".foam", "node_modules", ".venv", "__pycache__", "dist", "build"]

def ignoredHubRootNames : List Text := ignoredAdapterParts ++ [(".vscode" : Text)]

inductive SourceProfile where
  | auto
  | okfV02
  deriving DecidableEq

section Paths

variable [Host]

/-- `root.name` -/
def rootName : Text := RelPath.name Host.rootParts

def rootText : Text := '/' :: Text.join "/" Host.rootParts

def belowRoot? (location : List Text) : Option RelPath :=
  if Host.rootParts.isPrefixOf location then some (location.drop Host.rootParts.length) else none

/-- One step of resolving a path whose parts so far are resolved. -/
def resolvePart (tree : FileTree) (here : List Text) (part : Text) : List Text :=
  if part = (".." : Text) then here.dropLast
  else
    let next := here ++ [part]
    match belowRoot? next with
    | none => (Host.linkAt next).getD next
    | some path =>
        match tree.at? path with
        | some (.link location _) => location
        | some (.dangling location) => location
        | _ => next

/-- `(root / path).resolve()` -/
def resolveBelow (tree : FileTree) (path : RelPath) : List Text :=
  path.foldl (resolvePart tree) Host.rootParts

/-- `(root / text).resolve()` -/
def resolveText (tree : FileTree) (text : Text) : List Text :=
  let parts := (Text.splitOn '/' text).filter fun part => part ≠ [] ∧ part ≠ ("." : Text)
  if Text.startsWith text "/" then parts.foldl (resolvePart tree) []
  else resolveBelow tree parts

/-! ## Files an adapter reads -/

def includeAdapterPath (tree : FileTree) (root path : RelPath) : Bool :=
  match tree.at? path with
  | none => false
  | some node =>
      node.exists_ && !node.isSymlink &&
        (resolveBelow tree root).isPrefixOf (resolveBelow tree path)

def isDirAt (tree : FileTree) (path : RelPath) : Bool := (tree.at? path).any Node.isDir

def isFileAt (tree : FileTree) (path : RelPath) : Bool := (tree.at? path).any Node.isFile

def includeAdapterDir (tree : FileTree) (root path : RelPath) : Bool :=
  includeAdapterPath tree root path && isDirAt tree path

def pageSuffixes : List Text := [".md", ".org"]

def includeAdapterFile [Unicode] (tree : FileTree) (root path : RelPath) : Bool :=
  let relativeParts := path.drop root.length
  if !includeAdapterPath tree root path || !isFileAt tree path then false
  else if relativeParts.any (· ∈ ignoredAdapterParts) then false
  else !((".vscode" : Text) ∈ relativeParts &&
    Text.lower (RelPath.suffix path.name) ∈ pageSuffixes)

end Paths

/-! ## Listings -/

namespace Node

mutual

/-- All entries below a directory in the order of their paths, links not being followed. -/
def descendants (path : RelPath) : Node → List (RelPath × Node)
  | dir _ children => descendantsOf path children
  | _ => []
termination_by structural node => node

def descendantsOf (path : RelPath) : Children → List (RelPath × Node)
  | [] => []
  | (name, node) :: rest =>
      (path ++ [name], node) :: descendants (path ++ [name]) node ++ descendantsOf path rest
termination_by structural children => children

end

end Node

/-- `sorted(root.rglob("*"))` -/
def rglob (tree : FileTree) (root : RelPath) : List (RelPath × Node) :=
  match (tree.at? root).bind Node.resolve with
  | some node => node.descendants root
  | none => []

/-- `root.iterdir()` -/
def iterdir (tree : FileTree) (root : RelPath) : Children :=
  match (tree.at? root).bind Node.resolve with
  | some (.dir _ children) => children
  | _ => []

def contentAt? (tree : FileTree) (path : RelPath) : Option Content :=
  match (tree.at? path).bind Node.resolve with
  | some (.file _ content) => some content
  | _ => none

/-- `path.match("*.md")` -/
def isMarkdownName (path : RelPath) : Bool := Text.endsWith path.name ".md"

section Adapters

variable [Unicode] [Interpreter] [Documents] [Host]

omit [Interpreter] [Documents] in
/-- The files below a directory that an adapter reads, with their paths below the page root. -/
def adapterFiles (tree : FileTree) (accepts : RelPath → Bool) (scanRoot pageRoot : RelPath) :
    List (RelPath × Content) :=
  (rglob tree scanRoot).filterMap fun entry =>
    if accepts entry.1 && includeAdapterFile tree pageRoot entry.1 then
      (contentAt? tree entry.1).map fun content => (entry.1.drop pageRoot.length, content)
    else none

def parseMarkdownPages (tree : FileTree) (options : PageOptions) (scanRoot pageRoot : RelPath) :
    Except LoadError (List WikiPage) :=
  (adapterFiles tree isMarkdownName scanRoot pageRoot).mapM fun file =>
    parsePage options file.1 file.2

omit [Unicode] [Documents] [Host] in
/-- Title and description, taken from the first index page or else the first overview page. -/
def markdownMetadata (rootName : Text) (pages : List WikiPage) : Text × Text :=
  let selected := (pages.find? fun page => page.role = .index).or
    (pages.find? fun page => page.role = .overview)
  let frontmatter := (selected.map WikiPage.frontmatter).getD []
  let fallback := (selected.map WikiPage.title).getD rootName
  ((Value.orElse (frontmatter.getD "wiki_title") (.str fallback)).toText,
    (Value.orElse (frontmatter.getD "description") (.str [])).toText)

/-! ## LLMWiki source roots -/

/-- What tells an LLMWiki root: its marker, the names of its Markdown files and whether its
typed directories hold pages. -/
structure LlmwikiSignals where
  marker : Bool
  markdownNames : List Text
  hasTypedPages : Bool

omit [Interpreter] [Documents] in
def llmwikiRootSignals (tree : FileTree) (root : RelPath) : LlmwikiSignals :=
  let markdown := (iterdir tree root).filter fun entry =>
    Text.lower (RelPath.suffix entry.1) = (".md" : Text) &&
      includeAdapterFile tree root (root ++ [entry.1])
  let typedDirs := llmwikiTypedDirs.filter fun name => includeAdapterDir tree root (root ++ [name])
  { marker := includeAdapterFile tree root (root ++ [(".wiki-compiler.json" : Text)])
    markdownNames := markdown.map fun entry => Text.casefold entry.1
    hasTypedPages := typedDirs.any fun name =>
      (rglob tree (root ++ [name])).any fun entry =>
        isMarkdownName entry.1 && includeAdapterFile tree root entry.1 }

omit [Interpreter] [Documents] [Host] in
def isNamedLlmwikiSourceRoot (name : Text) (markdownNames : List Text) : Bool :=
  Text.casefold name ∈ llmwikiSourceRootNames && ("quickstart.md" : Text) ∈ markdownNames

/-- `root.is_dir() and not root.is_symlink()` -/
def isPlainDir (tree : FileTree) (root : RelPath) : Bool :=
  (tree.at? root).any fun node => node.isDir && !node.isSymlink

omit [Interpreter] [Documents] in
def isLlmwikiMarkdownRoot (tree : FileTree) (nested : Bool) (root : RelPath) : Bool :=
  if !isPlainDir tree root then false
  else
    let signals := llmwikiRootSignals tree root
    let hasHub := signals.markdownNames.any (· ∈ llmwikiHubFiles)
    if signals.marker then true
    else if nested then hasHub || signals.hasTypedPages
    else if isNamedLlmwikiSourceRoot (RelPath.nameIn rootName root) signals.markdownNames then true
    else
      (("hot.md" : Text) ∈ signals.markdownNames &&
          (("index.md" : Text) ∈ signals.markdownNames ||
            ("overview.md" : Text) ∈ signals.markdownNames)) ||
        (hasHub && signals.hasTypedPages)

omit [Interpreter] [Documents] in
def isProbableNestedLlmwikiSourceRoot (tree : FileTree) (root : RelPath) : Bool :=
  if !isPlainDir tree root then false
  else
    let signals := llmwikiRootSignals tree root
    if signals.marker || signals.hasTypedPages then true
    else if isNamedLlmwikiSourceRoot (RelPath.nameIn rootName root) signals.markdownNames then true
    else 2 ≤ (llmwikiHubFiles.filter (· ∈ signals.markdownNames)).length

omit [Interpreter] [Documents] in
def llmwikiSourceRoot? (tree : FileTree) : Option RelPath :=
  match llmwikiSourceRootNames.find? fun name => isLlmwikiMarkdownRoot tree true [name] with
  | some name => some [name]
  | none => if isLlmwikiMarkdownRoot tree false [] then some [] else none

omit [Interpreter] [Documents] in
/-- The directories whose own hub files count as hubs, as paths below `root`. -/
def llmwikiHubSourceRoots (tree : FileTree) (root : RelPath) : List RelPath :=
  if !isPlainDir tree root then []
  else
    let preferred := llmwikiSourceRootNames.filter fun name =>
      isLlmwikiMarkdownRoot tree true (root ++ [name])
    let children := (iterdir tree root).filter fun entry =>
      entry.1 ∉ llmwikiSourceRootNames && entry.1 ∉ ignoredHubRootNames &&
        includeAdapterDir tree root (root ++ [entry.1]) &&
        isProbableNestedLlmwikiSourceRoot tree (root ++ [entry.1])
    preferred.map (fun name => [name]) ++ children.map fun entry => [entry.1]

/-! ## Sidecar graphs -/

omit [Unicode] [Interpreter] [Host] in
/-- `json.loads(path.read_text(encoding="utf-8"))`, `none` when the text is no JSON. -/
def loadJson (content : Content) : Except LoadError (Option Value) := do
  let raw ← content.readText
  match Documents.jsonLoads raw with
  | .ok value => return some value
  | .error .syntax_ => return none
  | .error (.raised message) => .error (.document message)

def graphJsonPath : RelPath := ["graph", "graph.json"]

omit [Interpreter] [Documents] in
def graphJsonCandidates (tree : FileTree) (root sourceRoot : RelPath) : List RelPath :=
  [root ++ graphJsonPath, sourceRoot ++ graphJsonPath].filter (includeAdapterFile tree root)

/-- The objects among the edges of a graph file, whose keys are texts in JSON. -/
def graphEdges (data : Value) : List Metadata :=
  let candidates : List Value :=
    match data with
    | .sequence .list items => items
    | .dict entries =>
        match getKey entries "edges" with
        | .sequence .list items => items
        | _ => []
    | _ => []
  candidates.filterMap fun candidate =>
    match candidate with
    | .dict entries => stringKeys? entries
    | _ => none

def graphEdgeConfidence (edge : Metadata) : Option Value :=
  match edge.getD "confidence" with
  | .int value => some (.int value)
  | .float value => some (.float value)
  | _ => none

omit [Unicode] [Interpreter] [Host] in
def sidecarFacts (tree : FileTree) (root path : RelPath) :
    Except LoadError (List SidecarGraphEdgeFact) :=
  match contentAt? tree path with
  | none => .ok []
  | some content => do
      let data ← loadJson content
      return ((data.map graphEdges).getD []).map fun edge =>
        { data := edge
          path := RelPath.asPosix (path.drop root.length)
          confidence := graphEdgeConfidence edge }

omit [Interpreter] in
/-- The edges of the graph files of some source roots, each file being read once. -/
def loadSidecarGraphEdges (tree : FileTree) (root : RelPath) (sourceRoots : List RelPath) :
    Except LoadError (List SidecarGraphEdgeFact) := do
  let candidates := sourceRoots.flatMap (graphJsonCandidates tree root)
  let facts ← (Keyed.firstWins (resolveBelow tree) candidates).mapM (sidecarFacts tree root)
  return facts.flatten

omit [Unicode] [Interpreter] [Documents] [Host] in
def iterated (value : Value) : Except LoadError (List Value) :=
  match value with
  | .sequence _ items => .ok items
  | .dict entries => .ok (entries.map Prod.fst)
  | .str text => .ok (text.map fun char => .str [char])
  | _ => .error (.notIterable value)

def hasVscodeExtensionHint (tree : FileTree) (needle : Text) : Except LoadError Bool :=
  let extensions : RelPath := [".vscode", "extensions.json"]
  if !includeAdapterFile tree [] extensions then .ok false
  else
    match contentAt? tree extensions with
    | none => .ok false
    | some content => do
        match ← loadJson content with
        | some (.dict entries) =>
            match (stringKeys? entries).bind (Keyed.get? · "recommendations") with
            | none => return false
            | some recommendations => do
                let values ← iterated recommendations
                return values.any fun value =>
                  Text.contains (Text.lower needle) (Text.lower value.toText)
        | _ => return false

/-! ## Dendron vaults -/

omit [Unicode] [Interpreter] [Documents] [Host] in
def listItems : Value → List Value
  | .sequence .list items => items
  | _ => []

omit [Unicode] [Interpreter] [Documents] [Host] in
def dendronVaultEntries (data : List (Value × Value)) : List Value :=
  let workspace : List (Value × Value) :=
    match getKey data "workspace" with
    | .dict entries => entries
    | _ => []
  listItems (getKey workspace "vaults") ++ listItems (getKey data "vaults")

omit [Unicode] [Interpreter] [Documents] in
/-- Where a vault lies below the root, if it does. -/
def dendronVaultPath (tree : FileTree) (vault : Value) : Except LoadError (Option RelPath) :=
  match vault with
  | .dict entries =>
      match getKey entries "fsPath" with
      | .str fsPath =>
          if Text.strip fsPath = [] then .ok none
          else if '\x00' ∈ fsPath then .error (.document "embedded null character in path")
          else .ok (belowRoot? (resolveText tree (Text.replaceChar '\\' '/' fsPath)))
      | _ => .ok none
  | _ => .ok none

/-- The vaults that are directories, and the number of vaults configured below the root. -/
def dendronSourceRoots (tree : FileTree) : Except LoadError (List RelPath × Nat) :=
  if !includeAdapterFile tree [] ["dendron.yml"] then .ok ([], 0)
  else
    match contentAt? tree ["dendron.yml"] with
    | none => .ok ([], 0)
    | some content => do
        let raw ← content.readText
        match Documents.safeLoad raw with
        | .error .syntax_ => return ([], 0)
        | .error (.raised message) => .error (.document message)
        | .ok (.dict data) => do
            let vaults ← (dendronVaultEntries data).mapM (dendronVaultPath tree)
            let configured := Keyed.firstWins id (vaults.filterMap id)
            return (configured.filter (isDirAt tree), configured.length)
        | .ok _ => return ([], 0)

/-! ## The adapters -/

structure WikiAdapter where
  name : Text
  implementation : Text
  detect : FileTree → Except LoadError Bool
  load : FileTree → Except LoadError LoadedWiki

omit [Unicode] [Interpreter] [Documents] in
def missingWikiRootError : WikiRootError where
  message := ("LLMWiki root does not exist or is not a directory: " : Text) ++ rootText
  code := "wiki_root_missing"
  safeMessage := "Configured wiki root does not exist or is not a directory."
  statusCode := 404

omit [Unicode] [Interpreter] [Documents] in
def unsupportedWikiRootError : WikiRootError where
  message := ("No supported wiki files were found under: " : Text) ++ rootText
  code := "wiki_root_unsupported"
  safeMessage := "No supported wiki files were found under the configured root."
  statusCode := 422

omit [Unicode] [Interpreter] [Documents] in
def invalidOkfV02RootError (reason : Text) : WikiRootError where
  message := ("Invalid OKF v0.2 bundle under: " : Text) ++ rootText ++
    (if reason = [] then [] else (": " : Text) ++ reason)
  code := "okf_v0_2_invalid"
  safeMessage := "Configured root is not a valid OKF v0.2 bundle."
  statusCode := 422

def loadedWiki (adapter implementation : Text) (pages : List WikiPage)
    (title description : Text) (sourceRoot : RelPath) (more : Metadata)
    (sidecarGraphEdges : List SidecarGraphEdgeFact) : LoadedWiki where
  root := Host.rootParts
  pages := pages
  title := title
  description := description
  adapter := adapter
  implementation := implementation
  metadata := ("source_root", .str (RelPath.asPosix sourceRoot)) :: more
  sidecarGraphEdges := sidecarGraphEdges

omit [Unicode] [Documents] in
def loadedFrom (adapter implementation : Text) (sourceRoot titleRoot : RelPath)
    (pages : List WikiPage) (more : Metadata) (sidecarGraphEdges : List SidecarGraphEdgeFact) :
    LoadedWiki :=
  let metadata := markdownMetadata (RelPath.nameIn rootName titleRoot) pages
  loadedWiki adapter implementation pages metadata.1 metadata.2 sourceRoot more sidecarGraphEdges

omit [Unicode] [Documents] in
@[simp]
theorem loadedFrom_pages (adapter implementation : Text) (sourceRoot titleRoot : RelPath)
    (pages : List WikiPage) (more : Metadata) (edges : List SidecarGraphEdgeFact) :
    (loadedFrom adapter implementation sourceRoot titleRoot pages more edges).pages = pages := rfl

def okfV02Name : Text := "okf-v0.2"

def okfV02Implementation : Text := "Open Knowledge Format v0.2"

def okfV02Adapter : WikiAdapter where
  name := okfV02Name
  implementation := okfV02Implementation
  detect tree := isOkfV02Root (tree.at? ["index.md"])
  load tree := do
    let pages ←
      match parseOkfV02Pages (adapterFiles tree isMarkdownName [] []) with
      | .error (.okf message) => .error (.wikiRoot (invalidOkfV02RootError message))
      | parsed => parsed
    let edges ← loadSidecarGraphEdges tree [] [[]]
    return loadedFrom okfV02Name okfV02Implementation [] [] pages
      [("source_profile", .str okfV02Name), ("format_version", .str okfV02Version)] edges

omit [Interpreter] [Documents] in
def detectMarkdown (tree : FileTree) : Bool :=
  (rglob tree []).any fun entry => isMarkdownName entry.1 && includeAdapterFile tree [] entry.1

/-- The pages of a plain Markdown root, whose nested wiki roots have hubs of their own. -/
def parseGenericPages (tree : FileTree) (root : RelPath) : Except LoadError (List WikiPage) :=
  parseMarkdownPages tree { hubRoots := llmwikiHubSourceRoots tree root } root root

def loadMarkdown (name implementation : Text) (tree : FileTree) : Except LoadError LoadedWiki := do
  let pages ← parseGenericPages tree []
  let edges ← loadSidecarGraphEdges tree [] [[]]
  return loadedFrom name implementation [] [] pages [] edges

def obsidianAdapter : WikiAdapter where
  name := "obsidian"
  implementation := "Obsidian vault"
  detect tree := .ok (includeAdapterDir tree [] [".obsidian"] && detectMarkdown tree)
  load := loadMarkdown "obsidian" "Obsidian vault"

/-- `path.suffix.lower() in {".md", ".org"}` -/
def isPageFile (path : RelPath) : Bool := Text.lower (RelPath.suffix path.name) ∈ pageSuffixes

def logseqAdapter : WikiAdapter where
  name := "logseq"
  implementation := "logseq/logseq"
  detect tree := .ok (includeAdapterFile tree [] ["logseq", "config.edn"] ||
    (includeAdapterDir tree [] ["pages"] && includeAdapterDir tree [] ["journals"]))
  load tree := do
    let candidates : List RelPath := [["pages"], ["journals"]]
    let scanRoots := candidates.filter (includeAdapterDir tree [])
    let files := scanRoots.flatMap fun scanRoot => adapterFiles tree isPageFile scanRoot []
    let pages ← files.mapM fun file => parsePage { decodeNamespaceTitle := true } file.1 file.2
    let edges ← loadSidecarGraphEdges tree [] [[]]
    return loadedFrom "logseq" "logseq/logseq" [] [] pages [] edges

def dendronAdapter : WikiAdapter where
  name := "dendron"
  implementation := "dendronhq/dendron"
  detect tree := .ok (includeAdapterFile tree [] ["dendron.yml"])
  load tree := do
    let (sourceRoots, configuredVaultCount) ← dendronSourceRoots tree
    let useWorkspacePaths := 1 < configuredVaultCount
    let sourceRoot :=
      match sourceRoots with
      | [only] => if useWorkspacePaths then [] else only
      | _ => []
    let pathRoot := if useWorkspacePaths then [] else sourceRoot
    let scanRoots :=
      if sourceRoots = [] then (if configuredVaultCount = 0 then [[]] else []) else sourceRoots
    let pages ← scanRoots.mapM fun scanRoot =>
      parseMarkdownPages tree { wikilinkAlias := .targetLast } scanRoot pathRoot
    let edges ← loadSidecarGraphEdges tree [] scanRoots
    let vaultRoots := Text.join "," (sourceRoots.map RelPath.asPosix)
    return loadedFrom "dendron" "dendronhq/dendron" sourceRoot pathRoot pages.flatten
      (if useWorkspacePaths then [("vault_roots", .str vaultRoots)] else []) edges

def foamAdapter : WikiAdapter where
  name := "foam"
  implementation := "foambubble/foam"
  detect tree :=
    if includeAdapterPath tree [] [".foam"] then .ok true
    else hasVscodeExtensionHint tree "foam"
  load := loadMarkdown "foam" "foambubble/foam"

def quartzConfigNames : List Text :=
  ["quartz.config.ts", "quartz.config.js", "quartz.config.yaml", "quartz.config.yml"]

def quartzAdapter : WikiAdapter where
  name := "quartz"
  implementation := "jackyzha0/quartz"
  detect tree := .ok (quartzConfigNames.any fun name => includeAdapterFile tree [] [name])
  load tree := do
    let sourceRoot := if includeAdapterDir tree [] ["content"] then [("content" : Text)] else []
    let pages ← parseGenericPages tree sourceRoot
    -- The plain Markdown load of the content directory reads the sidecar graph there first.
    let _ ← loadSidecarGraphEdges tree sourceRoot [sourceRoot]
    let edges ← loadSidecarGraphEdges tree [] [sourceRoot]
    let source : Value := .str (RelPath.asPosix sourceRoot)
    return {
      loadedFrom "quartz" "jackyzha0/quartz" sourceRoot sourceRoot pages [] edges with
      metadata := [("content_root", source), ("source_root", source)]
      sourceRootReadable := rfl }

def llmWikiMarkdownAdapter : WikiAdapter where
  name := "llmwiki-markdown"
  implementation := "llmwiki-markdown"
  detect tree := .ok (llmwikiSourceRoot? tree).isSome
  load tree := do
    let sourceRoot := (llmwikiSourceRoot? tree).getD []
    let pages ← parseMarkdownPages tree {} sourceRoot sourceRoot
    let edges ← loadSidecarGraphEdges tree [] [sourceRoot]
    return loadedFrom "llmwiki-markdown" "llmwiki-markdown" sourceRoot sourceRoot pages [] edges

def markdownWikiAdapter : WikiAdapter where
  name := "generic-markdown"
  implementation := "generic-markdown"
  detect tree := .ok (detectMarkdown tree)
  load := loadMarkdown "generic-markdown" "generic-markdown"

def adapters : List WikiAdapter :=
  [okfV02Adapter, obsidianAdapter, logseqAdapter, dendronAdapter, foamAdapter, quartzAdapter,
    llmWikiMarkdownAdapter, markdownWikiAdapter]

omit [Unicode] [Interpreter] [Documents] in
def requirePages (loaded : LoadedWiki) : Except LoadError LoadedWiki :=
  if loaded.pages = [] then .error (.wikiRoot unsupportedWikiRootError) else .ok loaded

omit [Unicode] [Interpreter] [Documents] in
def loadWith (tree : FileTree) : List WikiAdapter → Except LoadError LoadedWiki
  | [] => .error (.wikiRoot unsupportedWikiRootError)
  | adapter :: rest => do
      if ← adapter.detect tree then
        let loaded ← adapter.load tree
        requirePages loaded
      else loadWith tree rest

/-- The wiki below a root. -/
def loadWiki (profile : SourceProfile) (tree : FileTree) : Except LoadError LoadedWiki :=
  if !isDirAt tree [] then .error (.wikiRoot missingWikiRootError)
  else
    match profile with
    | .auto => loadWith tree adapters
    | .okfV02 => do
        let loaded ← okfV02Adapter.load tree
        requirePages loaded

end Adapters

end LlmWikiServe
