import LlmWikiServe.Adapters
import LlmWikiServe.GraphView
import LlmWikiServe.Guidance
import LlmWikiServe.Signature

/-!
# The service

The requests answered from an index: search with query variants, reading a page, the manifest
and the context of a query.
-/

namespace LlmWikiServe

/-- How a service is set up. -/
structure ServiceSettings where
  /-- Empty when the source is named by its title. -/
  explicitSourceId : Text := []
  analyzerProfile : AnalyzerProfile := .english
  contextGraphLimit : Nat := 120
  /-- The capabilities of vector search, a query judge and a graph store, where set up. -/
  optionalCapabilities : List Text := []
  fallbackModes : List FallbackMode := [.literal]

structure SearchRequest (R : Type) where
  query : Text
  limit : Int := 8
  includeDrafts : Bool := false
  mode : SearchMode := .lexical
  fields : Option (List Text) := none
  snippetChars : Option Int := none
  minScore : Option R := none
  excludePageIds : List Text := []
  queryVariants : Value := .none

def SearchRequest.options {R : Type} (request : SearchRequest R)
    (managed : Option (ManagedRanking R)) : SearchOptions R where
  limit := request.limit
  snippetChars := request.snippetChars
  minScore := request.minScore
  excludePageIds := request.excludePageIds
  managed := managed

/-! ## Projected results -/

inductive SearchResultField where
  | pageId
  | title
  | path
  | score
  | snippet
  | role
  | sourceRefs
  | route
  deriving DecidableEq

def SearchResultField.text : SearchResultField → Text
  | .pageId => "page_id"
  | .title => "title"
  | .path => "path"
  | .score => "score"
  | .snippet => "snippet"
  | .role => "role"
  | .sourceRefs => "source_refs"
  | .route => "route"

def searchResultFieldOrder : List SearchResultField :=
  [.pageId, .title, .path, .score, .snippet, .role, .sourceRefs, .route]

/-- A result restricted to some fields, the others having their defaults. -/
structure SearchResultProjection (R : Type) where
  fieldsSet : List SearchResultField
  pageId : Text
  title : Text
  path : Text
  score : R
  snippet : Text
  role : Text
  sourceRefs : List Text
  route : Text

inductive ContextSearchResult (R : Type) where
  | full (result : SearchResult R)
  | projection (projection : SearchResultProjection R)

section Requests

variable [Unicode]

/-- The fields asked for in their order, the page id being always among them. -/
def normalizeSearchResultFields (fields : Option (List Text)) :
    Option (List SearchResultField) :=
  fields.map fun fields =>
    let names := fields.map fun field => Text.lower (Text.strip field)
    searchResultFieldOrder.filter fun field => field = .pageId || field.text ∈ names

variable {R : Type} [Floats R]

def projectSearchResult (fields : Option (List Text)) (result : SearchResult R) :
    ContextSearchResult R :=
  match normalizeSearchResultFields fields with
  | none => .full result
  | some fieldsSet =>
      .projection
        { fieldsSet
          pageId := if .pageId ∈ fieldsSet then result.pageId else []
          title := if .title ∈ fieldsSet then result.title else []
          path := if .path ∈ fieldsSet then result.path else []
          score := if .score ∈ fieldsSet then result.score else Floats.ofRat 0
          snippet := if .snippet ∈ fieldsSet then result.snippet else []
          role := if .role ∈ fieldsSet then result.role.text else []
          sourceRefs := if .sourceRefs ∈ fieldsSet then result.sourceRefs else []
          route := if .route ∈ fieldsSet then result.route else [] }

/-! ## Fused results of query variants -/

omit [Unicode] in
def lexicalVariantRrfK : Nat := 60

/-- What is known of a page after some channels. -/
structure FusedResult (R : Type) where
  score : R
  exemplar : SearchResult R
  primaryRank : Option Nat
  bestRank : Nat

def exactRequiredPageIdsForQuery (corpus : SearchCorpus) (query : Text) : Option (List Text) :=
  (exactRequiredDocIndexes corpus
    (singleExactCompoundQueryToken corpus.analyzerProfile query)).map fun indexes =>
      indexes.filterMap fun index => corpus.pages[index]?.map WikiPage.id

omit [Unicode] in
/-- Count a result at a rank of a channel, `primary` telling the first channel. -/
def fuseResult (primary : Bool) (fused : List (Text × FusedResult R))
    (entry : SearchResult R × Nat) : List (Text × FusedResult R) :=
  let (result, rank) := entry
  let known := Keyed.get? fused result.pageId
  let share := Floats.div (Floats.ofRat 1) (Floats.ofRat ((lexicalVariantRrfK : ℚ) + rank))
  Keyed.set fused result.pageId
    { score := Floats.add ((known.map FusedResult.score).getD (Floats.ofRat 0)) share
      exemplar := if primary then result else (known.map FusedResult.exemplar).getD result
      primaryRank := if primary then some rank else known.bind FusedResult.primaryRank
      bestRank := min ((known.map FusedResult.bestRank).getD rank) rank }

omit [Unicode] in
/-- Order by descending score, then the ranks, the role and the path. -/
def fusedLe (first second : FusedResult R) : Bool :=
  let ranks := fun fused : FusedResult R =>
    [fused.primaryRank.getD 1000000, fused.bestRank, roleRank fused.exemplar.role]
  if Floats.lt second.score first.score then true
  else if Floats.lt first.score second.score then false
  else if ranks first = ranks second then decide (first.exemplar.path ≤ second.exemplar.path)
  else decide (ranks first ≤ ranks second)

variable [Stemming]

def rankedChannelResults (corpus : SearchCorpus) (required : Option (List Text))
    (options : SearchOptions R) (channel : Text) : List (SearchResult R × Nat) :=
  ((searchCorpus corpus .lexical channel options).zipIdx 1).filter fun entry =>
    required.all fun pageIds => entry.1.pageId ∈ pageIds

def fusedLexicalVariantResults (corpus : SearchCorpus) (channels : List Text)
    (options : SearchOptions R) : List (SearchResult R) :=
  let required := exactRequiredPageIdsForQuery corpus (channels.head?.getD [])
  let fused := channels.zipIdx.foldl (fun fused channel =>
    (rankedChannelResults corpus required options channel.1).foldl
      (fuseResult (channel.2 = 0)) fused) []
  (takeLimit options.limit (sortBy fusedLe (fused.map Prod.snd))).map fun fused =>
    { fused.exemplar with score := Floats.round 6 fused.score }

/-! ## Search and read -/

def searchResultObjects (settings : ServiceSettings) (managed : Option (ManagedRanking R))
    (index : WikiIndex) (request : SearchRequest R) :
    Except RequestError (List (SearchResult R)) := do
  let channels ←
    effectiveLexicalQueryChannels request.query request.queryVariants request.mode
  let corpus :=
    buildSearchCorpus settings.analyzerProfile (visiblePages index.pages request.includeDrafts)
  if request.mode = .lexical ∧ 1 < channels.length then
    return fusedLexicalVariantResults corpus channels (request.options managed)
  else return searchCorpus corpus request.mode request.query (request.options managed)

def search (settings : ServiceSettings) (managed : Option (ManagedRanking R))
    (index : WikiIndex) (request : SearchRequest R) :
    Except RequestError (List (ContextSearchResult R)) := do
  let results ← searchResultObjects settings managed index request
  return results.map (projectSearchResult request.fields)

inductive ReadOutcome where
  | found (page : WikiPage)
  /-- `{"found": False, "reason": "not approved for serving"}` -/
  | notApproved
  | missing

omit [Unicode] [Floats R] [Stemming] in
def isNamed (pageId : Text) (page : WikiPage) : Bool := page.id = pageId || page.path = pageId

omit [Floats R] [Stemming] in
/-- The first page with an id or a path, unless it is withheld. -/
def read (index : WikiIndex) (pageId : Text) (includeDrafts : Bool) : ReadOutcome :=
  match index.pages.find? (isNamed pageId) with
  | none => .missing
  | some page =>
      if !includeDrafts && !page.approvedForServing then .notApproved else .found page

end Requests

/-! ## The manifest -/

structure ProjectionMetadata where
  signature : Text
  pageCount : Nat
  approvedPageCount : Nat
  graphNodeCount : Nat
  graphEdgeCount : Nat

structure WikiManifest where
  title : Text
  description : Text
  root : Text
  sourceId : Text
  bundleId : Text
  publicUri : Text
  adapter : Text
  implementation : Text
  sourceProfile : Text
  formatVersion : Text
  pageCount : Nat
  approvedPageCount : Nat
  hotPage : Text
  indexPage : Text
  overviewPage : Text
  projection : ProjectionMetadata
  /-- `raw_origins.public_root_labels` -/
  rawOrigins : List Text
  capabilities : List Text

def baseCapabilities : List Text :=
  ["llmwiki_source_bundle", "llmwiki_context", "llmwiki_search", "llmwiki_read", "llmwiki_graph",
    "llmwiki_graph_neighbors", "llmwiki_source_refs", "mcp-jsonrpc", "mcp-streamable-http",
    "llmwiki_retrieval_v1", "llmwiki_agent_guided_lexical_v1", "llmwiki_search_mode_lexical",
    "llmwiki_search_mode_literal"]

def okfCapabilities : List Text :=
  ["okf-v0.2", "okf_read_only_consumer", "okf_structured_provenance",
    "okf_trust_lifecycle_metadata"]

def firstPathOf (role : PageRole) (pages : List WikiPage) : Text :=
  ((pages.find? fun page => page.role = role).map WikiPage.path).getD []

section Manifest

variable [Unicode]

def sourceIdForIndex (index : WikiIndex) : Text :=
  Text.lower (slug (if index.title = [] then RelPath.name index.root else index.title))

/-- The configured source id or else the one the title gives. -/
def serviceSourceId (settings : ServiceSettings) (index : WikiIndex) : Text :=
  if settings.explicitSourceId = [] then sourceIdForIndex index else settings.explicitSourceId

def approvedPageCount (pages : List WikiPage) : Nat :=
  (pages.filter WikiPage.approvedForServing).length

variable [Interpreter]

omit [Unicode] in
/-- `str(index.metadata.get(key) or "")` -/
def metadataText (index : WikiIndex) (key : Text) : Text :=
  ((index.metadata.getD key).orElse (.str [])).toText

omit [Unicode] in
/-- The directories of raw material next to the pages. -/
def rawOriginsMetadata (tree : FileTree) (index : WikiIndex) : List Text :=
  let sourceRoot := Text.stripBy (· = '/')
    ((index.metadata.getD "source_root").orElse (.str ".")).toText
  let parts := (Text.splitOn '/' sourceRoot).filter fun part => part ≠ [] ∧ part ≠ ("." : Text)
  [("raw" : Text), "sources"].filter fun label => isDirAt tree (parts ++ [label])

omit [Unicode] in
def projectionSignatureForIndex [Hashing] (baseSignature : Text) (index : WikiIndex) : Text :=
  let sourceProfile := metadataText index "source_profile"
  if baseSignature = [] ∨ sourceProfile = [] then baseSignature
  else
    let payload :=
      Text.join "\t" [baseSignature, sourceProfile, metadataText index "format_version"]
    ("sha256:" : Text) ++ Hashing.sha256 payload

omit [Unicode] [Interpreter] in
def sourceBundleId (sourceId projectionSignature : Text) : Text :=
  let algorithm := Text.beforeFirst ':' projectionSignature
  let digest := projectionSignature.drop (algorithm.length + 1)
  if projectionSignature = [] then sourceId
  else if algorithm ≠ [] ∧ digest ≠ [] then
    sourceId ++ ':' :: algorithm ++ ':' :: digest.take 12
  else sourceId ++ ':' :: projectionSignature.take 12

/-- The manifest of an index published for a projection signature; `tree` is what lies below
the root now. -/
def manifest [Hashing] (settings : ServiceSettings) (tree : FileTree)
    (projectionSignatureDigest : Text) (index : WikiIndex) (enableA2aCompat : Bool) :
    WikiManifest :=
  let sourceProfile := metadataText index "source_profile"
  let sourceId := serviceSourceId settings index
  let signature := projectionSignatureForIndex projectionSignatureDigest index
  { title := index.title
    description := index.description
    root := '/' :: Text.join "/" index.root
    sourceId := sourceId
    bundleId := sourceBundleId sourceId signature
    publicUri := ("llmwiki://" : Text) ++ sourceId
    adapter := index.adapter
    implementation := index.implementation
    sourceProfile := sourceProfile
    formatVersion := metadataText index "format_version"
    pageCount := index.pages.length
    approvedPageCount := approvedPageCount index.pages
    hotPage := firstPathOf .hot index.pages
    indexPage := firstPathOf .index index.pages
    overviewPage := firstPathOf .overview index.pages
    projection :=
      { signature
        pageCount := index.pages.length
        approvedPageCount := approvedPageCount index.pages
        graphNodeCount := index.nodes.length
        graphEdgeCount := index.edges.length }
    rawOrigins := rawOriginsMetadata tree index
    capabilities := baseCapabilities ++ settings.optionalCapabilities ++
      (if sourceProfile = okfV02Name then okfCapabilities else []) ++
      (if enableA2aCompat then [("a2a-message" : Text)] else []) }

end Manifest

/-! ## The context of a query -/

/-- The graph items a context shows. -/
structure GraphPayload where
  nodes : List GraphNode
  edges : List GraphEdge

def closedGraphPayload (nodes : List GraphNode) (edges : List GraphEdge) (limit : Nat) :
    GraphPayload :=
  let limitedNodes := nodes.take limit
  { nodes := limitedNodes
    edges := (edgesBetween (limitedNodes.map GraphNode.id) edges).take limit }

structure ContextPack (R : Type) where
  query : Text
  wikiTitle : Text
  description : Text
  adapter : Text
  implementation : Text
  pageCount : Nat
  approvedPageCount : Nat
  answerable : Bool
  orientation : List (ContextSearchResult R)
  evidence : List (ContextSearchResult R)
  limitations : List Text
  graph : GraphPayload
  retrievalGuidance : RetrievalGuidance

section Context

variable [Unicode] {R : Type} [Floats R] [Stemming]

omit [Stemming] [Floats R] in
def graphView (index : WikiIndex) (includeDrafts : Bool) : GraphView :=
  if includeDrafts then GraphView.build index.nodes index.edges else approvedGraphView index

omit [Stemming] [Floats R] in
def contextLimitations (pages : List WikiPage) (includeDrafts answerable : Bool) : List Text :=
  let withheld := (pages.filter fun page => !page.approvedForServing).length
  (if answerable then [] else [("No matching approved LLMWiki page was found." : Text)]) ++
    if includeDrafts || withheld = 0 then []
    else [Text.ofNat withheld ++ (" draft or unapproved page(s) were withheld." : Text)]

/-- The context of a query, managed context being off. -/
def context (settings : ServiceSettings) (index : WikiIndex) (request : SearchRequest R) :
    Except RequestError (ContextPack R) := do
  let evidence ← search settings none index request
  let orientation :=
    (contextOrientation (visiblePages index.pages request.includeDrafts)
      request.snippetChars).map (projectSearchResult request.fields)
  let retrievalGuidance ←
    buildRetrievalGuidance index.adapter index.pages request.query request.includeDrafts
      settings.fallbackModes
  return {
    query := request.query
    wikiTitle := index.title
    description := index.description
    adapter := index.adapter
    implementation := index.implementation
    pageCount := index.pages.length
    approvedPageCount := approvedPageCount index.pages
    answerable := !evidence.isEmpty
    orientation
    evidence
    limitations := contextLimitations index.pages request.includeDrafts (!evidence.isEmpty)
    graph :=
      let view := graphView index request.includeDrafts
      closedGraphPayload view.nodes view.edges settings.contextGraphLimit
    retrievalGuidance }

end Context

end LlmWikiServe
