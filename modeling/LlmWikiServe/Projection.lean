import LlmWikiServe.Foundation.Pattern
import LlmWikiServe.Models

/-!
# Projection of a loaded wiki to a graph

Pages, headings, references, tags, links, OKF data, Dendron hierarchy and sidecar
edges become graph items.  The first node under an id and the first edge under a
triple win; metadata of later edges is merged into it.
-/

namespace LlmWikiServe

/-- Graph items appended by one part of the projection, in order. -/
structure Emission where
  nodes : List GraphNode
  edges : List GraphEdge

namespace Emission

def none : Emission := ⟨[], []⟩

def append (first second : Emission) : Emission :=
  ⟨first.nodes ++ second.nodes, first.edges ++ second.edges⟩

/-- The items of several parts, one part after the other. -/
def concat (parts : List Emission) : Emission :=
  ⟨parts.flatMap Emission.nodes, parts.flatMap Emission.edges⟩

@[simp]
theorem none_nodes : none.nodes = [] := rfl

@[simp]
theorem none_edges : none.edges = [] := rfl

@[simp]
theorem append_nodes (first second : Emission) :
    (first.append second).nodes = first.nodes ++ second.nodes := rfl

@[simp]
theorem append_edges (first second : Emission) :
    (first.append second).edges = first.edges ++ second.edges := rfl

@[simp]
theorem concat_nodes (parts : List Emission) :
    (concat parts).nodes = parts.flatMap Emission.nodes := rfl

@[simp]
theorem concat_edges (parts : List Emission) :
    (concat parts).edges = parts.flatMap Emission.edges := rfl

end Emission

/-! ## Keys and identifiers -/

/-- `[A-Za-z0-9가-힣._-]` -/
def isSlugChar (char : Char) : Bool :=
  Pattern.isLetter char || Pattern.isAsciiDigit char || Pattern.isHangul char ||
    char = '.' || char = '_' || char = '-'

def slug (value : Text) : Text :=
  let slugged := Text.stripBy (· = '-') (Text.collapse isSlugChar '-' (Text.strip value))
  if slugged = [] then "item" else slugged

/-- `[a-z0-9]` -/
def isRelationChar (char : Char) : Bool :=
  ('a' ≤ char && char ≤ 'z') || Pattern.isAsciiDigit char

/-- `[a-z0-9가-힣]` -/
def isKeyChar (char : Char) : Bool := isRelationChar char || Pattern.isHangul char

/-- `page:<id>` -/
def pageNodeId (id : Text) : Text := ("page:" : Text) ++ id

theorem pageNodeId_injective {first second : Text} :
    pageNodeId first = pageNodeId second ↔ first = second := by
  simp [pageNodeId]

/-- `node_id.startswith("page:")` -/
def isPageNodeId (id : Text) : Bool := Text.startsWith id "page:"

@[simp]
theorem isPageNodeId_pageNodeId (id : Text) : isPageNodeId (pageNodeId id) = true := by
  simp [isPageNodeId, pageNodeId, Text.startsWith]

section Keys

variable [Unicode]

def canonicalRelation (value : Text) : Text :=
  let relation := Text.stripBy (· = '_') (Text.collapse isRelationChar '_' (Text.lower value))
  if relation = [] then "related_to" else relation

def normalizeKey (value : Text) : Text :=
  let stem := if Text.endsWith value ".md" then value.dropLast.dropLast.dropLast else value
  (Text.lower stem).filter isKeyChar

/-- `https?://` -/
def externalReference : Pattern :=
  Pattern.all [Pattern.text "http", Pattern.opt (Pattern.char 's'), Pattern.text "://"]

/-- `(?:#\d+|[A-Z][A-Z0-9]+-\d+|GH-\d+)$` -/
def externalIssue : Pattern :=
  let digits := Pattern.plus (.one Unicode.decimal)
  let capital := Pattern.one fun char => 'A' ≤ char && char ≤ 'Z'
  let capitalOrDigit := Pattern.one fun char =>
    ('A' ≤ char && char ≤ 'Z') || Pattern.isAsciiDigit char
  .seq
    (Pattern.any
      [.seq (Pattern.char '#') digits,
        Pattern.all [capital, Pattern.plus capitalOrDigit, Pattern.char '-', digits],
        .seq (Pattern.text "GH-") digits])
    Pattern.textEnd

def externalNodeKind (value : Text) : Text :=
  if (Pattern.matchStart externalReference value).isSome then "external_ref"
  else if (Pattern.matchStart externalIssue value).isSome then "external_issue"
  else "placeholder"

def unresolvedNodeId (value : Text) : Text :=
  let kind : Text :=
    if Text.startsWith (externalNodeKind value) "external" then "external" else "placeholder"
  kind ++ (":" : Text) ++ slug value

theorem unresolvedNodeId_cases (value : Text) :
    unresolvedNodeId value = ("external:" : Text) ++ slug value ∨
      unresolvedNodeId value = ("placeholder:" : Text) ++ slug value := by
  unfold unresolvedNodeId
  split
  · exact Or.inl rfl
  · exact Or.inr rfl

/-! ## Page lookup -/

def lookupKeys (sourceRoot : Text) (page : WikiPage) : List Text :=
  let base := Text.rstripBy (· = '/') sourceRoot ++ ("/" : Text)
  [page.id, page.title, page.path, Text.afterLast '/' page.path] ++
    (if sourceRoot ≠ [] ∧ sourceRoot ≠ ("." : Text) then [base ++ page.id, base ++ page.path]
    else [])

/-- The pages by normalized key, a later page replacing an earlier one. -/
def pageLookup (pages : List WikiPage) (sourceRoot : Text) : List (Text × WikiPage) :=
  pages.foldl
    (fun lookup page =>
      (lookupKeys sourceRoot page).foldl
        (fun current key => Keyed.set current (normalizeKey key) page) lookup)
    []

/-! ## Graph items of one page -/

def OkfSource.refKey (source : OkfSource) : Text :=
  if source.id = [] then source.resource else source.id

def OkfSource.refLabel (source : OkfSource) : Text :=
  if source.title ≠ [] then source.title
  else if source.id ≠ [] then source.id
  else source.resource

variable [Interpreter]

def okfProfile : Text × Value := ("source_profile", .str "okf-v0.2")

/-- The node of a page, which carries the adapter's metadata and its own. -/
def pageNode (loaded : LoadedWiki) (page : WikiPage) : GraphNode where
  id := pageNodeId page.id
  label := page.title
  kind := page.role.text
  path := page.path
  metadata :=
    Keyed.update
      (Keyed.update
        [("adapter", .str loaded.adapter), ("implementation", .str loaded.implementation)]
        loaded.metadata)
      [("source_refs", Value.list (page.sourceRefs.map Value.str)),
        ("review_state", .str page.reviewState.text),
        ("okf", (page.okf.map OkfMetadata.dump).getD (Value.ofMetadata []))]

def projectHeading (page : WikiPage) (heading : Text) : Emission :=
  let headingId : Text := ("heading:" : Text) ++ slug (page.id ++ (":" : Text) ++ heading)
  ⟨[⟨headingId, heading, "heading", page.path, []⟩],
    [⟨pageNodeId page.id, headingId, "contains", []⟩]⟩

def projectOkfType (page : WikiPage) (conceptType : Text) : Emission :=
  let typeId : Text := ("okf_type:" : Text) ++ Text.lower (slug conceptType)
  ⟨[⟨typeId, conceptType, "okf_type", page.path, [okfProfile]⟩],
    [⟨pageNodeId page.id, typeId, "typed_as", [("source", .str "okf.type"), okfProfile]⟩]⟩

def projectOkfResource (page : WikiPage) (resource : Text) : Emission :=
  let resourceId : Text := ("okf_resource:" : Text) ++ slug resource
  ⟨[⟨resourceId, resource, "okf_resource", page.path, [okfProfile]⟩],
    [⟨pageNodeId page.id, resourceId, "describes",
      [("source", .str "okf.resource"), okfProfile]⟩]⟩

def projectOkfMetadata (page : WikiPage) (okf : OkfMetadata) : Emission :=
  (if okf.conceptType = [] then .none else projectOkfType page okf.conceptType).append
    (if okf.resource = [] then .none else projectOkfResource page okf.resource)

def projectOkfSource (page : WikiPage) (source : OkfSource) : Emission :=
  let sourceId : Text := ("source:" : Text) ++ slug source.refKey
  ⟨[⟨sourceId, source.refLabel, "source_ref", page.path, [okfProfile, ("okf", source.dump)]⟩],
    [⟨pageNodeId page.id, sourceId, "cites", [("source", .str "okf.sources"), okfProfile]⟩]⟩

def projectOkf (page : WikiPage) : Emission :=
  match page.okf with
  | none => .none
  | some okf =>
      (projectOkfMetadata page okf).append (.concat (okf.sources.map (projectOkfSource page)))

/-- The references already projected as OKF sources. -/
def projectedOkfSourceRefs (page : WikiPage) : List Text :=
  match page.okf with
  | none => []
  | some okf => okf.sources.map OkfSource.refKey

def projectSourceRef (page : WikiPage) (ref : Text) : Emission :=
  if ref ∈ projectedOkfSourceRefs page then .none
  else
    let sourceId : Text := ("source:" : Text) ++ slug ref
    ⟨[⟨sourceId, ref, "source_ref", page.path, []⟩],
      [⟨pageNodeId page.id, sourceId, "cites", []⟩]⟩

def projectTag (page : WikiPage) (tag : Text) : Emission :=
  let tagLabel := Text.stripBy (· = '#') tag
  let tagId : Text := ("tag:" : Text) ++ slug (Text.lower tagLabel)
  ⟨[⟨tagId, tagLabel, "tag", page.path, []⟩],
    [⟨pageNodeId page.id, tagId, "tagged", []⟩]⟩

/-- The metadata of a node that stands for a reference to no page. -/
def unresolvedMetadata (source : Text) : Metadata :=
  [("unresolved", .bool true), ("source", .str source)]

def projectLink (lookup : List (Text × WikiPage)) (page : WikiPage) (link : Text) : Emission :=
  match Keyed.get? lookup (normalizeKey link) with
  | some target => ⟨[], [⟨pageNodeId page.id, pageNodeId target.id, "links_to", []⟩]⟩
  | none =>
      ⟨[⟨unresolvedNodeId link, link, externalNodeKind link, page.path,
          unresolvedMetadata "wikilink"⟩],
        [⟨pageNodeId page.id, unresolvedNodeId link, "links_to", [("unresolved", .bool true)]⟩]⟩

/-- What one page contributes besides its own node. -/
def projectPage (lookup : List (Text × WikiPage)) (page : WikiPage) : Emission :=
  .concat
    [.concat (page.headings.map (projectHeading page)),
      projectOkf page,
      .concat (page.sourceRefs.map (projectSourceRef page)),
      .concat (page.tags.map (projectTag page)),
      .concat (page.links.map (projectLink lookup page))]

/-! ## Hierarchy and sidecar edges -/

def projectDendronParent (lookup : List (Text × WikiPage)) (page : WikiPage) : Emission :=
  let stem := Text.beforeLast '.' page.path
  if '.' ∈ stem then
    let parentKey := Text.beforeLast '.' stem
    match Keyed.get? lookup (normalizeKey parentKey) with
    | some parent =>
        ⟨[], [⟨pageNodeId parent.id, pageNodeId page.id, "parent_of",
          [("source", .str "dendron_hierarchy")]⟩]⟩
    | none =>
        ⟨[⟨unresolvedNodeId parentKey, parentKey, "placeholder", page.path,
            unresolvedMetadata "dendron_hierarchy"⟩],
          [⟨unresolvedNodeId parentKey, pageNodeId page.id, "parent_of",
            [("source", .str "dendron_hierarchy")]⟩]⟩
  else .none

def projectDendronHierarchy (loaded : LoadedWiki) (lookup : List (Text × WikiPage)) : Emission :=
  if loaded.adapter ≠ ("dendron" : Text) then .none
  else .concat (loaded.pages.map (projectDendronParent lookup))

def endpointValue (edge : Metadata) : List Text → Text
  | [] => []
  | key :: keys =>
      match edge.getD key with
      | .none => endpointValue edge keys
      | value => Text.strip value.toText

def endpointPath (primary fallback : Option WikiPage) : Text :=
  match primary with
  | some page => page.path
  | none => (fallback.map WikiPage.path).getD []

/-- The id of an endpoint of a sidecar edge, and the node it needs. -/
def graphEndpoint (value : Text) (page : Option WikiPage) (path : Text) :
    Text × List GraphNode :=
  match page with
  | some page => (pageNodeId page.id, [])
  | none =>
      (unresolvedNodeId value,
        [⟨unresolvedNodeId value, value, externalNodeKind value, path,
          unresolvedMetadata "graph.json"⟩])

def projectGraphFact (lookup : List (Text × WikiPage)) (fact : SidecarGraphEdgeFact) :
    Emission :=
  let sourceValue := endpointValue fact.data ["from", "source"]
  let targetValue := endpointValue fact.data ["to", "target"]
  if sourceValue = [] ∨ targetValue = [] then .none
  else
    let sourcePage := Keyed.get? lookup (normalizeKey sourceValue)
    let targetPage := Keyed.get? lookup (normalizeKey targetValue)
    let source := graphEndpoint sourceValue sourcePage (endpointPath sourcePage targetPage)
    let target := graphEndpoint targetValue targetPage (endpointPath targetPage sourcePage)
    let origin : Metadata := [("source", .str fact.source), ("path", .str fact.path)]
    let confidence : Metadata :=
      match fact.confidence with
      | some value => [("confidence", value)]
      | none => []
    let type := ((fact.data.getD "type").orElse (.str "related_to")).toText
    ⟨source.2 ++ target.2,
      [⟨source.1, target.1, canonicalRelation type, origin ++ confidence⟩]⟩

def projectGraphJson (loaded : LoadedWiki) (lookup : List (Text × WikiPage)) : Emission :=
  .concat (loaded.sidecarGraphEdges.map (projectGraphFact lookup))

/-! ## Deduplication -/

def dedupeNodes (nodes : List GraphNode) : List GraphNode := Keyed.firstWins GraphNode.id nodes

def mergeMetadataValue (existing incoming : Value) : Value :=
  let values :=
    match existing with
    | .sequence .list items => items
    | single => [single]
  Value.list (if incoming.isIn values then values else values ++ [incoming])

def mergeMetadataEntry (merged : Metadata) (entry : Text × Value) : Metadata :=
  match Keyed.get? merged entry.1 with
  | none => Keyed.set merged entry.1 entry.2
  | some .none => Keyed.set merged entry.1 entry.2
  | some (.str []) => Keyed.set merged entry.1 entry.2
  | some existing =>
      if existing.equals entry.2 then merged
      else Keyed.set merged entry.1 (mergeMetadataValue existing entry.2)

def mergeMetadata (existing incoming : Metadata) : Metadata :=
  incoming.foldl mergeMetadataEntry existing

def mergeEdge (kept incoming : GraphEdge) : GraphEdge :=
  { kept with metadata := mergeMetadata kept.metadata incoming.metadata }

def dedupeEdges (edges : List GraphEdge) : List GraphEdge :=
  Keyed.mergeWins GraphEdge.key mergeEdge edges

omit [Unicode] [Interpreter] in
@[simp]
theorem mergeEdge_key (kept incoming : GraphEdge) :
    (mergeEdge kept incoming).key = kept.key := rfl

/-! ## Projection -/

namespace LoadedWiki

def sourceRoot (loaded : LoadedWiki) : Text :=
  (sourceRoot? loaded.metadata).get loaded.sourceRootReadable

def lookup (loaded : LoadedWiki) : List (Text × WikiPage) :=
  pageLookup loaded.pages loaded.sourceRoot

/-- What the pages of a wiki contribute besides their own nodes. -/
def contributions (loaded : LoadedWiki) : Emission :=
  .concat (loaded.pages.map (projectPage loaded.lookup))

/-- What the hierarchy and the sidecar files contribute. -/
def structuralContributions (loaded : LoadedWiki) : Emission :=
  (projectDendronHierarchy loaded loaded.lookup).append (projectGraphJson loaded loaded.lookup)

/-- All graph items in the order they are appended. -/
def emission (loaded : LoadedWiki) : Emission :=
  (Emission.mk (loaded.pages.map (pageNode loaded)) []).append
    (loaded.contributions.append loaded.structuralContributions)

end LoadedWiki

def projectWiki (loaded : LoadedWiki) : WikiIndex where
  root := loaded.root
  title := loaded.title
  description := loaded.description
  pages := loaded.pages
  nodes := dedupeNodes loaded.emission.nodes
  edges := dedupeEdges loaded.emission.edges
  adapter := loaded.adapter
  implementation := loaded.implementation
  metadata := loaded.metadata

end Keys

end LlmWikiServe
