import LlmWikiServe.Foundation.Unicode
import LlmWikiServe.Value

/-!
# Pages, graph items and visibility

The data model shared by the adapters, the projection and the service, and the
property that decides whether a page is served by default.
-/

namespace LlmWikiServe

inductive PageRole where
  | hot
  | index
  | overview
  | topic
  deriving DecidableEq

inductive ReviewState where
  | approved
  | reviewed
  | verified
  | draft
  | proposed
  | needsReview
  | unknown
  deriving DecidableEq

inductive OkfDocumentRole where
  | concept
  | index
  | log
  deriving DecidableEq

inductive OkfTrustTier where
  | unverified
  | machineConfirmed
  | humanReviewed
  deriving DecidableEq

def PageRole.text : PageRole → Text
  | .hot => "hot"
  | .index => "index"
  | .overview => "overview"
  | .topic => "topic"

def ReviewState.text : ReviewState → Text
  | .approved => "approved"
  | .reviewed => "reviewed"
  | .verified => "verified"
  | .draft => "draft"
  | .proposed => "proposed"
  | .needsReview => "needs_review"
  | .unknown => "unknown"

def OkfDocumentRole.text : OkfDocumentRole → Text
  | .concept => "concept"
  | .index => "index"
  | .log => "log"

def OkfTrustTier.text : OkfTrustTier → Text
  | .unverified => "unverified"
  | .machineConfirmed => "machine-confirmed"
  | .humanReviewed => "human-reviewed"

def nonServingStatuses : List Text :=
  ["draft", "proposed", "needs_review", "blocked", "unpublished", "private", "hidden",
    "embargoed", "confidential", "internal", "withheld"]

structure OkfActorEvent where
  by_ : Text
  at_ : Text := []

structure OkfSource where
  id : Text := []
  resource : Text
  title : Text := []
  author : Text := []
  /-- An `int`, a `float` or `None`. -/
  usageCount : Value := .none
  lastModified : Text := []
  usageWindow : Metadata := []
  extra : Metadata := []

structure OkfMetadata where
  version : Text := "0.2"
  role : OkfDocumentRole := .concept
  conceptType : Text := []
  description : Text := []
  resource : Text := []
  generated : Option OkfActorEvent := none
  verified : List OkfActorEvent := []
  trustTier : OkfTrustTier := .unverified
  status : Text := "stable"
  staleAfter : Text := []
  usageWindow : Metadata := []
  runtime : Text := []
  parameters : List Metadata := []
  computation : Text := []
  executor : Metadata := []
  attester : Metadata := []
  sources : List OkfSource := []
  extra : Metadata := []

structure WikiPage where
  id : Text
  title : Text
  path : Text
  role : PageRole
  text : Text
  summary : Text := []
  frontmatter : Metadata := []
  reviewState : ReviewState := .unknown
  status : Text := []
  sourceRefs : List Text := []
  tags : List Text := []
  links : List Text := []
  headings : List Text := []
  updatedAt : Text := []
  okf : Option OkfMetadata := none

structure GraphNode where
  id : Text
  label : Text
  kind : Text
  path : Text := []
  metadata : Metadata := []

structure GraphEdge where
  source : Text
  target : Text
  relation : Text
  metadata : Metadata := []

def GraphEdge.key (edge : GraphEdge) : Text × Text × Text :=
  (edge.source, edge.target, edge.relation)

/-- The `source_root` entry of an adapter's metadata as the text `page_lookup` reads, `"."`
when absent; `none` for a value without `rstrip`, on which the lookup raises. -/
def sourceRoot? (metadata : Metadata) : Option Text :=
  match Keyed.get? metadata "source_root" with
  | none => some "."
  | some (.str text) => some text
  | some value => if value.truthy then none else some []

theorem sourceRoot?_nil : (sourceRoot? []).isSome := rfl

structure SidecarGraphEdgeFact where
  data : Metadata
  path : Text
  source : Text := "graph.json"
  /-- An `int`, a `float` or absent. -/
  confidence : Option Value := none

structure LoadedWiki where
  /-- The parts of the root's path. -/
  root : List Text
  pages : List WikiPage
  title : Text
  description : Text := []
  adapter : Text := "generic-markdown"
  implementation : Text := "generic-markdown"
  metadata : Metadata := []
  sidecarGraphEdges : List SidecarGraphEdgeFact := []
  sourceRootReadable : (sourceRoot? metadata).isSome := by rfl

/-- The projection of a loaded wiki that requests are answered from. -/
structure WikiIndex where
  root : List Text
  title : Text
  description : Text
  pages : List WikiPage
  nodes : List GraphNode
  edges : List GraphEdge
  adapter : Text
  implementation : Text
  metadata : Metadata

/-! ## JSON dumps -/

section Dump

variable [Interpreter]

def OkfActorEvent.dump (event : OkfActorEvent) : Value :=
  Value.ofMetadata [("by", .str event.by_), ("at", .str event.at_)]

def OkfSource.dump (source : OkfSource) : Value :=
  Value.ofMetadata
    [("id", .str source.id), ("resource", .str source.resource), ("title", .str source.title),
      ("author", .str source.author), ("usage_count", source.usageCount),
      ("last_modified", .str source.lastModified),
      ("usage_window", Value.ofMetadata (Value.metadataToJson source.usageWindow)),
      ("extra", Value.ofMetadata (Value.metadataToJson source.extra))]

def OkfMetadata.dump (okf : OkfMetadata) : Value :=
  Value.ofMetadata
    [("version", .str okf.version), ("role", .str okf.role.text),
      ("concept_type", .str okf.conceptType), ("description", .str okf.description),
      ("resource", .str okf.resource),
      ("generated", (okf.generated.map OkfActorEvent.dump).getD .none),
      ("verified", Value.list (okf.verified.map OkfActorEvent.dump)),
      ("trust_tier", .str okf.trustTier.text), ("status", .str okf.status),
      ("stale_after", .str okf.staleAfter),
      ("usage_window", Value.ofMetadata (Value.metadataToJson okf.usageWindow)),
      ("runtime", .str okf.runtime),
      ("parameters", Value.list (okf.parameters.map fun entry =>
        Value.ofMetadata (Value.metadataToJson entry))),
      ("computation", .str okf.computation),
      ("executor", Value.ofMetadata (Value.metadataToJson okf.executor)),
      ("attester", Value.ofMetadata (Value.metadataToJson okf.attester)),
      ("sources", Value.list (okf.sources.map OkfSource.dump)),
      ("extra", Value.ofMetadata (Value.metadataToJson okf.extra))]

end Dump

/-! ## Visibility -/

section Visibility

variable [Unicode]

def trueSpellings : List Text := ["1", "true", "yes", "y", "on"]

def falseSpellings : List Text := ["0", "false", "no", "n", "off"]

def frontmatterBool : Value → Option Bool
  | .bool value => some value
  | .str text =>
      let normalized := Text.lower (Text.strip text)
      if normalized ∈ trueSpellings then some true
      else if normalized ∈ falseSpellings then some false
      else none
  | _ => none

def visibilityStatus (value : Text) : Text :=
  Text.join "_" (Text.split (Text.replaceChar '-' ' ' (Text.lower (Text.strip value))))

namespace WikiPage

def approvedForServing (page : WikiPage) : Bool :=
  if frontmatterBool (page.frontmatter.getD "draft") = some true then false
  else if frontmatterBool (page.frontmatter.getD "published") = some false then false
  else if frontmatterBool (page.frontmatter.getD "publish") = some false then false
  else if page.reviewState ∈ [.draft, .proposed, .needsReview] then false
  else visibilityStatus page.status ∉ nonServingStatuses

end WikiPage

/-- The pages a request without drafts may see. -/
def visiblePages (pages : List WikiPage) (includeDrafts : Bool) : List WikiPage :=
  if includeDrafts then pages else pages.filter WikiPage.approvedForServing

theorem visibilityStatus_words (value : Text) :
    visibilityStatus value =
      Text.join "_" ((Text.split value).flatMap fun word =>
        Text.split (Text.replaceChar '-' ' ' (Text.lower word))) := by
  have blankKept : ∀ char, Text.isSpace char = true →
      Text.isSpace (if char = '-' then ' ' else char) = true := by
    intro char blank
    split
    · decide
    · exact blank
  have stripped : Text.split (Text.strip value) = Text.split value := Text.splitBy_stripBy value
  unfold visibilityStatus Text.replaceChar
  rw [Text.split_map _ blankKept, Text.split_lower, stripped, List.flatMap_map]

end Visibility

end LlmWikiServe
