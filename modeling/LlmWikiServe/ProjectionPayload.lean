import LlmWikiServe.Foundation.Json
import LlmWikiServe.GraphStore
import LlmWikiServe.IndexService
import LlmWikiServe.Projection

/-!
# Payloads of projection records

A Redis projection store keeps a record as the JSON text of its dumped models, and validates the
models again when it reads the text.
-/

namespace LlmWikiServe.ProjectionPayload

/-- Numbers as the JSON reader and the model validation of the interpreter handle them. -/
class JsonNumbers (F : Type) where
  ofFloat : FloatValue → F
  toFloat : F → FloatValue
  /-- A finite float is read back from what is written for it. -/
  toFloat_ofFloat : ∀ value, value.number.isSome = true → toFloat (ofFloat value) = value
  /-- What a number field takes a text for. -/
  numberOfText : Text → Option Value

/-! ## Texts of values -/

section Texts

variable {F : Type} [JsonNumbers F]

/-- The name of the member under a key of a dumped dictionary, whose keys are texts. -/
def memberName : Value → Text
  | .str name => name
  | _ => []

mutual

/-- The JSON data of a dumped value, which holds neither dates nor binary values. -/
def asJson : Value → Json F
  | .bool value => .bool value
  | .int value => .int value
  | .float value => .float (JsonNumbers.ofFloat value)
  | .str text => .string text
  | .sequence _ items => .array (asJsonItems items)
  | .dict entries => .object (asJsonEntries entries)
  | _ => .null
termination_by structural value => value

def asJsonItems : List Value → List (Json F)
  | [] => []
  | item :: items => asJson item :: asJsonItems items
termination_by structural items => items

def asJsonEntries : List (Value × Value) → List (Text × Json F)
  | [] => []
  | (key, value) :: entries => (memberName key, asJson value) :: asJsonEntries entries
termination_by structural entries => entries

end

mutual

/-- The value a reader makes of JSON data. -/
def ofJson : Json F → Value
  | .null => .none
  | .bool value => .bool value
  | .int value => .int value
  | .float value => .float (JsonNumbers.toFloat value)
  | .string text => .str text
  | .array items => Value.list (ofJsonItems items)
  | .object members => .dict (ofJsonMembers members)
termination_by structural value => value

def ofJsonItems : List (Json F) → List Value
  | [] => []
  | item :: items => ofJson item :: ofJsonItems items
termination_by structural items => items

def ofJsonMembers : List (Text × Json F) → List (Value × Value)
  | [] => []
  | (name, value) :: members => (.str name, ofJson value) :: ofJsonMembers members
termination_by structural members => members

end

variable (F) [Json.FloatRepr F]

/-- `json.dumps(value)` -/
def jsonDumps (value : Value) : Text := Json.print .standard 0 (asJson value : Json F)

/-- `json.loads(text)` -/
def jsonLoads (text : Text) : Option Value := (Json.loads text : Option (Json F)).map ofJson

end Texts

/-! ## Dumps -/

section Dumps

variable [Interpreter]

def texts (values : List Text) : Value := Value.list (values.map Value.str)

/-- `page.model_dump(mode="json")` -/
def pageDump (page : WikiPage) : Value :=
  Value.ofMetadata
    [("id", .str page.id), ("title", .str page.title), ("path", .str page.path),
      ("role", .str page.role.text), ("text", .str page.text), ("summary", .str page.summary),
      ("frontmatter", Value.ofMetadata (Value.metadataToJson page.frontmatter)),
      ("review_state", .str page.reviewState.text), ("status", .str page.status),
      ("source_refs", texts page.sourceRefs), ("tags", texts page.tags),
      ("links", texts page.links), ("headings", texts page.headings),
      ("updated_at", .str page.updatedAt), ("okf", (page.okf.map OkfMetadata.dump).getD .none)]

def nodeDump (node : GraphNode) : Value :=
  Value.ofMetadata
    [("id", .str node.id), ("label", .str node.label), ("kind", .str node.kind),
      ("path", .str node.path), ("metadata", Value.ofMetadata (Value.metadataToJson node.metadata))]

def edgeDump (edge : GraphEdge) : Value :=
  Value.ofMetadata
    [("source", .str edge.source), ("target", .str edge.target), ("relation", .str edge.relation),
      ("metadata", Value.ofMetadata (Value.metadataToJson edge.metadata))]

/-- `index.model_dump(mode="json", exclude={"root"})` -/
def indexDump (index : WikiIndex) : Value :=
  Value.ofMetadata
    [("title", .str index.title), ("description", .str index.description),
      ("adapter", .str index.adapter), ("implementation", .str index.implementation),
      ("metadata", Value.ofMetadata (Value.metadataToJson index.metadata)),
      ("pages", Value.list (index.pages.map pageDump)),
      ("nodes", Value.list (index.nodes.map nodeDump)),
      ("edges", Value.list (index.edges.map edgeDump))]

def recordToPayload (record : ProjectionRecord) : Value :=
  Value.ofMetadata
    [("schema_version", .str record.key.schemaVersion), ("namespace", .str record.key.namespace_),
      ("source_id", .str record.key.sourceId),
      ("projection_signature", .str record.key.projectionSignature),
      ("index", indexDump record.index)]

end Dumps

/-! ## Validation -/

section Validation

def readText : Value → Option Text
  | .str text => some text
  | _ => none

def readList {Item : Type} (read : Value → Option Item) : Value → Option (List Item)
  | .sequence .list items => items.mapM read
  | _ => none

def readOptional {Item : Type} (read : Value → Option Item) : Value → Option (Option Item)
  | .none => some none
  | value => (read value).map some

def readChoice {Choice : Type} (choices : List Choice) (text : Choice → Text) :
    Value → Option Choice
  | .str written => choices.find? fun choice => text choice = written
  | _ => none

def readDict : Value → Option Metadata
  | .dict entries => stringKeys? entries
  | _ => none

/-- The fields of a model. -/
def readObject : Value → Option Metadata
  | .dict entries => some (textKeys entries)
  | _ => none

/-- A field of a model, with what it is where it is missing. -/
def field {Item : Type} (members : Metadata) (name : Text) (read : Value → Option Item)
    (default : Option Item) : Option Item :=
  match Keyed.get? members name with
  | some value => read value
  | none => default

def pageRoles : List PageRole := [.hot, .index, .overview, .topic]

def reviewStates : List ReviewState :=
  [.approved, .reviewed, .verified, .draft, .proposed, .needsReview, .unknown]

def okfDocumentRoles : List OkfDocumentRole := [.concept, .index, .log]

def okfTrustTiers : List OkfTrustTier := [.unverified, .machineConfirmed, .humanReviewed]

def readActorEvent (value : Value) : Option OkfActorEvent := do
  let members ← readObject value
  let by_ ← field members "by" readText none
  let at_ ← field members "at" readText (some [])
  return ⟨by_, at_⟩

section Numbers

variable (F : Type) [JsonNumbers F]

/-- An `int`, a `float` or `None`. -/
def readNumber : Value → Option Value
  | .none => some .none
  | .bool value => some (.int value.toNat)
  | .int value => some (.int value)
  | .float value => some (.float value)
  | .str text => JsonNumbers.numberOfText F text
  | _ => none

def readOkfSource (value : Value) : Option OkfSource := do
  let members ← readObject value
  let id ← field members "id" readText (some [])
  let resource ← field members "resource" readText none
  let title ← field members "title" readText (some [])
  let author ← field members "author" readText (some [])
  let usageCount ← field members "usage_count" (readNumber F) (some .none)
  let lastModified ← field members "last_modified" readText (some [])
  let usageWindow ← field members "usage_window" readDict (some [])
  let extra ← field members "extra" readDict (some [])
  return { id, resource, title, author, usageCount, lastModified, usageWindow, extra }

def readOkf (value : Value) : Option OkfMetadata := do
  let members ← readObject value
  let version ← field members "version" readText (some ("0.2" : Text))
  let role ← field members "role" (readChoice okfDocumentRoles OkfDocumentRole.text) (some .concept)
  let conceptType ← field members "concept_type" readText (some [])
  let description ← field members "description" readText (some [])
  let resource ← field members "resource" readText (some [])
  let generated ← field members "generated" (readOptional readActorEvent) (some none)
  let verified ← field members "verified" (readList readActorEvent) (some [])
  let trustTier ← field members "trust_tier" (readChoice okfTrustTiers OkfTrustTier.text)
    (some .unverified)
  let status ← field members "status" readText (some ("stable" : Text))
  let staleAfter ← field members "stale_after" readText (some [])
  let usageWindow ← field members "usage_window" readDict (some [])
  let runtime ← field members "runtime" readText (some [])
  let parameters ← field members "parameters" (readList readDict) (some [])
  let computation ← field members "computation" readText (some [])
  let executor ← field members "executor" readDict (some [])
  let attester ← field members "attester" readDict (some [])
  let sources ← field members "sources" (readList (readOkfSource F)) (some [])
  let extra ← field members "extra" readDict (some [])
  return { version, role, conceptType, description, resource, generated, verified, trustTier,
           status, staleAfter, usageWindow, runtime, parameters, computation, executor, attester,
           sources, extra }

def readPage (value : Value) : Option WikiPage := do
  let members ← readObject value
  let id ← field members "id" readText none
  let title ← field members "title" readText none
  let path ← field members "path" readText none
  let role ← field members "role" (readChoice pageRoles PageRole.text) none
  let text ← field members "text" readText none
  let summary ← field members "summary" readText (some [])
  let frontmatter ← field members "frontmatter" readDict (some [])
  let reviewState ← field members "review_state" (readChoice reviewStates ReviewState.text)
    (some .unknown)
  let status ← field members "status" readText (some [])
  let sourceRefs ← field members "source_refs" (readList readText) (some [])
  let tags ← field members "tags" (readList readText) (some [])
  let links ← field members "links" (readList readText) (some [])
  let headings ← field members "headings" (readList readText) (some [])
  let updatedAt ← field members "updated_at" readText (some [])
  let okf ← field members "okf" (readOptional (readOkf F)) (some none)
  return { id, title, path, role, text, summary, frontmatter, reviewState, status, sourceRefs,
           tags, links, headings, updatedAt, okf }

end Numbers

def readNode (value : Value) : Option GraphNode := do
  let members ← readObject value
  let id ← field members "id" readText none
  let label ← field members "label" readText none
  let kind ← field members "kind" readText none
  let path ← field members "path" readText (some [])
  let metadata ← field members "metadata" readDict (some [])
  return { id, label, kind, path, metadata }

def readEdge (value : Value) : Option GraphEdge := do
  let members ← readObject value
  let source ← field members "source" readText none
  let target ← field members "target" readText none
  let relation ← field members "relation" readText none
  let metadata ← field members "metadata" readDict (some [])
  return { source, target, relation, metadata }

variable (F : Type) [JsonNumbers F]

/-- `WikiIndex.model_validate(members)`, the root being given. -/
def readIndex (members : Metadata) (root : List Text) : Option WikiIndex := do
  let title ← field members "title" readText none
  let description ← field members "description" readText (some [])
  let adapter ← field members "adapter" readText (some [])
  let implementation ← field members "implementation" readText (some [])
  let metadata ← field members "metadata" readDict (some [])
  let pages ← field members "pages" (readList (readPage F)) none
  let nodes ← field members "nodes" (readList readNode) none
  let edges ← field members "edges" (readList readEdge) none
  return { root, title, description, pages, nodes, edges, adapter, implementation, metadata }

inductive PayloadError where
  /-- `KeyError` -/
  | missing (name : Text)
  /-- `TypeError` -/
  | notAMapping
  /-- `ValueError` -/
  | mismatch (message : Text)
  /-- `ValidationError` -/
  | invalid

def member (members : Metadata) (name : Text) : Except PayloadError Value :=
  match Keyed.get? members name with
  | some value => .ok value
  | none => .error (.missing name)

def mapping (value : Value) : Except PayloadError Metadata :=
  match readObject value with
  | some members => .ok members
  | none => .error .notAMapping

def checkMember (members : Metadata) (name expected message : Text) : Except PayloadError Unit := do
  let value ← member members name
  match value with
  | .str text => if text = expected then .ok () else .error (.mismatch message)
  | _ => .error (.mismatch message)

def projectionRecordFromPayload (key : ProjectionKey) (payload : Value) (root : List Text) :
    Except PayloadError ProjectionRecord := do
  let members ← mapping payload
  checkMember members "schema_version" key.schemaVersion
    "projection payload schema_version mismatch"
  checkMember members "namespace" key.namespace_ "projection payload namespace mismatch"
  checkMember members "source_id" key.sourceId "projection payload source_id mismatch"
  checkMember members "projection_signature" key.projectionSignature
    "projection payload signature mismatch"
  let index ← member members "index"
  let indexMembers ← mapping index
  match readIndex F indexMembers root with
  | some index => .ok ⟨key, index⟩
  | none => .error .invalid

end Validation

/-! ## The store -/

section Store

variable [Hashing]

def redisProjectionKey (key : ProjectionKey) : Text :=
  Text.join ":"
    ["llmwiki", GraphStore.safeKeyPart key.namespace_, "projections",
      GraphStore.safeKeyPart key.schemaVersion, GraphStore.safeKeyPart key.sourceId,
      GraphStore.safeKeyPart key.projectionSignature]

def redisLatestKey (key : ProjectionKey) : Text :=
  Text.join ":"
    ["llmwiki", GraphStore.safeKeyPart key.namespace_, "sources",
      GraphStore.safeKeyPart key.sourceId, "latest"]

structure RedisProjectionStore where
  failFast : Bool := false
  available : Bool := true
  lastError : Text := []
  memoryFallback : List (ProjectionKey × ProjectionRecord) := []

def PayloadError.className : PayloadError → Text
  | .missing _ => "KeyError"
  | .notAMapping => "TypeError"
  | .mismatch _ => "ValueError"
  | .invalid => "ValidationError"

def rejected (className : Text) : Text := className ++ (": cache payload rejected" : Text)

/-- The record of a key, when the client answers `answer` to the key's Redis key: a message where
it fails. -/
def RedisProjectionStore.get (F : Type) [JsonNumbers F] [Json.FloatRepr F]
    (store : RedisProjectionStore) (client : Text → Except Text (Option Text))
    (key : ProjectionKey) (root : List Text) :
    Except Text (Option ProjectionRecord) × RedisProjectionStore :=
  if !store.available then (.ok (Keyed.get? store.memoryFallback key), store)
  else
    match client (redisProjectionKey key) with
    | .error message =>
        if store.failFast then
          (.error (("Redis projection store failed: " : Text) ++ message),
            { store with lastError := message })
        else
          (.ok (Keyed.get? store.memoryFallback key),
            { store with lastError := message, available := false })
    | .ok none => (.ok none, store)
    | .ok (some raw) =>
        match jsonLoads F raw with
        | none => (.ok none, { store with lastError := rejected "JSONDecodeError" })
        | some payload =>
            match projectionRecordFromPayload F key payload root with
            | .error error => (.ok none, { store with lastError := rejected error.className })
            | .ok record => (.ok (some record), { store with lastError := [] })

def redisWrites (F : Type) [JsonNumbers F] [Json.FloatRepr F] [Interpreter]
    (record : ProjectionRecord) : List (Text × Text) :=
  [(redisProjectionKey record.key, jsonDumps F (recordToPayload record)),
    (redisLatestKey record.key, record.key.projectionSignature)]

/-- Store a record, `failure` being the message of the client where it fails: what is set in
Redis, and the store after. -/
def RedisProjectionStore.put (F : Type) [JsonNumbers F] [Json.FloatRepr F] [Interpreter]
    (store : RedisProjectionStore) (record : ProjectionRecord) (failure : Option Text) :
    Except Text (List (Text × Text)) × RedisProjectionStore :=
  let kept := { store with memoryFallback := Keyed.set store.memoryFallback record.key record }
  if !store.available then (.ok [], kept)
  else
    match failure with
    | none => (.ok (redisWrites F record), { kept with lastError := [] })
    | some message =>
        if store.failFast then
          (.error (("Redis projection store failed: " : Text) ++ message),
            { kept with lastError := message })
        else (.ok [], { kept with lastError := message, available := false })

end Store

end LlmWikiServe.ProjectionPayload
