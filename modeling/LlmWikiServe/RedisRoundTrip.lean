import LlmWikiServe.PayloadRecords
import LlmWikiServe.RecordRoundTrip

/-!
# Round trips through the Redis store

A record of a loaded wiki is read back with the same graph and with pages that say the same and
are served as before.
-/

namespace LlmWikiServe.ProjectionPayload

/-- A page that says what another one does, and is served when it is. -/
structure SamePage [Unicode] (page other : WikiPage) : Prop where
  id : other.id = page.id
  title : other.title = page.title
  path : other.path = page.path
  role : other.role = page.role
  text : other.text = page.text
  summary : other.summary = page.summary
  sourceRefs : other.sourceRefs = page.sourceRefs
  tags : other.tags = page.tags
  links : other.links = page.links
  headings : other.headings = page.headings
  reviewState : other.reviewState = page.reviewState
  status : other.status = page.status
  approved : other.approvedForServing = page.approvedForServing

/-- An index with the same texts and the same graph, over such pages in the same order. -/
structure SameIndex [Unicode] (index other : WikiIndex) : Prop where
  title : other.title = index.title
  description : other.description = index.description
  adapter : other.adapter = index.adapter
  implementation : other.implementation = index.implementation
  metadata : other.metadata = index.metadata
  pages : List.Forall₂ SamePage index.pages other.pages
  nodes : other.nodes = index.nodes
  edges : other.edges = index.edges

section RoundTrips

variable (F : Type) [JsonNumbers F] [Json.FloatRepr F] [Unicode] [Interpreter] [Hashing]

/-- The text of a record is read back as the record of its key, the root being given again, and as
a record of no other key. -/
structure RoundTrips (record : ProjectionRecord) (root : List Text) : Prop where
  own : ∃ payload index, jsonLoads F (jsonDumps F (recordToPayload record)) = some payload ∧
    projectionRecordFromPayload F record.key payload root = .ok ⟨record.key, index⟩ ∧
    index.root = root ∧ SameIndex record.index index
  fetched : ∀ (store : RedisProjectionStore) (client : Text → Except Text (Option Text)),
    store.available = true →
      client (redisProjectionKey record.key) = .ok (some (jsonDumps F (recordToPayload record))) →
        ∃ index, (store.get F client record.key root).1 = .ok (some ⟨record.key, index⟩) ∧
          SameIndex record.index index
  other : ∀ key ≠ record.key, ∀ payload,
    jsonLoads F (jsonDumps F (recordToPayload record)) = some payload →
      ∃ message, projectionRecordFromPayload F key payload root = .error (.mismatch message)
  notFetched : ∀ (store : RedisProjectionStore) (client : Text → Except Text (Option Text)),
    store.available = true → ∀ key ≠ record.key,
      client (redisProjectionKey key) = .ok (some (jsonDumps F (recordToPayload record))) →
        (store.get F client key root).1 = .ok none

variable {F}

omit [JsonNumbers F] [Json.FloatRepr F] [Unicode] [Interpreter] [Hashing] in
theorem countsFinite_of_representable {page : WikiPage} (counted : Counted page)
    (representable : Representable page) : CountsFinite page := by
  intro okf found source sourceIn
  have dated := representable.counts okf found source sourceIn
  rcases counted okf found source sourceIn with none | ⟨number, int⟩ | ⟨number, float⟩
  · rw [none]
    trivial
  · rw [int]
    trivial
  · rw [float] at dated ⊢
    exact dated

omit [Hashing] in
theorem samePage_reread {page : WikiPage} (representable : Representable page) :
    SamePage page (rereadPage page) := by
  constructor
  case approved => exact rereadPage_approvedForServing representable
  all_goals rfl

omit [Unicode] [Hashing] in
theorem map_reread_nodes {nodes : List GraphNode}
    (json : ∀ node ∈ nodes, JsonMetadata node.metadata) : nodes.map rereadNode = nodes := by
  refine (List.map_congr_left fun node among => ?_).trans (List.map_id nodes)
  rw [rereadNode, metadataToJson_of_json (json node among)]
  rfl

omit [Unicode] [Hashing] in
theorem map_reread_edges {edges : List GraphEdge}
    (json : ∀ edge ∈ edges, JsonMetadata edge.metadata) : edges.map rereadEdge = edges := by
  refine (List.map_congr_left fun edge among => ?_).trans (List.map_id edges)
  rw [rereadEdge, metadataToJson_of_json (json edge among)]
  rfl

omit [Hashing] in
theorem sameIndex_reread {index : WikiIndex} (json : JsonMetadata index.metadata)
    (pages : ∀ page ∈ index.pages, Representable page)
    (items : JsonItems ⟨index.nodes, index.edges⟩) (root : List Text) :
    SameIndex index (rereadIndex root index) := by
  constructor
  case metadata => exact metadataToJson_of_json json
  case nodes => exact map_reread_nodes items.nodes
  case edges => exact map_reread_edges items.edges
  case pages =>
    refine List.forall₂_map_right_iff.mpr (List.forall₂_same.mpr fun page pageIn => ?_)
    exact samePage_reread (pages page pageIn)
  all_goals rfl

/-- A record whose pages and whose graph JSON can hold is read back, and under no other key. -/
theorem roundTrips_of_json {record : ProjectionRecord} (json : JsonMetadata record.index.metadata)
    (counts : ∀ page ∈ record.index.pages, Counted page)
    (pages : ∀ page ∈ record.index.pages, Representable page)
    (items : JsonItems ⟨record.index.nodes, record.index.edges⟩) (root : List Text) :
    RoundTrips F record root := by
  have loaded : jsonLoads F (jsonDumps F (recordToPayload record)) =
      some (recordToPayload record) :=
    jsonLoads_jsonDumps F (jsonLike_recordToPayload fun page pageIn =>
      countsFinite_of_representable (counts page pageIn) (pages page pageIn))
  have own := projectionRecordFromPayload_own F counts root
  have same := sameIndex_reread json pages items root
  constructor
  · exact ⟨_, _, loaded, own, rfl, same⟩
  · intro store client available answered
    refine ⟨_, ?_, same⟩
    simp only [RedisProjectionStore.get, available, answered, loaded, own, Bool.not_true,
      Bool.false_eq_true, if_false]
  · intro key different payload read
    obtain rfl := Option.some.inj (loaded.symm.trans read)
    exact projectionRecordFromPayload_other F counts different root
  · intro store client available key different answered
    obtain ⟨message, refused⟩ := projectionRecordFromPayload_other F counts different root
    simp only [RedisProjectionStore.get, available, answered, loaded, refused, Bool.not_true,
      Bool.false_eq_true, if_false]

variable [Documents] [Host]

/-- The record of a loaded wiki is read back, dates in the frontmatter or not, when the
confidences of its sidecar edges are finite. -/
theorem redisRecord_roundTrips {profile : SourceProfile} {tree : FileTree} {loaded : LoadedWiki}
    (succeeded : loadWiki profile tree = .ok loaded)
    (representable : ∀ page ∈ loaded.pages, Representable page)
    (finite : ∀ fact ∈ loaded.sidecarGraphEdges, ConfidenceFinite fact) (key : ProjectionKey)
    (root : List Text) : RoundTrips F ⟨key, projectWiki loaded⟩ root := by
  have sound := loadWiki_sound succeeded
  have counts : ∀ page ∈ loaded.pages, CountsFinite page := fun page pageIn =>
    countsFinite_of_representable (sound.pages page pageIn) (representable page pageIn)
  exact roundTrips_of_json sound.metadata sound.pages representable
    (projectWiki_json sound.metadata counts finite) root

end RoundTrips

section Sample

open ManagedContext

def floatData (value : FloatValue) : Option ℚ × Option ℕ × List ℕ :=
  (value.number, value.nan, value.repr.map Char.toNat)

def floatOfData (data : Option ℚ × Option ℕ × List ℕ) : Option FloatValue :=
  let repr : Text := data.2.2.map Char.ofNat
  if valid : ('.' ∈ repr ∨ '+' ∈ repr ∨ '-' ∈ repr ∨ repr = ("inf" : Text) ∨
      repr = ("nan" : Text)) ∧
      (data.1.isSome = true → ∃ char ∈ repr, char.isDigit = true) then
    some ⟨data.1, data.2.1, repr, valid.1, valid.2⟩
  else none

theorem floatOfData_floatData (value : FloatValue) :
    floatOfData (floatData value) = some value := by
  have repr : (value.repr.map Char.toNat).map Char.ofNat = value.repr := by
    rw [List.map_map]
    exact (List.map_congr_left fun char _ => Char.ofNat_toNat char).trans (List.map_id _)
  unfold floatOfData floatData
  dsimp only
  rw [dif_pos]
  · congr
  · rw [repr]
    exact ⟨value.marked, value.printed⟩

def wholeFloat : FloatValue where
  number := some 1
  nan := none
  repr := "1.0"
  marked := .inl (by decide)
  printed _ := ⟨'1', by decide, by decide⟩

@[reducible]
def samplePayloadNumbers : JsonNumbers PyFloat where
  ofFloat value := .finite (Encodable.encode (floatData value))
  toFloat
    | .finite value =>
        (((Encodable.decode value.num.toNat).bind floatOfData)).getD wholeFloat
    | _ => wholeFloat
  toFloat_ofFloat value _ := by
    have whole : ((Encodable.encode (floatData value) : ℚ)).num.toNat =
        Encodable.encode (floatData value) := by simp
    simp only [whole, Encodable.encodek, Option.bind_some, floatOfData_floatData, Option.getD_some]
  numberOfText _ := none

/-- A draft mark that is a date. -/
def datedMark : Metadata := [("draft", .date ⟨2024, 1, 2, by decide⟩)]

/-- A reader that takes every frontmatter for that mark, and every graph file for one edge with
this confidence. -/
@[reducible]
def sampleDocuments (confidence : Value) : Documents where
  safeLoad _ := .ok (Value.ofMetadata datedMark)
  jsonLoads _ := .ok (Value.list [.dict
    [(.str "from", .str "a"), (.str "to", .str "b"), (.str "confidence", confidence)]])

@[reducible]
def finiteDocuments : Documents := sampleDocuments (.int 1)

@[reducible]
def nanDocuments : Documents := sampleDocuments (.float (.ofNan 0))

def graphTree (confidence : Text) : FileTree :=
  .ofChildren ⟨1, 1, 0, 0⟩
    [("a.md", FileTree.textFile 2 "---\ndraft: 2024-01-02\n---\ntext"),
      ("graph", .dir ⟨1, 3, 0, 0⟩
        [("graph.json", FileTree.textFile 4
          (("[\x7b\"from\": \"a\", \"to\": \"b\", \"confidence\": " : Text) ++ confidence ++
            ("\x7d]" : Text)))])] rfl

def sampleKey : ProjectionKey where
  namespace_ := "default"
  sourceId := "wiki"
  projectionSignature := "sha256:1"

theorem representable_of_dated {pages : List WikiPage}
    (dated : (pages.map fun page => (page.frontmatter, page.okf.isSome)) = [(datedMark, false)]) :
    ∀ page ∈ pages, Representable page ∧ page.okf = none := by
  intro page pageIn
  have among : (page.frontmatter, page.okf.isSome) ∈ [(datedMark, false)] := by
    rw [← dated]
    exact List.mem_map_of_mem pageIn
  obtain ⟨frontmatter, okf⟩ := Prod.mk.inj (List.mem_singleton.mp among)
  have without : page.okf = none := Option.not_isSome_iff_eq_none.mp (by simp [okf])
  refine ⟨⟨?_, ?_, ?_⟩, without⟩
  · rw [frontmatter]
    exact List.nodup_singleton _
  · rw [frontmatter]
    intro entry entryIn
    rw [List.mem_singleton.mp entryIn]
    trivial
  · intro data found
    rw [without] at found
    cases found

attribute [local instance] Unicode.ascii Value.plainInterpreter Host.plain Hashing.transparent
  sampleFloats samplePayloadNumbers

section Finite

attribute [local instance] finiteDocuments

theorem graphTree_loads_finite : ∃ loaded, loadWiki .auto (graphTree "1") = .ok loaded ∧
    (loaded.pages.map fun page => (page.frontmatter, page.okf.isSome)) = [(datedMark, false)] ∧
    loaded.sidecarGraphEdges.map SidecarGraphEdgeFact.confidence = [some (.int 1)] :=
  ⟨_, rfl, rfl, rfl⟩

theorem redisRecord_roundTrips_dated : ∃ loaded, loadWiki .auto (graphTree "1") = .ok loaded ∧
    RoundTrips PyFloat ⟨sampleKey, projectWiki loaded⟩ ["srv"] := by
  obtain ⟨loaded, loads, dated, confidences⟩ := graphTree_loads_finite
  have finite : ∀ fact ∈ loaded.sidecarGraphEdges, ConfidenceFinite fact := by
    intro fact factIn value found
    have among : some value ∈ [some (Value.int 1)] := by
      rw [← confidences, ← found]
      exact List.mem_map_of_mem factIn
    rw [Option.some.inj (List.mem_singleton.mp among)]
    trivial
  exact ⟨loaded, loads, redisRecord_roundTrips loads
    (fun page pageIn => (representable_of_dated dated page pageIn).1) finite sampleKey ["srv"]⟩

end Finite

section Nan

attribute [local instance] nanDocuments

theorem graphTree_loads_nan : ∃ loaded, loadWiki .auto (graphTree "NaN") = .ok loaded ∧
    (loaded.pages.map fun page => (page.frontmatter, page.okf.isSome)) = [(datedMark, false)] ∧
    ((projectWiki loaded).edges.map fun edge => edge.metadata.getD "confidence") =
      [.float (.ofNan 0)] ∧
    ((projectWiki loaded).edges.map fun edge => (rereadEdge edge).metadata.getD "confidence") =
      [.none] :=
  ⟨_, rfl, rfl, rfl, rfl⟩

/-- A confidence that is no number is read back as an absent one. -/
theorem nanConfidence_lost :
    ¬ ∀ (profile : SourceProfile) (tree : FileTree) (loaded : LoadedWiki),
      loadWiki profile tree = .ok loaded → (∀ page ∈ loaded.pages, Representable page) →
        ∀ key root, RoundTrips PyFloat ⟨key, projectWiki loaded⟩ root := by
  intro claimed
  obtain ⟨loaded, loads, dated, before, after⟩ := graphTree_loads_nan
  have sound := loadWiki_sound loads
  have pages := representable_of_dated dated
  have round := claimed .auto _ loaded loads (fun page pageIn => (pages page pageIn).1)
    sampleKey ["srv"]
  obtain ⟨payload, index, read, made, -, same⟩ := round.own
  have like : JsonLike (recordToPayload ⟨sampleKey, projectWiki loaded⟩) := by
    refine jsonLike_recordToPayload fun page pageIn okf found => ?_
    rw [(pages page pageIn).2] at found
    cases found
  obtain rfl := Option.some.inj ((jsonLoads_jsonDumps PyFloat like).symm.trans read)
  have own := @projectionRecordFromPayload_own _ PyFloat _ ⟨sampleKey, projectWiki loaded⟩
    sound.pages ["srv"]
  have isReread := congrArg ProjectionRecord.index (Except.ok.inj (own.symm.trans made))
  have edges : (projectWiki loaded).edges.map rereadEdge = (projectWiki loaded).edges :=
    (congrArg WikiIndex.edges isReread).trans same.edges
  have confidences : ((projectWiki loaded).edges.map fun edge =>
      (rereadEdge edge).metadata.getD "confidence") =
        (projectWiki loaded).edges.map fun edge => edge.metadata.getD "confidence" := by
    conv_rhs => rw [← edges]
    rw [List.map_map]
    rfl
  rw [before, after] at confidences
  cases confidences

end Nan

end Sample

end LlmWikiServe.ProjectionPayload
