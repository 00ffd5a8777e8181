import LlmWikiServe.LoadedMetadata
import LlmWikiServe.PayloadPages

/-!
# Payloads that are read again

The payload of a record is a value that JSON has; it is read back under the key of the record and
refused under any other key.
-/

namespace LlmWikiServe.ProjectionPayload

section Records

variable [Interpreter]

def rereadNode (node : GraphNode) : GraphNode :=
  { node with metadata := Value.metadataToJson node.metadata }

def rereadEdge (edge : GraphEdge) : GraphEdge :=
  { edge with metadata := Value.metadataToJson edge.metadata }

def rereadIndex (root : List Text) (index : WikiIndex) : WikiIndex :=
  { index with
    root
    metadata := Value.metadataToJson index.metadata
    pages := index.pages.map rereadPage
    nodes := index.nodes.map rereadNode
    edges := index.edges.map rereadEdge }

omit [Interpreter] in
theorem jsonLike_texts (values : List Text) : JsonLike (texts values) := by
  refine jsonLike_list.mpr fun item among => ?_
  obtain ⟨text, -, rfl⟩ := List.mem_map.mp among
  trivial

theorem jsonLike_pageDump {page : WikiPage} (counts : CountsFinite page) :
    JsonLike (pageDump page) := by
  have okf : JsonLike ((page.okf.map OkfMetadata.dump).getD .none) := by
    cases found : page.okf with
    | none => trivial
    | some okf => exact jsonLike_okfDump (counts okf found)
  refine jsonLike_ofMetadata.mpr ⟨?_, ?_⟩
  · show ["id".toList, "title".toList, "path".toList, "role".toList, "text".toList,
      "summary".toList, "frontmatter".toList, "review_state".toList, "status".toList,
      "source_refs".toList, "tags".toList, "links".toList, "headings".toList,
      "updated_at".toList, "okf".toList].Nodup
    decide
  · intro entry among
    simp only [List.mem_cons, List.not_mem_nil, or_false] at among
    rcases among with rfl | rfl | rfl | rfl | rfl | rfl | rfl | rfl | rfl | rfl | rfl | rfl | rfl |
      rfl | rfl
    all_goals first
      | trivial
      | exact okf
      | exact jsonLike_ofMetadata.mpr (jsonMetadata_toJson _)
      | exact jsonLike_texts _

theorem jsonLike_nodeDump (node : GraphNode) : JsonLike (nodeDump node) := by
  refine jsonLike_ofMetadata.mpr ⟨?_, ?_⟩
  · show ["id".toList, "label".toList, "kind".toList, "path".toList, "metadata".toList].Nodup
    decide
  · intro entry among
    simp only [List.mem_cons, List.not_mem_nil, or_false] at among
    rcases among with rfl | rfl | rfl | rfl | rfl
    all_goals first
      | trivial
      | exact jsonLike_ofMetadata.mpr (jsonMetadata_toJson _)

theorem jsonLike_edgeDump (edge : GraphEdge) : JsonLike (edgeDump edge) := by
  refine jsonLike_ofMetadata.mpr ⟨?_, ?_⟩
  · show ["source".toList, "target".toList, "relation".toList, "metadata".toList].Nodup
    decide
  · intro entry among
    simp only [List.mem_cons, List.not_mem_nil, or_false] at among
    rcases among with rfl | rfl | rfl | rfl
    all_goals first
      | trivial
      | exact jsonLike_ofMetadata.mpr (jsonMetadata_toJson _)

omit [Interpreter] in
theorem jsonLike_dumps {Item : Type} {dump : Item → Value} {items : List Item}
    (each : ∀ item ∈ items, JsonLike (dump item)) : JsonLike (Value.list (items.map dump)) := by
  refine jsonLike_list.mpr fun value among => ?_
  obtain ⟨item, itemIn, rfl⟩ := List.mem_map.mp among
  exact each item itemIn

theorem jsonLike_indexDump {index : WikiIndex} (counts : ∀ page ∈ index.pages, CountsFinite page) :
    JsonLike (indexDump index) := by
  have pages := jsonLike_dumps fun page pageIn => jsonLike_pageDump (counts page pageIn)
  have nodes := @jsonLike_dumps GraphNode nodeDump index.nodes fun node _ => jsonLike_nodeDump node
  have edges := @jsonLike_dumps GraphEdge edgeDump index.edges fun edge _ => jsonLike_edgeDump edge
  refine jsonLike_ofMetadata.mpr ⟨?_, ?_⟩
  · show ["title".toList, "description".toList, "adapter".toList, "implementation".toList,
      "metadata".toList, "pages".toList, "nodes".toList, "edges".toList].Nodup
    decide
  · intro entry among
    simp only [List.mem_cons, List.not_mem_nil, or_false] at among
    rcases among with rfl | rfl | rfl | rfl | rfl | rfl | rfl | rfl
    all_goals first
      | trivial
      | exact pages
      | exact nodes
      | exact edges
      | exact jsonLike_ofMetadata.mpr (jsonMetadata_toJson _)

theorem jsonLike_recordToPayload {record : ProjectionRecord}
    (counts : ∀ page ∈ record.index.pages, CountsFinite page) :
    JsonLike (recordToPayload record) := by
  refine jsonLike_ofMetadata.mpr ⟨?_, ?_⟩
  · show ["schema_version".toList, "namespace".toList, "source_id".toList,
      "projection_signature".toList, "index".toList].Nodup
    decide
  · intro entry among
    simp only [List.mem_cons, List.not_mem_nil, or_false] at among
    rcases among with rfl | rfl | rfl | rfl | rfl
    case inr.inr.inr.inr => exact jsonLike_indexDump counts
    all_goals trivial

theorem readNode_dump (node : GraphNode) : readNode (nodeDump node) = some (rereadNode node) := by
  rw [readNode, nodeDump, readObject_ofMetadata]
  refine bind_of_some rfl (bind_of_some rfl (bind_of_some rfl (bind_of_some rfl ?_)))
  exact bind_of_some rfl (bind_of_some (readDict_ofMetadata _) rfl)

theorem readEdge_dump (edge : GraphEdge) : readEdge (edgeDump edge) = some (rereadEdge edge) := by
  rw [readEdge, edgeDump, readObject_ofMetadata]
  refine bind_of_some rfl (bind_of_some rfl (bind_of_some rfl (bind_of_some rfl ?_)))
  exact bind_of_some (readDict_ofMetadata _) rfl

def indexMembers (index : WikiIndex) : Metadata :=
  [("title", .str index.title), ("description", .str index.description),
    ("adapter", .str index.adapter), ("implementation", .str index.implementation),
    ("metadata", Value.ofMetadata (Value.metadataToJson index.metadata)),
    ("pages", Value.list (index.pages.map pageDump)),
    ("nodes", Value.list (index.nodes.map nodeDump)),
    ("edges", Value.list (index.edges.map edgeDump))]

variable (F : Type) [JsonNumbers F]

theorem readIndex_dump {index : WikiIndex} (counts : ∀ page ∈ index.pages, Counted page)
    (root : List Text) :
    readIndex F (indexMembers index) root = some (rereadIndex root index) := by
  have pages : field (indexMembers index) "pages" (readList (readPage F)) none =
      some (index.pages.map rereadPage) := by
    refine readList_list fun page pageIn => readPage_dump F fun okf found source sourceIn => ?_
    exact readNumber_count F (counts page pageIn okf found source sourceIn)
  have nodes : field (indexMembers index) "nodes" (readList readNode) none =
      some (index.nodes.map rereadNode) := readList_list fun node _ => readNode_dump node
  have edges : field (indexMembers index) "edges" (readList readEdge) none =
      some (index.edges.map rereadEdge) := readList_list fun edge _ => readEdge_dump edge
  unfold readIndex
  refine bind_of_some rfl (bind_of_some rfl (bind_of_some rfl (bind_of_some rfl ?_)))
  refine bind_of_some (readDict_ofMetadata _) (bind_of_some pages (bind_of_some nodes ?_))
  exact bind_of_some edges rfl

def recordMembers (record : ProjectionRecord) : Metadata :=
  [("schema_version", .str record.key.schemaVersion), ("namespace", .str record.key.namespace_),
    ("source_id", .str record.key.sourceId),
    ("projection_signature", .str record.key.projectionSignature),
    ("index", Value.ofMetadata (indexMembers record.index))]

omit [Interpreter] [JsonNumbers F] in
theorem bind_of_ok {Item Other : Type} {read : Except PayloadError Item} {item : Item}
    {next : Item → Except PayloadError Other} {result : Except PayloadError Other}
    (found : read = .ok item) (rest : next item = result) : (read >>= next) = result := by
  rw [found]
  exact rest

omit [Interpreter] [JsonNumbers F] in
theorem checkMember_bind {Item : Type} {members : Metadata} {name stored expected message : Text}
    {next : Unit → Except PayloadError Item} (found : member members name = .ok (.str stored)) :
    (checkMember members name expected message >>= next) =
      if stored = expected then next () else .error (.mismatch message) := by
  rw [checkMember, found]
  by_cases same : stored = expected
  · rw [if_pos same]
    exact bind_of_ok (if_pos same) rfl
  · rw [if_neg same]
    change (ite (stored = expected) (Except.ok ()) (.error (.mismatch message)) >>= next) = _
    rw [if_neg same]
    rfl

/-- The payload of a record is read back under the record's own key, and refused under others. -/
theorem projectionRecordFromPayload_payload {record : ProjectionRecord}
    (counts : ∀ page ∈ record.index.pages, Counted page) (key : ProjectionKey)
    (root : List Text) :
    projectionRecordFromPayload F key (recordToPayload record) root =
      if record.key.schemaVersion = key.schemaVersion then
        if record.key.namespace_ = key.namespace_ then
          if record.key.sourceId = key.sourceId then
            if record.key.projectionSignature = key.projectionSignature then
              .ok ⟨key, rereadIndex root record.index⟩
            else .error (.mismatch "projection payload signature mismatch")
          else .error (.mismatch "projection payload source_id mismatch")
        else .error (.mismatch "projection payload namespace mismatch")
      else .error (.mismatch "projection payload schema_version mismatch") := by
  have isObject : readObject (recordToPayload record) = some (recordMembers record) :=
    readObject_ofMetadata (recordMembers record)
  have members : mapping (recordToPayload record) = .ok (recordMembers record) := by
    simp only [mapping, isObject]
  have indexed : mapping (Value.ofMetadata (indexMembers record.index)) =
      .ok (indexMembers record.index) := by
    simp only [mapping, readObject_ofMetadata]
  have index : member (recordMembers record) "index" =
      .ok (Value.ofMetadata (indexMembers record.index)) := rfl
  refine bind_of_ok members ((checkMember_bind rfl).trans ?_)
  refine if_congr Iff.rfl ((checkMember_bind rfl).trans ?_) rfl
  refine if_congr Iff.rfl ((checkMember_bind rfl).trans ?_) rfl
  refine if_congr Iff.rfl ((checkMember_bind rfl).trans ?_) rfl
  refine if_congr Iff.rfl (bind_of_ok index (bind_of_ok indexed ?_)) rfl
  rw [readIndex_dump F counts]

theorem projectionRecordFromPayload_own {record : ProjectionRecord}
    (counts : ∀ page ∈ record.index.pages, Counted page) (root : List Text) :
    projectionRecordFromPayload F record.key (recordToPayload record) root =
      .ok ⟨record.key, rereadIndex root record.index⟩ := by
  rw [projectionRecordFromPayload_payload F counts, if_pos rfl, if_pos rfl, if_pos rfl, if_pos rfl]

theorem projectionRecordFromPayload_other {record : ProjectionRecord}
    (counts : ∀ page ∈ record.index.pages, Counted page) {key : ProjectionKey}
    (different : key ≠ record.key) (root : List Text) :
    ∃ message, projectionRecordFromPayload F key (recordToPayload record) root =
      .error (.mismatch message) := by
  rw [projectionRecordFromPayload_payload F counts]
  split
  next sameSchema =>
    split
    next sameNamespace =>
      split
      next sameSource =>
        split
        next sameSignature =>
          obtain ⟨⟨storedNamespace, storedSource, storedSignature, storedSchema⟩, index⟩ := record
          obtain ⟨askedNamespace, askedSource, askedSignature, askedSchema⟩ := key
          subst sameSchema sameNamespace sameSource sameSignature
          exact absurd rfl different
        next => exact ⟨_, rfl⟩
      next => exact ⟨_, rfl⟩
    next => exact ⟨_, rfl⟩
  next => exact ⟨_, rfl⟩

end Records

end LlmWikiServe.ProjectionPayload
