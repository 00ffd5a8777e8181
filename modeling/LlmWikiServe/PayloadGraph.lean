import LlmWikiServe.PayloadValues
import LlmWikiServe.ProjectionClosure

/-!
# Metadata of the projected graph

Every node and every edge of a projected wiki has metadata that JSON can hold.
-/

namespace LlmWikiServe.ProjectionPayload

section Graph

theorem jsonMetadata_nil : JsonMetadata [] where
  distinct := List.nodup_nil
  values _ among := absurd among List.not_mem_nil

theorem jsonMetadata_update {metadata more : Metadata} (json : JsonMetadata metadata)
    (values : ∀ entry ∈ more, JsonLike entry.2) : JsonMetadata (Keyed.update metadata more) where
  distinct := Keyed.nodup_map_fst_update json.distinct
  values entry among := by
    rcases Keyed.mem_update among with old | new
    · exact json.values entry old
    · exact values entry new

theorem jsonMetadata_set {metadata : Metadata} (json : JsonMetadata metadata) {value : Value}
    (like : JsonLike value) (name : Text) : JsonMetadata (Keyed.set metadata name value) where
  distinct := Keyed.nodup_map_fst_set json.distinct name value
  values entry among := by
    rcases Keyed.mem_set among with rfl | old
    · exact like
    · exact json.values entry old

structure JsonItems (part : Emission) : Prop where
  nodes : ∀ node ∈ part.nodes, JsonMetadata node.metadata
  edges : ∀ edge ∈ part.edges, JsonMetadata edge.metadata

namespace JsonItems

theorem none : JsonItems Emission.none where
  nodes _ among := absurd among List.not_mem_nil
  edges _ among := absurd among List.not_mem_nil

theorem append {first second : Emission} (left : JsonItems first) (right : JsonItems second) :
    JsonItems (first.append second) where
  nodes node among := (List.mem_append.mp among).elim (left.nodes node) (right.nodes node)
  edges edge among := (List.mem_append.mp among).elim (left.edges edge) (right.edges edge)

theorem concat {parts : List Emission} (each : ∀ part ∈ parts, JsonItems part) :
    JsonItems (Emission.concat parts) where
  nodes node among := by
    obtain ⟨part, partIn, inPart⟩ := List.mem_flatMap.mp among
    exact (each part partIn).nodes node inPart
  edges edge among := by
    obtain ⟨part, partIn, inPart⟩ := List.mem_flatMap.mp among
    exact (each part partIn).edges edge inPart

theorem concat_map {Item : Type} {items : List Item} {emit : Item → Emission}
    (each : ∀ item ∈ items, JsonItems (emit item)) :
    JsonItems (Emission.concat (items.map emit)) := by
  apply concat
  intro part among
  obtain ⟨item, itemIn, rfl⟩ := List.mem_map.mp among
  exact each item itemIn

theorem pair {node : GraphNode} {edge : GraphEdge} (left : JsonMetadata node.metadata)
    (right : JsonMetadata edge.metadata) : JsonItems ⟨[node], [edge]⟩ where
  nodes other among := by
    rw [List.mem_singleton.mp among]
    exact left
  edges other among := by
    rw [List.mem_singleton.mp among]
    exact right

theorem edge {edge : GraphEdge} (json : JsonMetadata edge.metadata) : JsonItems ⟨[], [edge]⟩ where
  nodes _ among := absurd among List.not_mem_nil
  edges other among := by
    rw [List.mem_singleton.mp among]
    exact json

end JsonItems

theorem jsonMetadata_texts {entries : List (Text × Text)}
    (distinct : (entries.map Prod.fst).Nodup) :
    JsonMetadata (entries.map fun entry => (entry.1, .str entry.2)) where
  distinct := by
    rw [List.map_map]
    exact distinct
  values entry among := by
    obtain ⟨source, -, rfl⟩ := List.mem_map.mp among
    trivial

theorem jsonMetadata_profile : JsonMetadata [okfProfile] :=
  @jsonMetadata_texts [("source_profile", "okf-v0.2")] (by decide)

theorem jsonMetadata_sourced (source : Text) :
    JsonMetadata [("source", .str source), okfProfile] :=
  @jsonMetadata_texts [("source", source), ("source_profile", "okf-v0.2")]
    (by show ["source".toList, "source_profile".toList].Nodup; decide)

theorem jsonMetadata_unresolved (source : Text) : JsonMetadata (unresolvedMetadata source) where
  distinct := by
    show ["unresolved".toList, "source".toList].Nodup
    decide
  values entry among := by
    simp only [unresolvedMetadata, List.mem_cons, List.not_mem_nil, or_false] at among
    rcases among with rfl | rfl
    · trivial
    · trivial

/-- The usage counts of a page's sources are numbers that JSON has. -/
def CountsFinite (page : WikiPage) : Prop :=
  ∀ okf, page.okf = some okf → ∀ source ∈ okf.sources, JsonLike source.usageCount

variable [Interpreter]

theorem jsonLike_sourceDump {source : OkfSource} (count : JsonLike source.usageCount) :
    JsonLike source.dump := by
  refine jsonLike_ofMetadata.mpr ⟨?_, ?_⟩
  · show ["id".toList, "resource".toList, "title".toList, "author".toList, "usage_count".toList,
      "last_modified".toList, "usage_window".toList, "extra".toList].Nodup
    decide
  · intro entry among
    simp only [List.mem_cons, List.not_mem_nil, or_false] at among
    rcases among with rfl | rfl | rfl | rfl | rfl | rfl | rfl | rfl
    case inr.inr.inr.inr.inl => exact count
    case inr.inr.inr.inr.inr.inr.inl => exact jsonLike_ofMetadata.mpr (jsonMetadata_toJson _)
    case inr.inr.inr.inr.inr.inr.inr => exact jsonLike_ofMetadata.mpr (jsonMetadata_toJson _)
    all_goals trivial

omit [Interpreter] in
theorem jsonLike_actorDump (event : OkfActorEvent) : JsonLike event.dump := by
  refine jsonLike_ofMetadata.mpr ⟨?_, ?_⟩
  · show ["by".toList, "at".toList].Nodup
    decide
  · intro entry among
    simp only [List.mem_cons, List.not_mem_nil, or_false] at among
    rcases among with rfl | rfl
    · trivial
    · trivial

theorem jsonLike_okfDump {okf : OkfMetadata}
    (counts : ∀ source ∈ okf.sources, JsonLike source.usageCount) : JsonLike okf.dump := by
  have metadata : ∀ metadata : Metadata,
      JsonLike (Value.ofMetadata (Value.metadataToJson metadata)) :=
    fun metadata => jsonLike_ofMetadata.mpr (jsonMetadata_toJson metadata)
  have generated : JsonLike ((okf.generated.map OkfActorEvent.dump).getD .none) := by
    cases okf.generated with
    | none => trivial
    | some event => exact jsonLike_actorDump event
  have verified : JsonLike (Value.list (okf.verified.map OkfActorEvent.dump)) := by
    refine jsonLike_list.mpr fun item among => ?_
    obtain ⟨event, -, rfl⟩ := List.mem_map.mp among
    exact jsonLike_actorDump event
  have parameters : JsonLike (Value.list (okf.parameters.map fun entry =>
      Value.ofMetadata (Value.metadataToJson entry))) := by
    refine jsonLike_list.mpr fun item among => ?_
    obtain ⟨entry, -, rfl⟩ := List.mem_map.mp among
    exact metadata entry
  have sources : JsonLike (Value.list (okf.sources.map OkfSource.dump)) := by
    refine jsonLike_list.mpr fun item among => ?_
    obtain ⟨source, sourceIn, rfl⟩ := List.mem_map.mp among
    exact jsonLike_sourceDump (counts source sourceIn)
  refine jsonLike_ofMetadata.mpr ⟨?_, ?_⟩
  · show ["version".toList, "role".toList, "concept_type".toList, "description".toList,
      "resource".toList, "generated".toList, "verified".toList, "trust_tier".toList,
      "status".toList, "stale_after".toList, "usage_window".toList, "runtime".toList,
      "parameters".toList, "computation".toList, "executor".toList, "attester".toList,
      "sources".toList, "extra".toList].Nodup
    decide
  · intro entry among
    simp only [List.mem_cons, List.not_mem_nil, or_false] at among
    rcases among with rfl | rfl | rfl | rfl | rfl | rfl | rfl | rfl | rfl | rfl | rfl | rfl | rfl |
      rfl | rfl | rfl | rfl | rfl
    all_goals first
      | trivial
      | exact metadata _

theorem jsonMetadata_pageNode {loaded : LoadedWiki} (json : JsonMetadata loaded.metadata)
    {page : WikiPage} (counts : CountsFinite page) :
    JsonMetadata (pageNode loaded page).metadata := by
  have base : JsonMetadata
      [("adapter", .str loaded.adapter), ("implementation", .str loaded.implementation)] :=
    @jsonMetadata_texts
      [("adapter", loaded.adapter), ("implementation", loaded.implementation)]
      (by show ["adapter".toList, "implementation".toList].Nodup; decide)
  have okf : JsonLike ((page.okf.map OkfMetadata.dump).getD (Value.ofMetadata [])) := by
    cases shape : page.okf with
    | none => exact jsonLike_ofMetadata.mpr jsonMetadata_nil
    | some okf => exact jsonLike_okfDump (counts okf shape)
  have refs : JsonLike (Value.list (page.sourceRefs.map Value.str)) := by
    refine jsonLike_list.mpr fun item among => ?_
    obtain ⟨ref, -, rfl⟩ := List.mem_map.mp among
    trivial
  refine jsonMetadata_update (jsonMetadata_update base json.values) ?_
  intro entry among
  simp only [List.mem_cons, List.not_mem_nil, or_false] at among
  rcases among with rfl | rfl | rfl
  · exact refs
  · trivial
  · exact okf

omit [Interpreter] in
theorem jsonMetadata_unresolvedLink : JsonMetadata [(("unresolved" : Text), .bool true)] where
  distinct := List.nodup_singleton _
  values entry among := by
    rw [List.mem_singleton.mp among]
    trivial

/-! ### Producers -/

variable [Unicode]

omit [Interpreter] [Unicode] in
theorem projectSourceRef_json (page : WikiPage) (ref : Text) :
    JsonItems (projectSourceRef page ref) := by
  unfold projectSourceRef
  split
  · exact .none
  · exact .pair jsonMetadata_nil jsonMetadata_nil

omit [Interpreter] in
theorem projectLink_json (lookup : List (Text × WikiPage)) (page : WikiPage) (link : Text) :
    JsonItems (projectLink lookup page link) := by
  unfold projectLink
  split
  · exact .edge jsonMetadata_nil
  · exact .pair (jsonMetadata_unresolved _) jsonMetadata_unresolvedLink

omit [Interpreter] in
theorem projectOkfMetadata_json (page : WikiPage) (okf : OkfMetadata) :
    JsonItems (projectOkfMetadata page okf) := by
  apply JsonItems.append
  · split
    · exact .none
    · exact .pair jsonMetadata_profile (jsonMetadata_sourced _)
  · split
    · exact .none
    · exact .pair jsonMetadata_profile (jsonMetadata_sourced _)

omit [Unicode] in
theorem projectOkfSource_json (page : WikiPage) {source : OkfSource}
    (count : JsonLike source.usageCount) : JsonItems (projectOkfSource page source) := by
  refine .pair ⟨?_, ?_⟩ (jsonMetadata_sourced _)
  · show ["source_profile".toList, "okf".toList].Nodup
    decide
  · intro entry among
    simp only [List.mem_cons, List.not_mem_nil, or_false] at among
    rcases among with rfl | rfl
    · trivial
    · exact jsonLike_sourceDump count

theorem projectOkf_json {page : WikiPage} (counts : CountsFinite page) :
    JsonItems (projectOkf page) := by
  unfold projectOkf
  split
  · exact .none
  next okf found =>
    exact (projectOkfMetadata_json page okf).append
      (.concat_map fun source sourceIn =>
        projectOkfSource_json page (counts okf found source sourceIn))

theorem projectPage_json (lookup : List (Text × WikiPage)) {page : WikiPage}
    (counts : CountsFinite page) : JsonItems (projectPage lookup page) := by
  apply JsonItems.concat
  intro part partIn
  simp only [List.mem_cons, List.not_mem_nil, or_false] at partIn
  rcases partIn with rfl | rfl | rfl | rfl | rfl
  · exact .concat_map fun heading _ => .pair jsonMetadata_nil jsonMetadata_nil
  · exact projectOkf_json counts
  · exact .concat_map fun ref _ => projectSourceRef_json page ref
  · exact .concat_map fun tag _ => .pair jsonMetadata_nil jsonMetadata_nil
  · exact .concat_map fun link _ => projectLink_json lookup page link

omit [Interpreter] in
theorem projectDendronParent_json (lookup : List (Text × WikiPage)) (page : WikiPage) :
    JsonItems (projectDendronParent lookup page) := by
  have origin : JsonMetadata [(("source" : Text), .str "dendron_hierarchy")] :=
    @jsonMetadata_texts [("source", "dendron_hierarchy")] (List.nodup_singleton _)
  unfold projectDendronParent
  dsimp only
  split
  · split
    · exact .edge origin
    · exact .pair (jsonMetadata_unresolved _) origin
  · exact .none

def ConfidenceFinite (fact : SidecarGraphEdgeFact) : Prop :=
  ∀ value, fact.confidence = some value → JsonLike value

theorem projectGraphFact_json (lookup : List (Text × WikiPage)) {fact : SidecarGraphEdgeFact}
    (finite : ConfidenceFinite fact) : JsonItems (projectGraphFact lookup fact) := by
  have endpoint : ∀ (value : Text) (page : Option WikiPage) (path : Text),
      ∀ node ∈ (graphEndpoint value page path).2, JsonMetadata node.metadata := by
    intro value page path node among
    unfold graphEndpoint at among
    split at among
    · cases among
    · rw [List.mem_singleton.mp among]
      exact jsonMetadata_unresolved _
  unfold projectGraphFact
  dsimp only
  split
  · exact .none
  · constructor
    · intro node among
      rcases List.mem_append.mp among with first | second
      · exact endpoint _ _ _ node first
      · exact endpoint _ _ _ node second
    · intro edge among
      rw [List.mem_singleton.mp among]
      cases found : fact.confidence with
      | none =>
          exact @jsonMetadata_texts [("source", fact.source), ("path", fact.path)]
            (by show ["source".toList, "path".toList].Nodup; decide)
      | some value =>
          constructor
          · show ["source".toList, "path".toList, "confidence".toList].Nodup
            decide
          · intro entry entryIn
            simp only [List.cons_append, List.nil_append, List.mem_cons, List.not_mem_nil,
              or_false] at entryIn
            rcases entryIn with rfl | rfl | rfl
            · trivial
            · trivial
            · exact finite value found

/-! ### Merged edges -/

omit [Interpreter] [Unicode] in
theorem jsonLike_added {values : List Value} {incoming : Value}
    (kept : ∀ item ∈ values, JsonLike item) (new : JsonLike incoming) :
    ∀ item ∈ if incoming.isIn values then values else values ++ [incoming], JsonLike item := by
  intro item among
  split at among
  · exact kept item among
  · rcases List.mem_append.mp among with old | last
    · exact kept item old
    · rw [List.mem_singleton.mp last]
      exact new

omit [Interpreter] [Unicode] in
theorem jsonLike_mergeMetadataValue {existing incoming : Value} (kept : JsonLike existing)
    (new : JsonLike incoming) : JsonLike (mergeMetadataValue existing incoming) := by
  unfold mergeMetadataValue
  refine jsonLike_list.mpr ?_
  split
  next items =>
    rw [JsonLike] at kept
    exact jsonLike_added (jsonLikeItems_iff.mp kept.2) new
  · exact jsonLike_added (fun item among => List.mem_singleton.mp among ▸ kept) new

omit [Interpreter] [Unicode] in
theorem jsonMetadata_mergeMetadataEntry {merged : Metadata} (json : JsonMetadata merged)
    {entry : Text × Value} (like : JsonLike entry.2) :
    JsonMetadata (mergeMetadataEntry merged entry) := by
  unfold mergeMetadataEntry
  split
  · exact jsonMetadata_set json like _
  · exact jsonMetadata_set json like _
  · exact jsonMetadata_set json like _
  next existing found =>
    split
    · exact json
    · have kept := json.values _ (Keyed.mem_of_get? found)
      exact jsonMetadata_set json (jsonLike_mergeMetadataValue kept like) _

omit [Interpreter] [Unicode] in
theorem jsonMetadata_mergeEdge {kept incoming : GraphEdge} (first : JsonMetadata kept.metadata)
    (second : JsonMetadata incoming.metadata) :
    JsonMetadata (mergeEdge kept incoming).metadata := by
  have all : ∀ (entries merged : Metadata), (∀ entry ∈ entries, JsonLike entry.2) →
      JsonMetadata merged → JsonMetadata (entries.foldl mergeMetadataEntry merged) := by
    intro entries
    induction entries with
    | nil => exact fun _ _ json => json
    | cons entry rest inductionHypothesis =>
        intro merged values json
        exact inductionHypothesis _ (fun other among => values other (List.mem_cons_of_mem _ among))
          (jsonMetadata_mergeMetadataEntry json (values entry List.mem_cons_self))
  exact all incoming.metadata kept.metadata second.values first

/-! ### The projection -/

theorem emission_json {loaded : LoadedWiki} (json : JsonMetadata loaded.metadata)
    (counts : ∀ page ∈ loaded.pages, CountsFinite page)
    (confidences : ∀ fact ∈ loaded.sidecarGraphEdges, ConfidenceFinite fact) :
    JsonItems loaded.emission := by
  have pages : JsonItems ⟨loaded.pages.map (pageNode loaded), []⟩ := by
    constructor
    · intro node among
      obtain ⟨page, pageIn, rfl⟩ := List.mem_map.mp among
      exact jsonMetadata_pageNode json (counts page pageIn)
    · exact fun _ among => absurd among List.not_mem_nil
  refine pages.append (.append ?_ (.append ?_ ?_))
  · exact .concat_map fun page pageIn => projectPage_json _ (counts page pageIn)
  · unfold projectDendronHierarchy
    split
    · exact .none
    · exact .concat_map fun page _ => projectDendronParent_json _ page
  · exact .concat_map fun fact factIn => projectGraphFact_json _ (confidences fact factIn)

/-- Nodes and edges of a projected wiki carry metadata that JSON can hold. -/
theorem projectWiki_json {loaded : LoadedWiki} (json : JsonMetadata loaded.metadata)
    (counts : ∀ page ∈ loaded.pages, CountsFinite page)
    (confidences : ∀ fact ∈ loaded.sidecarGraphEdges, ConfidenceFinite fact) :
    JsonItems ⟨(projectWiki loaded).nodes, (projectWiki loaded).edges⟩ := by
  have items := emission_json json counts confidences
  constructor
  · exact fun node among => items.nodes node (Keyed.mem_of_mem_firstWins among)
  · intro edge among
    obtain ⟨head, rest, shape, rfl⟩ := Keyed.mem_mergeWins mergeEdge_key among
    have all : ∀ other ∈ head :: rest, JsonMetadata other.metadata := by
      intro other otherIn
      rw [← shape] at otherIn
      exact items.edges other (List.mem_of_mem_filter otherIn)
    clear shape among
    induction rest generalizing head with
    | nil => exact all head List.mem_cons_self
    | cons next rest inductionHypothesis =>
        refine inductionHypothesis (mergeEdge head next) fun other otherIn => ?_
        rcases List.mem_cons.mp otherIn with rfl | later
        · exact jsonMetadata_mergeEdge (all head List.mem_cons_self)
            (all next (List.mem_cons_of_mem _ List.mem_cons_self))
        · exact all other (List.mem_cons_of_mem _ (List.mem_cons_of_mem _ later))

end Graph

end LlmWikiServe.ProjectionPayload
