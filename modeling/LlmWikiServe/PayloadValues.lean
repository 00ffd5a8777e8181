import LlmWikiServe.ProjectionPayload
import LlmWikiServe.VisibilityGate

/-!
# Dumped values

Dumping a value keeps everything that JSON has, and its text is read back as the same value.
-/

namespace LlmWikiServe.ProjectionPayload

/-! ## Values that JSON has -/

section Values

mutual

def JsonLike : Value → Prop
  | .float value => value.number.isSome = true
  | .bytes _ => False
  | .date _ => False
  | .datetime _ => False
  | .sequence kind items => kind = .list ∧ JsonLikeItems items
  | .dict entries => ((textKeys entries).map Prod.fst).Nodup ∧ JsonLikeEntries entries
  | _ => True
termination_by structural value => value

def JsonLikeItems : List Value → Prop
  | [] => True
  | item :: items => JsonLike item ∧ JsonLikeItems items
termination_by structural items => items

def JsonLikeEntries : List (Value × Value) → Prop
  | [] => True
  | (key, value) :: entries => (∃ name, key = .str name) ∧ JsonLike value ∧ JsonLikeEntries entries
termination_by structural entries => entries

end

/-- A dictionary that a JSON object can hold. -/
structure JsonMetadata (metadata : Metadata) : Prop where
  distinct : (metadata.map Prod.fst).Nodup
  values : ∀ entry ∈ metadata, JsonLike entry.2

theorem jsonLikeItems_iff {items : List Value} :
    JsonLikeItems items ↔ ∀ item ∈ items, JsonLike item := by
  induction items with
  | nil => simp [JsonLikeItems]
  | cons item items inductionHypothesis => simp [JsonLikeItems, inductionHypothesis]

theorem textKeys_ofMetadata (metadata : Metadata) :
    textKeys (metadata.map fun entry => (.str entry.1, entry.2)) = metadata :=
  textKeys_of_plain (plainKeys_mappingEntries metadata)

theorem jsonLike_ofMetadata {metadata : Metadata} :
    JsonLike (Value.ofMetadata metadata) ↔ JsonMetadata metadata := by
  have entries : JsonLikeEntries (metadata.map fun entry => (.str entry.1, entry.2)) ↔
      ∀ entry ∈ metadata, JsonLike entry.2 := by
    induction metadata with
    | nil => simp [JsonLikeEntries]
    | cons entry rest inductionHypothesis => simp [JsonLikeEntries, inductionHypothesis]
  rw [Value.ofMetadata, JsonLike, textKeys_ofMetadata, entries]
  exact ⟨fun both => ⟨both.1, both.2⟩, fun both => ⟨both.distinct, both.values⟩⟩

theorem jsonLike_list {items : List Value} :
    JsonLike (Value.list items) ↔ ∀ item ∈ items, JsonLike item := by
  rw [Value.list, JsonLike, jsonLikeItems_iff]
  exact and_iff_right rfl

/-! ### Dumps are JSON -/

variable [Interpreter]

mutual

theorem jsonLike_toJson : ∀ value : Value, JsonLike value.toJson
  | .none => trivial
  | .bool _ => trivial
  | .int _ => trivial
  | .str _ => trivial
  | .bytes _ => trivial
  | .date _ => trivial
  | .datetime _ => trivial
  | .float value => by
      rw [Value.toJson]
      split
      next finite => exact finite
      next => trivial
  | .sequence kind items => by
      rw [Value.toJson, JsonLike]
      exact ⟨rfl, jsonLikeItems_toJson items⟩
  | .dict entries => by
      rw [Value.toJson]
      refine jsonLike_ofMetadata.mpr ⟨Keyed.nodup_map_fst_update List.nodup_nil, ?_⟩
      intro entry among
      rcases Keyed.mem_update among with old | new
      · exact absurd old List.not_mem_nil
      · exact jsonLike_toJsonEntries entries entry new
termination_by structural value => value

theorem jsonLikeItems_toJson : ∀ items : List Value, JsonLikeItems (Value.toJsonItems items)
  | [] => trivial
  | item :: items => ⟨jsonLike_toJson item, jsonLikeItems_toJson items⟩
termination_by structural items => items

theorem jsonLike_toJsonEntries : ∀ entries : List (Value × Value),
    ∀ entry ∈ Value.toJsonEntries entries, JsonLike entry.2
  | [] => fun _ among => absurd among List.not_mem_nil
  | (key, value) :: entries => by
      intro entry among
      rw [Value.toJsonEntries] at among
      rcases List.mem_cons.mp among with rfl | later
      · exact jsonLike_toJson value
      · exact jsonLike_toJsonEntries entries entry later
termination_by structural entries => entries

end

theorem jsonMetadata_toJson (metadata : Metadata) :
    JsonMetadata (Value.metadataToJson metadata) where
  distinct := Keyed.nodup_map_fst_update List.nodup_nil
  values entry among := by
    rcases Keyed.mem_update among with old | new
    · exact absurd old List.not_mem_nil
    · obtain ⟨source, -, rfl⟩ := List.mem_map.mp new
      exact jsonLike_toJson source.2

mutual

/-- A dump changes nothing that JSON has. -/
theorem toJson_of_jsonLike : ∀ value : Value, JsonLike value → value.toJson = value
  | .none, _ => rfl
  | .bool _, _ => rfl
  | .int _, _ => rfl
  | .str _, _ => rfl
  | .float value, finite => by
      rw [Value.toJson]
      exact if_pos finite
  | .sequence kind items, like => by
      rw [JsonLike] at like
      rw [Value.toJson, toJsonItems_of_jsonLike items like.2, like.1]
  | .dict entries, like => by
      rw [JsonLike] at like
      obtain ⟨same, restored⟩ := toJsonEntries_of_jsonLike entries like.2
      rw [Value.toJson, same, Keyed.update_nil like.1, Value.ofMetadata, restored]
  | .bytes _, like => by simp [JsonLike] at like
  | .date _, like => by simp [JsonLike] at like
  | .datetime _, like => by simp [JsonLike] at like
termination_by structural value => value

theorem toJsonItems_of_jsonLike :
    ∀ items : List Value, JsonLikeItems items → Value.toJsonItems items = items
  | [], _ => rfl
  | item :: items, like => by
      rw [JsonLikeItems] at like
      rw [Value.toJsonItems, toJson_of_jsonLike item like.1, toJsonItems_of_jsonLike items like.2]
termination_by structural items => items

theorem toJsonEntries_of_jsonLike : ∀ entries : List (Value × Value), JsonLikeEntries entries →
    Value.toJsonEntries entries = textKeys entries ∧
      ((textKeys entries).map fun entry => (Value.str entry.1, entry.2)) = entries
  | [], _ => ⟨rfl, rfl⟩
  | (key, value) :: entries, like => by
      rw [JsonLikeEntries] at like
      obtain ⟨⟨name, rfl⟩, likeValue, likeRest⟩ := like
      obtain ⟨same, restored⟩ := toJsonEntries_of_jsonLike entries likeRest
      have split : textKeys ((Value.str name, value) :: entries) =
          (name, value) :: textKeys entries := rfl
      constructor
      · rw [Value.toJsonEntries, toJson_of_jsonLike value likeValue, same, split]
        rfl
      · rw [split, List.map_cons, restored]
termination_by structural entries => entries

end

theorem metadataToJson_of_json {metadata : Metadata} (json : JsonMetadata metadata) :
    Value.metadataToJson metadata = metadata := by
  have same : (metadata.map fun entry => (entry.1, Value.toJson entry.2)) = metadata := by
    calc
      (metadata.map fun entry => (entry.1, Value.toJson entry.2)) = metadata.map id := by
        apply List.map_congr_left
        intro entry among
        rw [toJson_of_jsonLike entry.2 (json.values entry among)]
        rfl
      _ = metadata := List.map_id metadata
  rw [Value.metadataToJson, same, Keyed.update_nil json.distinct]

end Values

/-! ## Texts -/

section Texts

variable {F : Type} [JsonNumbers F]

mutual

theorem ofJson_asJson : ∀ value : Value, JsonLike value → ofJson (asJson value : Json F) = value
  | .none, _ => rfl
  | .bool _, _ => rfl
  | .int _, _ => rfl
  | .str _, _ => rfl
  | .float value, finite => by
      rw [asJson, ofJson, JsonNumbers.toFloat_ofFloat value finite]
  | .sequence kind items, like => by
      rw [JsonLike] at like
      rw [asJson, ofJson, ofJsonItems_asJsonItems items like.2, like.1]
  | .dict entries, like => by
      rw [JsonLike] at like
      rw [asJson, ofJson, ofJsonMembers_asJsonEntries entries like.2]
  | .bytes _, like => by simp [JsonLike] at like
  | .date _, like => by simp [JsonLike] at like
  | .datetime _, like => by simp [JsonLike] at like
termination_by structural value => value

theorem ofJsonItems_asJsonItems : ∀ items : List Value, JsonLikeItems items →
    ofJsonItems (asJsonItems items : List (Json F)) = items
  | [], _ => rfl
  | item :: items, like => by
      rw [JsonLikeItems] at like
      rw [asJsonItems, ofJsonItems, ofJson_asJson item like.1, ofJsonItems_asJsonItems items like.2]
termination_by structural items => items

theorem ofJsonMembers_asJsonEntries : ∀ entries : List (Value × Value), JsonLikeEntries entries →
    ofJsonMembers (asJsonEntries entries : List (Text × Json F)) = entries
  | [], _ => rfl
  | (key, value) :: entries, like => by
      rw [JsonLikeEntries] at like
      obtain ⟨⟨name, rfl⟩, likeValue, likeRest⟩ := like
      rw [asJsonEntries, memberName, ofJsonMembers, ofJson_asJson value likeValue,
        ofJsonMembers_asJsonEntries entries likeRest]
termination_by structural entries => entries

end

theorem map_fst_asJsonEntries {entries : List (Value × Value)} (like : JsonLikeEntries entries) :
    (asJsonEntries entries : List (Text × Json F)).map Prod.fst =
      (textKeys entries).map Prod.fst := by
  induction entries with
  | nil => rfl
  | cons entry rest inductionHypothesis =>
      obtain ⟨key, value⟩ := entry
      rw [JsonLikeEntries] at like
      obtain ⟨⟨name, rfl⟩, -, likeRest⟩ := like
      exact congrArg (List.cons name) (inductionHypothesis likeRest)

mutual

theorem distinct_asJson : ∀ value : Value, JsonLike value → (asJson value : Json F).Distinct
  | .none, _ => trivial
  | .bool _, _ => trivial
  | .int _, _ => trivial
  | .str _, _ => trivial
  | .float _, _ => trivial
  | .bytes _, _ => trivial
  | .date _, _ => trivial
  | .datetime _, _ => trivial
  | .sequence kind items, like => by
      rw [JsonLike] at like
      rw [asJson, Json.Distinct]
      exact distinct_asJsonItems items like.2
  | .dict entries, like => by
      rw [JsonLike] at like
      rw [asJson, Json.Distinct, map_fst_asJsonEntries like.2]
      exact ⟨like.1, distinct_asJsonEntries entries like.2⟩
termination_by structural value => value

theorem distinct_asJsonItems : ∀ items : List Value, JsonLikeItems items →
    Json.DistinctItems (asJsonItems items : List (Json F))
  | [], _ => trivial
  | item :: items, like => by
      rw [JsonLikeItems] at like
      exact ⟨distinct_asJson item like.1, distinct_asJsonItems items like.2⟩
termination_by structural items => items

theorem distinct_asJsonEntries : ∀ entries : List (Value × Value), JsonLikeEntries entries →
    Json.DistinctMembers (asJsonEntries entries : List (Text × Json F))
  | [], _ => trivial
  | (key, value) :: entries, like => by
      rw [JsonLikeEntries] at like
      exact ⟨distinct_asJson value like.2.1, distinct_asJsonEntries entries like.2.2⟩
termination_by structural entries => entries

end

variable (F) [Json.FloatRepr F]

/-- What is dumped as text is read back. -/
theorem jsonLoads_jsonDumps {value : Value} (like : JsonLike value) :
    jsonLoads F (jsonDumps F value) = some value := by
  have distinct : (asJson value : Json F).Distinct := distinct_asJson value like
  have loaded := Json.loads_print .standard distinct
    (List.all_nil : ([] : Text).all Json.isBlank = true)
  rw [List.append_nil] at loaded
  rw [jsonLoads, jsonDumps, loaded, Option.map_some, ofJson_asJson value like]

end Texts

/-! ## Models -/

section Models

theorem readObject_ofMetadata (metadata : Metadata) :
    readObject (Value.ofMetadata metadata) = some metadata := by
  rw [Value.ofMetadata, readObject, textKeys_ofMetadata]

theorem readDict_ofMetadata (metadata : Metadata) :
    readDict (Value.ofMetadata metadata) = some metadata :=
  stringKeys_of_plain (plainKeys_mappingEntries metadata)

theorem mapM_some_map {Item Other : Type} {read : Value → Option Other} {dump : Item → Value}
    {image : Item → Other} {items : List Item}
    (each : ∀ item ∈ items, read (dump item) = some (image item)) :
    (items.map dump).mapM read = some (items.map image) := by
  induction items with
  | nil => rfl
  | cons item items inductionHypothesis =>
      rw [List.map_cons, List.mapM_cons, each item List.mem_cons_self,
        inductionHypothesis fun other among => each other (List.mem_cons_of_mem item among)]
      rfl

theorem readList_list {Item Other : Type} {read : Value → Option Other} {dump : Item → Value}
    {image : Item → Other} {items : List Item}
    (each : ∀ item ∈ items, read (dump item) = some (image item)) :
    readList read (Value.list (items.map dump)) = some (items.map image) :=
  mapM_some_map each

theorem readList_texts (values : List Text) : readList readText (texts values) = some values := by
  have read := @readList_list Text Text readText Value.str id values fun _ _ => rfl
  rwa [List.map_id] at read

def IsCount (value : Value) : Prop :=
  value = .none ∨ (∃ number, value = .int number) ∨ ∃ number, value = .float number

theorem readNumber_count (F : Type) [JsonNumbers F] {value : Value} (count : IsCount value) :
    readNumber F value = some value := by
  rcases count with rfl | ⟨number, rfl⟩ | ⟨number, rfl⟩ <;> rfl

theorem bind_of_some {Item Other : Type} {read : Option Item} {item : Item}
    {next : Item → Option Other} {result : Option Other} (found : read = some item)
    (rest : next item = result) : (read >>= next) = result := by
  rw [found]
  exact rest

end Models

end LlmWikiServe.ProjectionPayload
