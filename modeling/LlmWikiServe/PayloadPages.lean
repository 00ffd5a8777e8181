import LlmWikiServe.PayloadValues

/-!
# Pages that are read again

A page read from its dump keeps its texts, its lists and the decision whether it is served,
although dates of its frontmatter become texts.
-/

namespace LlmWikiServe.ProjectionPayload

section Pages

variable [Interpreter]

/-- The source without what JSON does not have. -/
def rereadSource (source : OkfSource) : OkfSource :=
  { source with
    usageWindow := Value.metadataToJson source.usageWindow
    extra := Value.metadataToJson source.extra }

def rereadOkf (okf : OkfMetadata) : OkfMetadata :=
  { okf with
    usageWindow := Value.metadataToJson okf.usageWindow
    parameters := okf.parameters.map Value.metadataToJson
    executor := Value.metadataToJson okf.executor
    attester := Value.metadataToJson okf.attester
    sources := okf.sources.map rereadSource
    extra := Value.metadataToJson okf.extra }

def rereadPage (page : WikiPage) : WikiPage :=
  { page with
    frontmatter := Value.metadataToJson page.frontmatter
    okf := page.okf.map rereadOkf }

omit [Interpreter] in
theorem readActorEvent_dump (event : OkfActorEvent) :
    readActorEvent event.dump = some event := by
  rw [readActorEvent, OkfActorEvent.dump, readObject_ofMetadata]
  rfl

def sourceMembers (source : OkfSource) : Metadata :=
  [("id", .str source.id), ("resource", .str source.resource), ("title", .str source.title),
    ("author", .str source.author), ("usage_count", source.usageCount),
    ("last_modified", .str source.lastModified),
    ("usage_window", Value.ofMetadata (Value.metadataToJson source.usageWindow)),
    ("extra", Value.ofMetadata (Value.metadataToJson source.extra))]

theorem sourceDump_eq (source : OkfSource) :
    source.dump = Value.ofMetadata (sourceMembers source) := rfl

variable (F : Type) [JsonNumbers F]

theorem readOkfSource_dump {source : OkfSource}
    (count : readNumber F source.usageCount = some source.usageCount) :
    readOkfSource F source.dump = some (rereadSource source) := by
  have usageCount : field (sourceMembers source) "usage_count" (readNumber F) (some .none) =
      some source.usageCount := count
  have usageWindow : field (sourceMembers source) "usage_window" readDict (some []) =
      some (Value.metadataToJson source.usageWindow) := readDict_ofMetadata _
  have extra : field (sourceMembers source) "extra" readDict (some []) =
      some (Value.metadataToJson source.extra) := readDict_ofMetadata _
  rw [readOkfSource, sourceDump_eq, readObject_ofMetadata]
  simp only [Option.bind_eq_bind, Option.bind_some, usageCount, usageWindow, extra]
  rfl

def okfMembers (okf : OkfMetadata) : Metadata :=
  [("version", .str okf.version), ("role", .str okf.role.text),
    ("concept_type", .str okf.conceptType), ("description", .str okf.description),
    ("resource", .str okf.resource),
    ("generated", (okf.generated.map OkfActorEvent.dump).getD .none),
    ("verified", Value.list (okf.verified.map OkfActorEvent.dump)),
    ("trust_tier", .str okf.trustTier.text), ("status", .str okf.status),
    ("stale_after", .str okf.staleAfter),
    ("usage_window", Value.ofMetadata (Value.metadataToJson okf.usageWindow)),
    ("runtime", .str okf.runtime),
    ("parameters", Value.list (okf.parameters.map fun entry =>
      Value.ofMetadata (Value.metadataToJson entry))),
    ("computation", .str okf.computation),
    ("executor", Value.ofMetadata (Value.metadataToJson okf.executor)),
    ("attester", Value.ofMetadata (Value.metadataToJson okf.attester)),
    ("sources", Value.list (okf.sources.map OkfSource.dump)),
    ("extra", Value.ofMetadata (Value.metadataToJson okf.extra))]

theorem okfDump_eq (okf : OkfMetadata) : okf.dump = Value.ofMetadata (okfMembers okf) := rfl

theorem readOkf_dump {okf : OkfMetadata}
    (counts : ∀ source ∈ okf.sources, readNumber F source.usageCount = some source.usageCount) :
    readOkf F okf.dump = some (rereadOkf okf) := by
  have role : field (okfMembers okf) "role" (readChoice okfDocumentRoles OkfDocumentRole.text)
      (some .concept) = some okf.role := by
    change readChoice okfDocumentRoles OkfDocumentRole.text (.str okf.role.text) = some okf.role
    cases okf.role <;> rfl
  have generated : field (okfMembers okf) "generated" (readOptional readActorEvent) (some none) =
      some okf.generated := by
    change readOptional readActorEvent ((okf.generated.map OkfActorEvent.dump).getD .none) =
      some okf.generated
    cases okf.generated with
    | none => rfl
    | some event => exact congrArg (Option.map some) (readActorEvent_dump event)
  have verified : field (okfMembers okf) "verified" (readList readActorEvent) (some []) =
      some okf.verified := by
    have events := @readList_list OkfActorEvent OkfActorEvent readActorEvent OkfActorEvent.dump id
      okf.verified fun event _ => readActorEvent_dump event
    rwa [List.map_id] at events
  have trustTier : field (okfMembers okf) "trust_tier"
      (readChoice okfTrustTiers OkfTrustTier.text) (some .unverified) = some okf.trustTier := by
    change readChoice okfTrustTiers OkfTrustTier.text (.str okf.trustTier.text) =
      some okf.trustTier
    cases okf.trustTier <;> rfl
  have dictionary : ∀ metadata : Metadata,
      readDict (Value.ofMetadata (Value.metadataToJson metadata)) =
        some (Value.metadataToJson metadata) := fun _ => readDict_ofMetadata _
  have usageWindow : field (okfMembers okf) "usage_window" readDict (some []) =
      some (Value.metadataToJson okf.usageWindow) := dictionary _
  have parameters : field (okfMembers okf) "parameters" (readList readDict) (some []) =
      some (okf.parameters.map Value.metadataToJson) :=
    readList_list fun entry _ => dictionary entry
  have executor : field (okfMembers okf) "executor" readDict (some []) =
      some (Value.metadataToJson okf.executor) := dictionary _
  have attester : field (okfMembers okf) "attester" readDict (some []) =
      some (Value.metadataToJson okf.attester) := dictionary _
  have sources : field (okfMembers okf) "sources" (readList (readOkfSource F)) (some []) =
      some (okf.sources.map rereadSource) :=
    readList_list fun source sourceIn => readOkfSource_dump F (counts source sourceIn)
  have extra : field (okfMembers okf) "extra" readDict (some []) =
      some (Value.metadataToJson okf.extra) := dictionary _
  rw [readOkf, okfDump_eq, readObject_ofMetadata]
  refine bind_of_some rfl (bind_of_some rfl (bind_of_some role (bind_of_some rfl ?_)))
  refine bind_of_some rfl (bind_of_some rfl (bind_of_some generated (bind_of_some verified ?_)))
  refine bind_of_some trustTier (bind_of_some rfl (bind_of_some rfl ?_))
  refine bind_of_some usageWindow (bind_of_some rfl (bind_of_some parameters ?_))
  refine bind_of_some rfl (bind_of_some executor (bind_of_some attester ?_))
  exact bind_of_some sources (bind_of_some extra rfl)

def pageMembers (page : WikiPage) : Metadata :=
  [("id", .str page.id), ("title", .str page.title), ("path", .str page.path),
    ("role", .str page.role.text), ("text", .str page.text), ("summary", .str page.summary),
    ("frontmatter", Value.ofMetadata (Value.metadataToJson page.frontmatter)),
    ("review_state", .str page.reviewState.text), ("status", .str page.status),
    ("source_refs", texts page.sourceRefs), ("tags", texts page.tags),
    ("links", texts page.links), ("headings", texts page.headings),
    ("updated_at", .str page.updatedAt), ("okf", (page.okf.map OkfMetadata.dump).getD .none)]

theorem pageDump_eq (page : WikiPage) : pageDump page = Value.ofMetadata (pageMembers page) := rfl

/-- A page is read back with its texts and its lists. -/
theorem readPage_dump {page : WikiPage}
    (counts : ∀ okf, page.okf = some okf → ∀ source ∈ okf.sources,
      readNumber F source.usageCount = some source.usageCount) :
    readPage F (pageDump page) = some (rereadPage page) := by
  have role : field (pageMembers page) "role" (readChoice pageRoles PageRole.text) none =
      some page.role := by
    change readChoice pageRoles PageRole.text (.str page.role.text) = some page.role
    cases page.role <;> rfl
  have frontmatter : field (pageMembers page) "frontmatter" readDict (some []) =
      some (Value.metadataToJson page.frontmatter) := readDict_ofMetadata _
  have reviewState : field (pageMembers page) "review_state"
      (readChoice reviewStates ReviewState.text) (some .unknown) = some page.reviewState := by
    change readChoice reviewStates ReviewState.text (.str page.reviewState.text) =
      some page.reviewState
    cases page.reviewState <;> rfl
  have sourceRefs : field (pageMembers page) "source_refs" (readList readText) (some []) =
      some page.sourceRefs := readList_texts _
  have tags : field (pageMembers page) "tags" (readList readText) (some []) =
      some page.tags := readList_texts _
  have links : field (pageMembers page) "links" (readList readText) (some []) =
      some page.links := readList_texts _
  have headings : field (pageMembers page) "headings" (readList readText) (some []) =
      some page.headings := readList_texts _
  have okf : field (pageMembers page) "okf" (readOptional (readOkf F)) (some none) =
      some (page.okf.map rereadOkf) := by
    change readOptional (readOkf F) ((page.okf.map OkfMetadata.dump).getD .none) = _
    cases found : page.okf with
    | none => rfl
    | some okf => exact congrArg (Option.map some) (readOkf_dump F (counts okf found))
  rw [readPage, pageDump_eq, readObject_ofMetadata]
  refine bind_of_some rfl (bind_of_some rfl (bind_of_some rfl (bind_of_some rfl ?_)))
  refine bind_of_some role (bind_of_some rfl (bind_of_some rfl (bind_of_some frontmatter ?_)))
  refine bind_of_some reviewState (bind_of_some rfl (bind_of_some sourceRefs ?_))
  refine bind_of_some tags (bind_of_some links (bind_of_some headings ?_))
  exact bind_of_some rfl (bind_of_some okf rfl)

end Pages

/-! ## Decisions -/

section Decisions

mutual

/-- A value that is a date or a moment, or that JSON has, at every place of it. -/
def Dated : Value → Prop
  | .float value => value.number.isSome = true
  | .bytes _ => False
  | .sequence _ items => DatedItems items
  | .dict entries => DatedEntries entries
  | _ => True
termination_by structural value => value

def DatedItems : List Value → Prop
  | [] => True
  | item :: items => Dated item ∧ DatedItems items
termination_by structural items => items

def DatedEntries : List (Value × Value) → Prop
  | [] => True
  | (_, value) :: entries => Dated value ∧ DatedEntries entries
termination_by structural entries => entries

end

/-- The frontmatter of a page is a dictionary of such values, and the counts read out of it are
such numbers. -/
structure Representable (page : WikiPage) : Prop where
  distinct : (page.frontmatter.map Prod.fst).Nodup
  values : ∀ entry ∈ page.frontmatter, Dated entry.2
  counts : ∀ okf, page.okf = some okf → ∀ source ∈ okf.sources, Dated source.usageCount

variable [Unicode] [Interpreter]

omit [Interpreter] in
theorem frontmatterBool_of_mark {text : Text} (dash : '-' ∈ text) :
    frontmatterBool (.str text) = none := by
  have unspelled := not_spelled_of_mark ⟨'-', dash, by decide⟩
  rw [List.mem_append, not_or] at unspelled
  rw [frontmatterBool, if_neg unspelled.1, if_neg unspelled.2]

omit [Unicode] [Interpreter] in
theorem dash_mem_isoformat (day : Date) : '-' ∈ day.isoformat := by
  simp [Date.isoformat]

/-- A date that became a text is still no truth value. -/
theorem frontmatterBool_toJson {value : Value} (dated : Dated value) :
    frontmatterBool value.toJson = frontmatterBool value := by
  cases value with
  | none => rfl
  | bool value => rfl
  | int value => rfl
  | str text => rfl
  | float value =>
      rw [Value.toJson]
      split <;> rfl
  | bytes octets => simp [Dated] at dated
  | date day => exact frontmatterBool_of_mark (dash_mem_isoformat day)
  | datetime moment =>
      apply frontmatterBool_of_mark
      unfold Value.jsonMoment
      split
      · exact List.mem_append_left _ (by simp [DateTime.isoformatWith, dash_mem_isoformat])
      · simp [DateTime.isoformatWith, dash_mem_isoformat]
  | sequence kind items => rfl
  | dict entries => rfl

omit [Unicode] in
theorem getD_metadataToJson {metadata : Metadata} (distinct : (metadata.map Prod.fst).Nodup)
    (key : Text) : (Value.metadataToJson metadata).getD key = (metadata.getD key).toJson := by
  have names : ((metadata.map fun entry => (entry.1, entry.2.toJson)).map Prod.fst).Nodup := by
    rw [List.map_map]
    exact distinct
  rw [Value.metadataToJson, Keyed.update_nil names]
  clear distinct names
  unfold Metadata.getD
  induction metadata with
  | nil => rfl
  | cons entry rest inductionHypothesis =>
      by_cases here : entry.1 = key
      · simp [Keyed.get?, here]
      · simpa [Keyed.get?, here] using inductionHypothesis

/-- A page that is read back is served exactly when it was before. -/
theorem rereadPage_approvedForServing {page : WikiPage} (representable : Representable page) :
    (rereadPage page).approvedForServing = page.approvedForServing := by
  have gate : ∀ key, frontmatterBool ((rereadPage page).frontmatter.getD key) =
      frontmatterBool (page.frontmatter.getD key) := by
    intro key
    have dated : Dated (page.frontmatter.getD key) := by
      unfold Metadata.getD
      cases found : Keyed.get? page.frontmatter key with
      | none => trivial
      | some value => exact representable.values _ (Keyed.mem_of_get? found)
    rw [← frontmatterBool_toJson dated, ← getD_metadataToJson representable.distinct]
    rfl
  unfold WikiPage.approvedForServing
  rw [gate, gate, gate]
  rfl

end Decisions

end LlmWikiServe.ProjectionPayload
