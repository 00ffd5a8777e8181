import LlmWikiServe.McpRequests

/-!
# Completed metadata

A request without metadata of its own is completed before it is passed on.  What the request
supplies is stored over what is synthesised, so a member that is null stays null.
-/

namespace LlmWikiServe

universe u v w

/-! ## Dictionaries -/

namespace Keyed

variable {Key : Type v} [DecidableEq Key] {Value : Type w}

theorem get?_update {dict incoming : List (Key × Value)} (wanted : Key)
    (distinct : (incoming.map Prod.fst).Nodup) :
    get? (update dict incoming) wanted = (get? incoming wanted).or (get? dict wanted) := by
  induction incoming generalizing dict with
  | nil => rfl
  | cons entry rest inductionHypothesis =>
      obtain ⟨key, value⟩ := entry
      rw [List.map_cons, List.nodup_cons] at distinct
      have later : get? (update dict ((key, value) :: rest)) wanted =
          (get? rest wanted).or (get? (set dict key value) wanted) :=
        inductionHypothesis distinct.2
      rw [later, get?_set]
      by_cases same : key = wanted
      · subst same
        have fresh : get? rest key = none := get?_eq_none_iff.mpr distinct.1
        rw [fresh]
        simp [get?]
      · have passed : get? ((key, value) :: rest) wanted = get? rest wanted := by
          simp [get?, same]
        rw [passed, if_neg same]

/-- What holds of all entries, told by the keys. -/
theorem forall_mem_iff_get? {dict : List (Key × Value)} (distinct : (dict.map Prod.fst).Nodup)
    (property : Key → Value → Prop) :
    (∀ entry ∈ dict, property entry.1 entry.2) ↔
      ∀ key value, get? dict key = some value → property key value := by
  constructor
  · intro all key value found
    exact all (key, value) (mem_of_get? found)
  · rintro all ⟨key, value⟩ among
    exact all key value (get?_of_mem distinct among)

end Keyed

/-! ## Values that can be sent -/

namespace PyJson

variable {F : Type u}

def Encodable (value : PyJson F) : Prop := (json? value).isSome = true

theorem encodable_object {members : List (PyText × PyJson F)} :
    (object members).Encodable ↔
      ∀ member ∈ members, (PyText.text? member.1).isSome = true ∧ member.2.Encodable := by
  have each : (jsonMembers? members).isSome = true ↔
      ∀ member ∈ members, (PyText.text? member.1).isSome = true ∧ member.2.Encodable := by
    induction members with
    | nil => simp [jsonMembers?]
    | cons member members inductionHypothesis =>
        obtain ⟨name, value⟩ := member
        rw [List.forall_mem_cons, ← inductionHypothesis, jsonMembers?, jsonMember?, Encodable]
        cases PyText.text? name <;> cases json? value <;> cases jsonMembers? members <;> simp
  rw [Encodable, json?, Option.isSome_map]
  exact each

/-- An object can be sent when what it stores under each name can. -/
theorem encodable_object_iff {members : List (PyText × PyJson F)}
    (distinct : (members.map Prod.fst).Nodup) :
    (object members).Encodable ↔ ∀ name value, Keyed.get? members name = some value →
      (PyText.text? name).isSome = true ∧ value.Encodable :=
  encodable_object.trans (Keyed.forall_mem_iff_get? distinct fun name value =>
    (PyText.text? name).isSome = true ∧ value.Encodable)

end PyJson

/-! ## What is supplied -/

section Supplied

variable {F : Type u}

/-- The members of the parameters of a request, if they are an object. -/
def originalParams (requestBody : List (PyText × PyJson F)) : List (PyText × PyJson F) :=
  (PyJson.member requestBody "params").dict?.getD []

/-- The members of the metadata of a request, if it is an object. -/
def originalMeta (requestBody : List (PyText × PyJson F)) : List (PyText × PyJson F) :=
  (PyJson.member (originalParams requestBody) "_meta").dict?.getD []

def mcpMetaNames : List Text :=
  [mcpMetaProtocolVersion, mcpMetaClientInfo, mcpMetaClientCapabilities]

structure CompleteMeta (protocolHeader : Text) (bodyMeta : List (PyText × PyJson F)) : Prop where
  protocolVersion :
    PyJson.member bodyMeta mcpMetaProtocolVersion = .string protocolHeader.points
  clientInfo : (PyJson.member bodyMeta mcpMetaClientInfo).dict?.isSome = true
  clientCapabilities : (PyJson.member bodyMeta mcpMetaClientCapabilities).dict?.isSome = true

theorem clientMemberError_eq_none {requestId : PyJson F} {bodyMeta : List (PyText × PyJson F)}
    {name : Text} : clientMemberError requestId bodyMeta name = none ↔
      (PyJson.member bodyMeta name).isNull = true ∨
        (PyJson.member bodyMeta name).dict?.isSome = true := by
  unfold clientMemberError
  cases PyJson.member bodyMeta name <;> simp [PyJson.isNull, PyJson.dict?]

theorem protocolMemberError_eq_none {requestId : PyJson F}
    {bodyMeta : List (PyText × PyJson F)} {protocolHeader : Text} (named : protocolHeader ≠ []) :
    protocolMemberError requestId bodyMeta protocolHeader = none ↔
      (PyJson.member bodyMeta mcpMetaProtocolVersion).isNull = true ∨
        PyJson.member bodyMeta mcpMetaProtocolVersion = .string protocolHeader.points := by
  have points : protocolHeader.points ≠ [] := fun empty => named (Text.points_inj.mp empty)
  unfold protocolMemberError
  cases PyJson.member bodyMeta mcpMetaProtocolVersion with
  | string text =>
      by_cases same : text = protocolHeader.points
      · simp [PyJson.isNull, PyJson.string?, same, points]
      · by_cases empty : text = [] <;>
          simp [PyJson.isNull, PyJson.string?, same, empty, points.symm]
  | _ => simp [PyJson.isNull, PyJson.string?]

theorem completeMeta_synthesizedMcpRequestMeta (F : Type u) (protocolHeader : Text) :
    CompleteMeta protocolHeader (synthesizedMcpRequestMeta (F := F) protocolHeader) := by
  have info : mcpMetaProtocolVersion ≠ mcpMetaClientInfo := by decide
  have capabilities : mcpMetaProtocolVersion ≠ mcpMetaClientCapabilities := by decide
  have between : mcpMetaClientInfo ≠ mcpMetaClientCapabilities := by decide
  constructor
  · simp [PyJson.member, synthesizedMcpRequestMeta, Keyed.get?]
  · simp [PyJson.member, synthesizedMcpRequestMeta, Keyed.get?, info, PyJson.dict?]
  · simp [PyJson.member, synthesizedMcpRequestMeta, Keyed.get?, capabilities, between, PyJson.dict?]

theorem bodyMetaError_of_complete {requestId : PyJson F} {protocolHeader : Text}
    {bodyMeta : List (PyText × PyJson F)} (named : protocolHeader ≠ [])
    (complete : CompleteMeta protocolHeader bodyMeta) :
    bodyMetaError requestId protocolHeader (.object bodyMeta) = none := by
  simp only [bodyMetaError, PyJson.dict?, Option.or_eq_none_iff,
    protocolMemberError_eq_none named, clientMemberError_eq_none]
  exact ⟨.inr complete.protocolVersion, .inr complete.clientInfo, .inr complete.clientCapabilities⟩

theorem member_update_iff {synthesised supplied : List (PyText × PyJson F)}
    (distinct : (supplied.map Prod.fst).Nodup) {name : Text} (complete : PyJson F → Prop)
    (notNull : ¬complete .null) (default : complete (PyJson.member synthesised name))
    (checked : (PyJson.member supplied name).isNull = true ∨
      complete (PyJson.member supplied name)) :
    complete (PyJson.member (Keyed.update synthesised supplied) name) ↔
      Keyed.get? supplied name.points ≠ some .null := by
  unfold PyJson.member at *
  rw [Keyed.get?_update _ distinct]
  cases found : Keyed.get? supplied name.points with
  | none => simpa using default
  | some value =>
      rw [found, Option.getD_some] at checked
      simp only [Option.some_or, Option.getD_some, ne_eq, Option.some.injEq]
      constructor
      · rintro fits rfl
        exact notNull fits
      · intro other
        rcases checked with null | fits
        · cases value <;> first | exact absurd rfl other | cases null
        · exact fits

/-- The completed metadata is complete where nothing it needs is supplied as null. -/
theorem completeMeta_update_iff {requestId : PyJson F} {protocolHeader : Text}
    {supplied : List (PyText × PyJson F)} (named : protocolHeader ≠ [])
    (distinct : (supplied.map Prod.fst).Nodup)
    (checked : bodyMetaError requestId protocolHeader (.object supplied) = none) :
    CompleteMeta protocolHeader
        (Keyed.update (synthesizedMcpRequestMeta protocolHeader) supplied) ↔
      ∀ name ∈ mcpMetaNames, Keyed.get? supplied name.points ≠ some .null := by
  simp only [bodyMetaError, PyJson.dict?, Option.or_eq_none_iff,
    protocolMemberError_eq_none named, clientMemberError_eq_none] at checked
  obtain ⟨version, info, capabilities⟩ := checked
  have synthesised := completeMeta_synthesizedMcpRequestMeta F protocolHeader
  have first := member_update_iff distinct (· = .string protocolHeader.points) nofun
    synthesised.protocolVersion version
  have second := member_update_iff distinct (·.dict?.isSome = true) nofun
    synthesised.clientInfo info
  have third := member_update_iff distinct (·.dict?.isSome = true) nofun
    synthesised.clientCapabilities capabilities
  simp only [mcpMetaNames, List.forall_mem_cons, List.not_mem_nil, false_implies, forall_const,
    and_true, ← first, ← second, ← third]
  constructor
  · rintro ⟨version, info, capabilities⟩
    exact ⟨version, info, capabilities⟩
  · rintro ⟨version, info, capabilities⟩
    exact ⟨version, info, capabilities⟩

end Supplied

/-! ## The completed body -/

section Completed

variable {F : Type u}

def completedParams (protocolHeader : Text) (requestBody : List (PyText × PyJson F)) :
    List (PyText × PyJson F) :=
  Keyed.set (originalParams requestBody) (Text.points "_meta")
    (.object (Keyed.update (synthesizedMcpRequestMeta protocolHeader) (originalMeta requestBody)))

def completedBody (protocolHeader : Text) (requestBody : List (PyText × PyJson F)) :
    List (PyText × PyJson F) :=
  Keyed.set requestBody (Text.points "params") (.object (completedParams protocolHeader requestBody))

structure Completable (requestBody : List (PyText × PyJson F)) : Prop where
  distinct : (PyJson.object requestBody).Distinct
  params : (PyJson.member requestBody "params").isNull = true ∨
    Keyed.get? requestBody (Text.points "params") = some (.object (originalParams requestBody))
  bodyMeta : Keyed.get? (originalParams requestBody) (Text.points "_meta") = none ∨
    Keyed.get? (originalParams requestBody) (Text.points "_meta") =
      some (.object (originalMeta requestBody))

namespace PyJson

theorem distinct_object {members : List (PyText × PyJson F)} :
    (PyJson.object members).Distinct ↔
      (members.map Prod.fst).Nodup ∧ ∀ member ∈ members, member.2.Distinct :=
  and_congr_right fun _ => distinctMembers_iff

theorem distinct_set {members : List (PyText × PyJson F)} {name : PyText} {value : PyJson F}
    (distinct : (PyJson.object members).Distinct) (inner : value.Distinct) :
    (PyJson.object (Keyed.set members name value)).Distinct := by
  rw [distinct_object] at distinct ⊢
  refine ⟨Keyed.nodup_map_fst_set distinct.1 _ _, fun member among => ?_⟩
  rcases Keyed.mem_set among with rfl | among
  · exact inner
  · exact distinct.2 member among

theorem distinct_update {first second : List (PyText × PyJson F)}
    (distinct : (PyJson.object first).Distinct) (distinct' : (PyJson.object second).Distinct) :
    (PyJson.object (Keyed.update first second)).Distinct := by
  rw [distinct_object] at distinct distinct' ⊢
  refine ⟨Keyed.nodup_map_fst_update distinct.1, fun member among => ?_⟩
  rcases Keyed.mem_update among with among | among
  · exact distinct.2 member among
  · exact distinct'.2 member among

theorem distinct_of_get? {members : List (PyText × PyJson F)} {name : PyText} {value : PyJson F}
    (distinct : (PyJson.object members).Distinct) (found : Keyed.get? members name = some value) :
    value.Distinct :=
  (distinct_object.mp distinct).2 _ (Keyed.mem_of_get? found)

/-- Storing a value that can be sent when the old one can leaves it as it is whether the object
can be sent. -/
theorem encodable_set_iff {members : List (PyText × PyJson F)} {name : PyText}
    {value : PyJson F} (distinct : (members.map Prod.fst).Nodup)
    (plain : (PyText.text? name).isSome = true)
    (same : value.Encodable ↔ ∀ old, Keyed.get? members name = some old → old.Encodable) :
    (PyJson.object (Keyed.set members name value)).Encodable ↔
      (PyJson.object members).Encodable := by
  rw [encodable_object_iff (Keyed.nodup_map_fst_set distinct _ _), encodable_object_iff distinct]
  constructor
  · intro all other old found
    by_cases here : name = other
    · subst here
      have stored := all name value (by rw [Keyed.get?_set, if_pos rfl])
      exact ⟨plain, same.mp stored.2 old found⟩
    · exact all other old (by rw [Keyed.get?_set, if_neg here, found])
  · intro all other stored found
    rw [Keyed.get?_set] at found
    split_ifs at found with here
    · obtain rfl := Option.some.inj found
      obtain rfl := here
      exact ⟨plain, same.mpr fun old before => (all _ _ before).2⟩
    · exact all other stored found

end PyJson

variable {protocolHeader : Text} {requestBody : List (PyText × PyJson F)}

theorem distinct_synthesizedMcpRequestMeta :
    (PyJson.object (synthesizedMcpRequestMeta (F := F) protocolHeader)).Distinct := by
  have names : [mcpMetaProtocolVersion.points, mcpMetaClientInfo.points,
      mcpMetaClientCapabilities.points].Nodup := by decide
  have described : [Text.points "name", Text.points "version"].Nodup := by decide
  exact ⟨names, trivial, ⟨described, trivial, trivial, trivial⟩, ⟨List.nodup_nil, trivial⟩, trivial⟩

theorem encodable_nil : (PyJson.object ([] : List (PyText × PyJson F))).Encodable := rfl

theorem encodable_synthesizedMcpRequestMeta :
    (PyJson.object (synthesizedMcpRequestMeta (F := F) protocolHeader)).Encodable := by
  rw [PyJson.encodable_object]
  simp only [synthesizedMcpRequestMeta, List.forall_mem_cons, PyText.text?_points,
    Option.isSome_some, true_and]
  refine ⟨?_, ?_, encodable_nil, nofun⟩
  · simp [PyJson.Encodable, PyJson.json?]
  · rw [PyJson.encodable_object]
    simp [PyJson.Encodable, PyJson.json?]

theorem encodable_update_iff {first second : List (PyText × PyJson F)}
    (distinct : (PyJson.object first).Distinct) (distinct' : (PyJson.object second).Distinct)
    (sent : (PyJson.object first).Encodable) :
    (PyJson.object (Keyed.update first second)).Encodable ↔ (PyJson.object second).Encodable := by
  have names := (PyJson.distinct_object.mp distinct).1
  have names' := (PyJson.distinct_object.mp distinct').1
  rw [PyJson.encodable_object_iff (Keyed.nodup_map_fst_update names),
    PyJson.encodable_object_iff names']
  rw [PyJson.encodable_object_iff names] at sent
  constructor
  · intro all name value found
    exact all name value (by rw [Keyed.get?_update _ names', found, Option.some_or])
  · intro all name value found
    rw [Keyed.get?_update _ names'] at found
    rcases Option.or_eq_some_iff.mp found with found | ⟨-, found⟩
    · exact all name value found
    · exact sent name value found

theorem dict?_of_null {value : PyJson F} (null : value.isNull = true) : value.dict? = none := by
  cases value <;> first | rfl | cases null

theorem originalParams_of_null (null : (PyJson.member requestBody "params").isNull = true) :
    originalParams requestBody = [] := by
  rw [originalParams, dict?_of_null null]
  rfl

theorem originalMeta_of_missing
    (missing : Keyed.get? (originalParams requestBody) (Text.points "_meta") = none) :
    originalMeta requestBody = [] := by
  rw [originalMeta, PyJson.member, missing]
  rfl

namespace Completable

theorem distinct_params (completable : Completable requestBody) :
    (PyJson.object (originalParams requestBody)).Distinct := by
  unfold originalParams PyJson.member
  cases found : Keyed.get? requestBody (Text.points "params") with
  | none => exact ⟨List.nodup_nil, trivial⟩
  | some value =>
      have inner := PyJson.distinct_of_get? completable.distinct found
      cases value with
      | object members => exact inner
      | _ => exact ⟨List.nodup_nil, trivial⟩

theorem distinct_meta (completable : Completable requestBody) :
    (PyJson.object (originalMeta requestBody)).Distinct := by
  unfold originalMeta PyJson.member
  cases found : Keyed.get? (originalParams requestBody) (Text.points "_meta") with
  | none => exact ⟨List.nodup_nil, trivial⟩
  | some value =>
      have inner := PyJson.distinct_of_get? completable.distinct_params found
      cases value with
      | object members => exact inner
      | _ => exact ⟨List.nodup_nil, trivial⟩

theorem distinct_completedBody (completable : Completable requestBody) :
    (PyJson.object (completedBody protocolHeader requestBody)).Distinct := by
  apply PyJson.distinct_set completable.distinct
  apply PyJson.distinct_set completable.distinct_params
  exact PyJson.distinct_update distinct_synthesizedMcpRequestMeta completable.distinct_meta

/-- Completing a request adds no surrogate and leaves none out. -/
theorem encodable_completedBody_iff (completable : Completable requestBody) :
    (PyJson.object (completedBody protocolHeader requestBody)).Encodable ↔
      (PyJson.object requestBody).Encodable := by
  have updated := encodable_update_iff (@distinct_synthesizedMcpRequestMeta F protocolHeader)
    completable.distinct_meta encodable_synthesizedMcpRequestMeta
  have params : (PyJson.object (completedParams protocolHeader requestBody)).Encodable ↔
      (PyJson.object (originalParams requestBody)).Encodable := by
    apply PyJson.encodable_set_iff (PyJson.distinct_object.mp completable.distinct_params).1
    · rw [PyText.text?_points]
      rfl
    · rw [updated]
      rcases completable.bodyMeta with missing | found
      · rw [originalMeta_of_missing missing, missing]
        exact iff_of_true encodable_nil nofun
      · rw [found]
        simp only [Option.some.injEq, forall_eq']
  apply PyJson.encodable_set_iff (PyJson.distinct_object.mp completable.distinct).1
  · rw [PyText.text?_points]
    rfl
  · rw [params]
    rcases completable.params with null | found
    · rw [originalParams_of_null null]
      refine iff_of_true encodable_nil fun old found => ?_
      rw [PyJson.member, found] at null
      cases old <;> first | rfl | cases null
    · rw [found]
      simp only [Option.some.injEq, forall_eq']

end Completable

/-! ## Validation of the completed body -/

theorem ne_nil_of_supported [McpSdk] (supported : protocolHeader ∈ mcpSupportedProtocolVersions) :
    protocolHeader ≠ [] := by
  rintro rfl
  rcases List.mem_append.mp (Keyed.mem_of_mem_firstWins supported) with modern | compat
  · rcases List.mem_cons.mp modern with same | modern
    · exact absurd same (by decide)
    · exact McpSdk.modern_named (List.mem_reverse.mp modern)
  · rcases List.mem_cons.mp (Keyed.mem_of_mem_firstWins compat) with same | handshake
    · exact absurd same (by decide)
    · exact McpSdk.handshake_named (List.mem_reverse.mp handshake)

theorem validateMethodRequest_eq_none_iff [Unicode] [McpSdk] {headers : List (Text × List Text)}
    {requestId : PyJson F} {method : PyText} {params : Option (List (PyText × PyJson F))}
    (supported : headerValue headers "mcp-protocol-version" ∈ mcpSupportedProtocolVersions) :
    validateMethodRequest headers requestId method params = none ↔
      invalidPlainHeaderValue (headerValue headers "mcp-protocol-version") = false ∧
      mirrorMatches (headerValue headers "mcp-method") method = true ∧
      (∀ supplied ∈ params.bind fun params => Keyed.get? params (Text.points "_meta"),
        bodyMetaError requestId (headerValue headers "mcp-protocol-version") supplied = none) ∧
      ∀ expected ∈ mcpRequiredNameValue method ((params.map PyJson.object).getD .null),
        mirrorMatches (headerValue headers "mcp-name") expected = true := by
  have named := ne_nil_of_supported supported
  unfold validateMethodRequest
  dsimp only
  generalize headerValue headers "mcp-protocol-version" = version at *
  generalize headerValue headers "mcp-method" = methodHeader
  generalize headerValue headers "mcp-name" = nameHeader
  have modern : ∀ bodyMeta : PyJson F,
      isLegacyInitializeRequest method bodyMeta version methodHeader = false := by
    intro bodyMeta
    rw [isLegacyInitializeRequest, if_pos (Or.inr named)]
  rw [modern, if_neg Bool.false_ne_true, if_neg named, if_neg (not_not.mpr supported)]
  by_cases invalid : invalidPlainHeaderValue version = true
  · rw [if_pos invalid, invalid]
    exact iff_of_false nofun fun all => nomatch all.1
  · rw [if_neg invalid, Bool.eq_false_iff.mpr invalid]
    cases mirrored : mirrorMatches methodHeader method with
    | false =>
        rw [if_pos (by rfl)]
        exact iff_of_false nofun fun all => nomatch all.2.1
    | true =>
        rw [if_neg (by simp), Option.or_eq_none_iff, Option.bind_eq_none_iff,
          Option.bind_eq_none_iff]
        simp only [true_and, Option.mem_def, ite_eq_left_iff, Bool.not_eq_true, reduceCtorEq,
          imp_false, Bool.not_eq_false]

theorem mcpRequiredNameValue_completed (method : PyText)
    (params : (PyJson.member requestBody "params").isNull = true ∨
      (PyJson.member requestBody "params").dict? = some (originalParams requestBody)) :
    mcpRequiredNameValue method (.object (completedParams protocolHeader requestBody)) =
      mcpRequiredNameValue method
        (((PyJson.member requestBody "params").dict?.map PyJson.object).getD .null) := by
  have kept : ∀ field : Text, field ≠ "_meta" →
      PyJson.member (completedParams protocolHeader requestBody) field =
        PyJson.member (originalParams requestBody) field := by
    intro field other
    have names : ¬Text.points "_meta" = field.points := fun same =>
      other (Text.points_inj.mp same).symm
    rw [completedParams, PyJson.member, Keyed.get?_set, if_neg names, PyJson.member]
  have uri := kept "uri" (by decide)
  have name := kept "name" (by decide)
  rcases params with null | found
  · have nothing := originalParams_of_null null
    have absent := dict?_of_null null
    rw [nothing] at uri name
    rw [absent, Option.map_none, Option.getD_none]
    unfold mcpRequiredNameValue
    simp only [PyJson.dict?]
    split_ifs
    · rw [uri]
      rfl
    · rw [name]
      rfl
    · rfl
  · rw [found, Option.map_some, Option.getD_some]
    unfold mcpRequiredNameValue
    simp only [PyJson.dict?]
    split_ifs
    · rw [uri]
    · rw [name]
    · rfl

theorem updatedParams_of_completable (completable : Completable requestBody) :
    updatedParams protocolHeader (PyJson.member requestBody "params") =
      some (completedParams protocolHeader requestBody) := by
  rw [completedParams, updatedParams]
  rcases completable.params with null | found
  · have nothing := originalParams_of_null null
    have missing : Keyed.get? (originalParams requestBody) (Text.points "_meta") = none := by
      rw [nothing]
      rfl
    rw [originalMeta_of_missing missing, nothing, dict?_of_null null]
    exact if_pos null
  · have object : PyJson.member requestBody "params" = .object (originalParams requestBody) := by
      rw [PyJson.member, found, Option.getD_some]
    rw [object]
    dsimp only [PyJson.dict?]
    rcases completable.bodyMeta with missing | supplied
    · rw [missing, originalMeta_of_missing missing]
      rfl
    · rw [supplied]
      rfl

section Requests

variable [Unicode] [McpSdk] [Json.FloatRepr F] {headers : List (Text × List Text)}
  {body : List UInt8} {method : PyText}

omit [Unicode] [McpSdk] in
theorem distinct_of_parsed (parsed : parseJsonObject body = some requestBody) :
    (PyJson.object requestBody).Distinct := by
  obtain ⟨value, read, shape⟩ := Option.bind_eq_some_iff.mp parsed
  obtain ⟨text, -, read⟩ := Option.bind_eq_some_iff.mp read
  have distinct := PyJson.loads_distinct read
  cases value with
  | object members =>
      obtain rfl := Option.some.inj shape
      exact distinct
  | _ => cases shape

theorem validateMcpStreamableHttpRequest_eq_none_iff
    (parsed : parseJsonObject body = some requestBody)
    (named : requestMethod requestBody = some method) :
    (validateMcpStreamableHttpRequest headers body : Option (Nat × PyJson F)) = none ↔
      mcpAcceptHeaderIsValid (headerValue headers "accept") = true ∧
      validateMethodRequest headers (jsonRpcRequestId requestBody) method
        (PyJson.member requestBody "params").dict? = none := by
  rw [validateMcpStreamableHttpRequest, parsed, Option.bind_some, named]
  dsimp only [Option.bind_some]
  cases mcpAcceptHeaderIsValid (headerValue headers "accept") with
  | false => exact iff_of_false nofun fun all => nomatch all.1
  | true => simp only [Bool.not_true, Bool.false_eq_true, if_false, true_and]

omit [Unicode] [McpSdk] [Json.FloatRepr F] in
theorem get?_params_of_dict {members : List (PyText × PyJson F)}
    (shape : (PyJson.member requestBody "params").dict? = some members) :
    Keyed.get? requestBody (Text.points "params") = some (.object members) := by
  unfold PyJson.member at shape
  cases found : Keyed.get? requestBody (Text.points "params") with
  | none =>
      rw [found] at shape
      cases shape
  | some value =>
      rw [found, Option.getD_some] at shape
      cases value with
      | object _ =>
          obtain rfl := Option.some.inj shape
          rfl
      | _ => cases shape

theorem completable_of_accepted (parsed : parseJsonObject body = some requestBody)
    (named : requestMethod requestBody = some method)
    (accepted : (validateMcpStreamableHttpRequest headers body : Option (Nat × PyJson F)) = none)
    (supported : headerValue headers "mcp-protocol-version" ∈ mcpSupportedProtocolVersions)
    (shape : (PyJson.member requestBody "params").isNull = true ∨
      (PyJson.member requestBody "params").dict?.isSome = true) :
    Completable requestBody := by
  have checks := (validateMethodRequest_eq_none_iff supported).mp
    ((validateMcpStreamableHttpRequest_eq_none_iff parsed named).mp accepted).2
  refine ⟨distinct_of_parsed parsed, shape.imp_right fun isObject => ?_, ?_⟩
  · obtain ⟨members, found⟩ := Option.isSome_iff_exists.mp isObject
    rw [get?_params_of_dict found, originalParams, found, Option.getD_some]
  · rcases shape with null | isObject
    · rw [originalParams_of_null null]
      exact .inl rfl
    · obtain ⟨members, found⟩ := Option.isSome_iff_exists.mp isObject
      have params : originalParams requestBody = members := by
        rw [originalParams, found, Option.getD_some]
      rw [originalMeta, PyJson.member, params]
      cases supplied : Keyed.get? members (Text.points "_meta") with
      | none => exact .inl rfl
      | some value =>
          have valid := checks.2.2.1 value (by rw [found, Option.bind_some, supplied]; rfl)
          rw [Option.getD_some]
          cases value with
          | object _ => exact .inr rfl
          | _ => cases valid

theorem bodyWithSynthesizedMcpRequestMeta_eq (parsed : parseJsonObject body = some requestBody)
    (named : requestMethod requestBody = some method)
    (supported : headerValue headers "mcp-protocol-version" ∈ mcpSupportedProtocolVersions)
    (completable : Completable requestBody) :
    bodyWithSynthesizedMcpRequestMeta F headers body =
      (PyJson.dumps? (.object
        (completedBody (headerValue headers "mcp-protocol-version") requestBody))).map
          Utf8.encode := by
  have updated : updatedParams (headerValue headers "mcp-protocol-version")
      (PyJson.member requestBody "params") =
        some (completedParams (headerValue headers "mcp-protocol-version") requestBody) :=
    updatedParams_of_completable completable
  simp only [bodyWithSynthesizedMcpRequestMeta, if_neg (not_not.mpr supported), parsed, named,
    updated]
  rfl

/-- A request in its completed form: its own members, with complete metadata. -/
structure Completes (protocolHeader : Text)
    (requestBody updatedBody params bodyMeta : List (PyText × PyJson F)) : Prop where
  bodyKept : ∀ name, name ≠ Text.points "params" →
    Keyed.get? updatedBody name = Keyed.get? requestBody name
  paramsStored : Keyed.get? updatedBody (Text.points "params") = some (.object params)
  paramsKept : ∀ name, name ≠ Text.points "_meta" →
    Keyed.get? params name = Keyed.get? (originalParams requestBody) name
  metaStored : Keyed.get? params (Text.points "_meta") = some (.object bodyMeta)
  metaKept : ∀ name, name ∉ mcpMetaNames.map Text.points →
    Keyed.get? bodyMeta name = Keyed.get? (originalMeta requestBody) name
  suppliedKept : ∀ name value, Keyed.get? (originalMeta requestBody) name = some value →
    Keyed.get? bodyMeta name = some value
  complete : CompleteMeta protocolHeader bodyMeta

omit [Unicode] [McpSdk] [Json.FloatRepr F] in
theorem completes_completedBody (completable : Completable requestBody)
    (complete : CompleteMeta protocolHeader
      (Keyed.update (synthesizedMcpRequestMeta protocolHeader) (originalMeta requestBody))) :
    Completes protocolHeader requestBody (completedBody protocolHeader requestBody)
      (completedParams protocolHeader requestBody)
      (Keyed.update (synthesizedMcpRequestMeta protocolHeader) (originalMeta requestBody)) := by
  have names := (PyJson.distinct_object.mp completable.distinct_meta).1
  refine ⟨?_, ?_, ?_, ?_, ?_, ?_, complete⟩
  · intro name other
    rw [completedBody, Keyed.get?_set, if_neg other.symm]
  · rw [completedBody, Keyed.get?_set, if_pos rfl]
  · intro name other
    rw [completedParams, Keyed.get?_set, if_neg other.symm]
  · rw [completedParams, Keyed.get?_set, if_pos rfl]
  · intro name other
    have missing : Keyed.get? (synthesizedMcpRequestMeta (F := F) protocolHeader) name = none :=
      Keyed.get?_eq_none_iff.mpr other
    rw [Keyed.get?_update _ names, missing, Option.or_none]
  · intro name value found
    rw [Keyed.get?_update _ names, found, Option.some_or]

omit [Unicode] [McpSdk] [Json.FloatRepr F] in
theorem Completes.bodyMeta_eq {params bodyMeta : List (PyText × PyJson F)}
    (completes : Completes protocolHeader requestBody (completedBody protocolHeader requestBody)
      params bodyMeta) :
    bodyMeta = Keyed.update (synthesizedMcpRequestMeta protocolHeader)
      (originalMeta requestBody) := by
  have stored := completes.paramsStored
  rw [completedBody, Keyed.get?_set, if_pos rfl] at stored
  obtain rfl := PyJson.object.inj (Option.some.inj stored)
  have inner := completes.metaStored
  rw [completedParams, Keyed.get?_set, if_pos rfl] at inner
  exact (PyJson.object.inj (Option.some.inj inner)).symm

/-- The metadata of an accepted request is valid, also where there is none. -/
theorem bodyMetaError_originalMeta (parsed : parseJsonObject body = some requestBody)
    (named : requestMethod requestBody = some method)
    (accepted : (validateMcpStreamableHttpRequest headers body : Option (Nat × PyJson F)) = none)
    (supported : headerValue headers "mcp-protocol-version" ∈ mcpSupportedProtocolVersions)
    (completable : Completable requestBody) :
    bodyMetaError (jsonRpcRequestId requestBody) (headerValue headers "mcp-protocol-version")
      (.object (originalMeta requestBody)) = none := by
  have checks := (validateMethodRequest_eq_none_iff supported).mp
    ((validateMcpStreamableHttpRequest_eq_none_iff parsed named).mp accepted).2
  have nothing : bodyMetaError (jsonRpcRequestId requestBody)
      (headerValue headers "mcp-protocol-version") (.object []) = none := rfl
  rcases completable.bodyMeta with missing | supplied
  · rw [originalMeta_of_missing missing]
    exact nothing
  · rcases completable.params with null | found
    · rw [originalParams_of_null null] at supplied
      cases supplied
    · have object : (PyJson.member requestBody "params").dict? =
          some (originalParams requestBody) := by
        rw [PyJson.member, found]
        rfl
      exact checks.2.2.1 _ (by rw [object, Option.bind_some, supplied]; rfl)

/-- The completed body is accepted again where its metadata is complete. -/
theorem accepted_completedBody {updated : List UInt8}
    (parsed : parseJsonObject body = some requestBody)
    (named : requestMethod requestBody = some method)
    (accepted : (validateMcpStreamableHttpRequest headers body : Option (Nat × PyJson F)) = none)
    (supported : headerValue headers "mcp-protocol-version" ∈ mcpSupportedProtocolVersions)
    (completable : Completable requestBody)
    (reparsed : parseJsonObject updated =
      some (completedBody (headerValue headers "mcp-protocol-version") requestBody))
    (complete : CompleteMeta (headerValue headers "mcp-protocol-version")
      (Keyed.update (synthesizedMcpRequestMeta (headerValue headers "mcp-protocol-version"))
        (originalMeta requestBody))) :
    (validateMcpStreamableHttpRequest headers updated : Option (Nat × PyJson F)) = none := by
  obtain ⟨accept, checks⟩ :=
    (validateMcpStreamableHttpRequest_eq_none_iff parsed named).mp accepted
  obtain ⟨plain, mirrored, -, nameMatches⟩ := (validateMethodRequest_eq_none_iff supported).mp checks
  have completes := completes_completedBody completable complete
  have sameMember : ∀ name : Text, name ≠ "params" →
      PyJson.member (completedBody (headerValue headers "mcp-protocol-version") requestBody) name =
        PyJson.member requestBody name := by
    intro name other
    rw [PyJson.member, completes.bodyKept _ (fun same => other (Text.points_inj.mp same)),
      PyJson.member]
  have renamed : requestMethod
      (completedBody (headerValue headers "mcp-protocol-version") requestBody) = some method := by
    rw [requestMethod, sameMember _ (by decide), ← requestMethod, named]
  have params : (PyJson.member
      (completedBody (headerValue headers "mcp-protocol-version") requestBody) "params").dict? =
        some (completedParams (headerValue headers "mcp-protocol-version") requestBody) := by
    rw [PyJson.member, completes.paramsStored]
    rfl
  have shape : (PyJson.member requestBody "params").isNull = true ∨
      (PyJson.member requestBody "params").dict? = some (originalParams requestBody) := by
    refine completable.params.imp_right fun found => ?_
    rw [PyJson.member, found]
    rfl
  rw [validateMcpStreamableHttpRequest_eq_none_iff reparsed renamed, params,
    validateMethodRequest_eq_none_iff supported]
  refine ⟨accept, plain, mirrored, ?_, ?_⟩
  · intro supplied among
    rw [Option.bind_some, completes.metaStored] at among
    obtain rfl := Option.some.inj among
    exact bodyMetaError_of_complete (ne_nil_of_supported supported) complete
  · rw [Option.map_some, Option.getD_some, mcpRequiredNameValue_completed method shape]
    exact nameMatches

theorem completed_of_encodable (parsed : parseJsonObject body = some requestBody)
    (named : requestMethod requestBody = some method)
    (accepted : (validateMcpStreamableHttpRequest headers body : Option (Nat × PyJson F)) = none)
    (supported : headerValue headers "mcp-protocol-version" ∈ mcpSupportedProtocolVersions)
    (completable : Completable requestBody)
    (supplied : ∀ name ∈ mcpMetaNames,
      Keyed.get? (originalMeta requestBody) name.points ≠ some .null)
    (sent : (PyJson.object requestBody).Encodable) :
    ∃ updated updatedBody params bodyMeta,
      bodyWithSynthesizedMcpRequestMeta F headers body = some updated ∧
      (validateMcpStreamableHttpRequest headers updated : Option (Nat × PyJson F)) = none ∧
      parseJsonObject updated = some updatedBody ∧
      Completes (headerValue headers "mcp-protocol-version") requestBody updatedBody params
        bodyMeta := by
  have complete := (completeMeta_update_iff (ne_nil_of_supported supported)
    (PyJson.distinct_object.mp completable.distinct_meta).1
    (bodyMetaError_originalMeta parsed named accepted supported completable)).mpr supplied
  obtain ⟨plain, found⟩ := Option.isSome_iff_exists.mp
    (completable.encodable_completedBody_iff.mpr sent)
  have dumped := congrArg (Option.map (Json.print .compact 0)) found
  have reparsed := parseJsonObject_dumps completable.distinct_completedBody dumped
  refine ⟨_, _, _, _, ?_, ?_, reparsed, completes_completedBody completable complete⟩
  · rw [bodyWithSynthesizedMcpRequestMeta_eq parsed named supported completable, PyJson.dumps?,
      found]
    rfl
  · exact accepted_completedBody parsed named accepted supported completable reparsed complete

/-- A body that was completed has no null where the metadata needs something, and no surrogate. -/
theorem encodable_of_completed (parsed : parseJsonObject body = some requestBody)
    (named : requestMethod requestBody = some method)
    (accepted : (validateMcpStreamableHttpRequest headers body : Option (Nat × PyJson F)) = none)
    (supported : headerValue headers "mcp-protocol-version" ∈ mcpSupportedProtocolVersions)
    (completable : Completable requestBody) {updated : List UInt8}
    {updatedBody params bodyMeta : List (PyText × PyJson F)}
    (result : bodyWithSynthesizedMcpRequestMeta F headers body = some updated)
    (reparsed : parseJsonObject updated = some updatedBody)
    (completes : Completes (headerValue headers "mcp-protocol-version") requestBody updatedBody
      params bodyMeta) :
    (∀ name ∈ mcpMetaNames, Keyed.get? (originalMeta requestBody) name.points ≠ some .null) ∧
      (PyJson.object requestBody).Encodable := by
  rw [bodyWithSynthesizedMcpRequestMeta_eq parsed named supported completable] at result
  obtain ⟨text, dumped, rfl⟩ := Option.map_eq_some_iff.mp result
  have same := parseJsonObject_dumps completable.distinct_completedBody dumped
  obtain rfl := Option.some.inj (same.symm.trans reparsed)
  obtain ⟨plain, found, -⟩ := Option.map_eq_some_iff.mp dumped
  have complete := completes.complete
  rw [completes.bodyMeta_eq] at complete
  constructor
  · exact (completeMeta_update_iff (ne_nil_of_supported supported)
      (PyJson.distinct_object.mp completable.distinct_meta).1
      (bodyMetaError_originalMeta parsed named accepted supported completable)).mp complete
  · exact completable.encodable_completedBody_iff.mp (Option.isSome_iff_exists.mpr ⟨plain, found⟩)

/-- An accepted request is completed, and accepted again, exactly where it supplies no null for
what the metadata needs and has no surrogate to be encoded. -/
theorem synthesizedMeta_complete_iff (parsed : parseJsonObject body = some requestBody)
    (named : requestMethod requestBody = some method)
    (accepted : (validateMcpStreamableHttpRequest headers body : Option (Nat × PyJson F)) = none)
    (supported : headerValue headers "mcp-protocol-version" ∈ mcpSupportedProtocolVersions)
    (shape : (PyJson.member requestBody "params").isNull = true ∨
      (PyJson.member requestBody "params").dict?.isSome = true) :
    (∃ updated updatedBody params bodyMeta,
      bodyWithSynthesizedMcpRequestMeta F headers body = some updated ∧
      (validateMcpStreamableHttpRequest headers updated : Option (Nat × PyJson F)) = none ∧
      parseJsonObject updated = some updatedBody ∧
      Completes (headerValue headers "mcp-protocol-version") requestBody updatedBody params
        bodyMeta) ↔
    (∀ name ∈ mcpMetaNames, Keyed.get? (originalMeta requestBody) name.points ≠ some .null) ∧
      (PyJson.object requestBody).Encodable := by
  have completable := completable_of_accepted parsed named accepted supported shape
  constructor
  · rintro ⟨updated, updatedBody, params, bodyMeta, result, -, reparsed, completes⟩
    exact encodable_of_completed parsed named accepted supported completable result reparsed
      completes
  · rintro ⟨supplied, sent⟩
    exact completed_of_encodable parsed named accepted supported completable supplied sent

end Requests

end Completed

/-! ## A request that describes no client -/

section Pings

attribute [local instance] Unicode.ascii McpSdk.fallback

/-- The headers of a request with the newest version. -/
def modernHeaders : List (Text × List Text) :=
  [("accept", ["application/json, text/event-stream"]), ("mcp-protocol-version", ["2026-07-28"])]

def ping (bodyMeta : List (Text × Json Json.Decimal)) : List (Text × Json Json.Decimal) :=
  [("method", .string "ping"), ("params", .object [("_meta", .object bodyMeta)])]

def pingBody (bodyMeta : List (Text × Json Json.Decimal)) : List UInt8 :=
  Utf8.encode (Json.print .compact 0 (.object (ping bodyMeta)))

theorem parseJsonObject_pingBody {bodyMeta : List (Text × Json Json.Decimal)}
    (distinct : (PyJson.object (PyJson.ofMembers bodyMeta)).Distinct) :
    parseJsonObject (pingBody bodyMeta) = some (PyJson.ofMembers (ping bodyMeta)) := by
  have names : [Text.points "method", Text.points "params"].Nodup := by decide
  apply parseJsonObject_print
  exact ⟨names, trivial, ⟨List.nodup_singleton _, distinct, trivial⟩, trivial⟩

theorem requestMethod_ping (bodyMeta : List (Text × Json Json.Decimal)) :
    requestMethod (PyJson.ofMembers (ping bodyMeta)) = some (Text.points "ping") := rfl

theorem supported_modernHeaders :
    headerValue modernHeaders "mcp-protocol-version" ∈ mcpSupportedProtocolVersions := by
  decide

theorem accepted_ping {body : List UInt8} {bodyMeta : List (Text × Json Json.Decimal)}
    (parsed : parseJsonObject body = some (PyJson.ofMembers (ping bodyMeta)))
    (valid : (validateMethodRequest modernHeaders
      (jsonRpcRequestId (PyJson.ofMembers (ping bodyMeta))) (Text.points "ping")
      (PyJson.member (PyJson.ofMembers (ping bodyMeta)) "params").dict?).isNone = true) :
    (validateMcpStreamableHttpRequest modernHeaders body :
      Option (Nat × PyJson Json.Decimal)) = none := by
  apply (validateMcpStreamableHttpRequest_eq_none_iff parsed (requestMethod_ping bodyMeta)).mpr
  exact ⟨by decide, Option.isNone_iff_eq_none.mp valid⟩

theorem parseJsonObject_nullInfo :
    parseJsonObject (pingBody [(mcpMetaClientInfo, .null)]) =
      some (PyJson.ofMembers (ping [(mcpMetaClientInfo, .null)])) :=
  parseJsonObject_pingBody ⟨List.nodup_singleton _, trivial, trivial⟩

theorem accepted_nullInfo :
    (validateMcpStreamableHttpRequest modernHeaders (pingBody [(mcpMetaClientInfo, .null)]) :
      Option (Nat × PyJson Json.Decimal)) = none := by
  apply accepted_ping parseJsonObject_nullInfo
  decide

/-- A request is accepted with a client that is null, which stays null in the completed body. -/
theorem nullInfo_incomplete :
    (validateMcpStreamableHttpRequest modernHeaders (pingBody [(mcpMetaClientInfo, .null)]) :
      Option (Nat × PyJson Json.Decimal)) = none ∧
    ¬∃ updated updatedBody params bodyMeta,
      bodyWithSynthesizedMcpRequestMeta Json.Decimal modernHeaders
        (pingBody [(mcpMetaClientInfo, .null)]) = some updated ∧
      (validateMcpStreamableHttpRequest modernHeaders updated :
        Option (Nat × PyJson Json.Decimal)) = none ∧
      parseJsonObject updated = some updatedBody ∧
      Completes (headerValue modernHeaders "mcp-protocol-version")
        (PyJson.ofMembers (ping [(mcpMetaClientInfo, .null)])) updatedBody params bodyMeta := by
  refine ⟨accepted_nullInfo, ?_⟩
  rintro ⟨updated, updatedBody, params, bodyMeta, result, -, reparsed, completes⟩
  have completable := completable_of_accepted parseJsonObject_nullInfo
    (requestMethod_ping [(mcpMetaClientInfo, .null)]) accepted_nullInfo supported_modernHeaders
    (.inr rfl)
  have supplied := (encodable_of_completed parseJsonObject_nullInfo
    (requestMethod_ping [(mcpMetaClientInfo, .null)]) accepted_nullInfo supported_modernHeaders
    completable result reparsed completes).1
  exact supplied mcpMetaClientInfo (by decide) rfl

theorem parseJsonObject_emptyMeta :
    parseJsonObject (pingBody []) = some (PyJson.ofMembers (ping [])) :=
  parseJsonObject_pingBody ⟨List.nodup_nil, trivial⟩

theorem synthesizedMeta_complete_iff_ping :
    ∃ updated updatedBody params bodyMeta,
      bodyWithSynthesizedMcpRequestMeta Json.Decimal modernHeaders (pingBody []) = some updated ∧
      (validateMcpStreamableHttpRequest modernHeaders updated :
        Option (Nat × PyJson Json.Decimal)) = none ∧
      parseJsonObject updated = some updatedBody ∧
      Completes (headerValue modernHeaders "mcp-protocol-version") (PyJson.ofMembers (ping []))
        updatedBody params bodyMeta := by
  have accepted : (validateMcpStreamableHttpRequest modernHeaders (pingBody []) :
      Option (Nat × PyJson Json.Decimal)) = none := by
    apply accepted_ping parseJsonObject_emptyMeta
    decide
  refine (synthesizedMeta_complete_iff parseJsonObject_emptyMeta (requestMethod_ping []) accepted
    supported_modernHeaders (.inr rfl)).mpr ⟨?_, rfl⟩
  intro name among present
  simp only [mcpMetaNames, List.mem_cons, List.not_mem_nil, or_false] at among
  rcases among with rfl | rfl | rfl <;> cases present

end Pings

end LlmWikiServe
