import LlmWikiServe.McpRequests

/-!
# Mirrored headers and the body they mirror

The headers that the endpoint adds pass its own comparison with the body, unless the method or
the name is written like an encoded value itself.
-/

namespace LlmWikiServe

universe u

/-! ## Headers of a scope -/

section Headers

variable [Unicode]

theorem getD_asgiHeaderValues (raw : List (List UInt8 × List UInt8)) (name : Text) :
    (Keyed.get? (asgiHeaderValues raw) name).getD [] =
      (raw.filter fun entry => Text.lower (latin1 entry.1) = name).map fun entry =>
        latin1 entry.2 := by
  have step : ∀ dict : List (Text × List Text),
      (Keyed.get? (raw.foldl (fun headers entry =>
        let name := Text.lower (latin1 entry.1)
        Keyed.set headers name ((Keyed.get? headers name).getD [] ++ [latin1 entry.2])) dict)
          name).getD [] =
        (Keyed.get? dict name).getD [] ++
          (raw.filter fun entry => Text.lower (latin1 entry.1) = name).map fun entry =>
            latin1 entry.2 := by
    induction raw with
    | nil => exact fun dict => (List.append_nil _).symm
    | cons entry rest inductionHypothesis =>
        intro dict
        rw [List.foldl_cons, inductionHypothesis, Keyed.get?_set, List.filter_cons]
        by_cases same : Text.lower (latin1 entry.1) = name
        · simp [same]
        · simp [same]
  exact step []

def CarriesHeader (raw : List (List UInt8 × List UInt8)) (name : Text) : Prop :=
  ∃ entry ∈ raw, Text.lower (latin1 entry.1) = Text.lower name

theorem not_carriesHeader_nil (name : Text) : ¬CarriesHeader [] name := by
  rintro ⟨entry, member, -⟩
  cases member

theorem filter_of_not_carries {raw : List (List UInt8 × List UInt8)} {name : Text}
    (missing : ¬CarriesHeader raw name) :
    (raw.filter fun entry => Text.lower (latin1 entry.1) = Text.lower name) = [] := by
  apply List.filter_eq_nil_iff.mpr
  intro entry member
  simpa using fun same => missing ⟨entry, member, same⟩

theorem headerValue_of_not_carries {raw : List (List UInt8 × List UInt8)} {name : Text}
    (missing : ¬CarriesHeader raw name) : headerValue (asgiHeaderValues raw) name = [] := by
  rw [headerValue, getD_asgiHeaderValues, filter_of_not_carries missing]
  rfl

theorem headerValue_of_one {raw more after : List (List UInt8 × List UInt8)} {name value : Text}
    (ascii : ∀ char ∈ name, char.toNat < 128) (missing : ¬CarriesHeader raw name)
    (missing' : ¬CarriesHeader more name) (missing'' : ¬CarriesHeader after name) :
    headerValue (asgiHeaderValues
        (raw ++ (more ++ ((asciiBytes name, asciiBytes (encodeHeaderText value)) :: after)))) name =
      encodeHeaderText value := by
  rw [headerValue, getD_asgiHeaderValues, List.filter_append, List.filter_append,
    filter_of_not_carries missing, filter_of_not_carries missing', List.filter_cons,
    filter_of_not_carries missing'', latin1_asciiBytes ascii]
  simp [latin1_encodeHeaderText, Text.join]

end Headers

/-! ## The comparison -/

theorem encodeHeaderText_ne_nil {value : Text} (nonempty : value ≠ []) :
    encodeHeaderText value ≠ [] := by
  unfold encodeHeaderText
  split_ifs with invalid
  · intro empty
    exact absurd (List.append_eq_nil_iff.mp empty).2 (by decide)
  · exact nonempty

/-- A mirrored value passes the comparison exactly where it comes back as it was sent. -/
theorem mirrorMatches_encodeHeaderText {value : Text} (nonempty : value ≠ []) :
    mirrorMatches (encodeHeaderText value) value.points = true ↔ looksEncoded value = false := by
  rw [← decodeMcpHeaderValue_encodeHeaderText, mirrorMatches]
  simp only [encodeHeaderText_ne_nil nonempty, decide_false, Bool.false_or, decide_eq_true_eq]
  constructor
  · intro same
    obtain ⟨decoded, found, spelled⟩ := Option.map_eq_some_iff.mp same
    rw [found, Text.points_inj.mp spelled]
  · intro found
    rw [found, Option.map_some]

section Scope

variable {F : Type u} [Json.FloatRepr F] [Unicode]

theorem mirrorHeader_of_missing {raw : List (List UInt8 × List UInt8)} {name value : Text}
    (nonempty : value ≠ []) (missing : ¬CarriesHeader raw name) :
    mirrorHeader (asgiHeaderValues raw) name value.points =
      some [(asciiBytes name, asciiBytes (encodeHeaderText value))] := by
  have points : value.points ≠ [] := fun empty => nonempty (Text.points_inj.mp empty)
  rw [mirrorHeader, if_pos ⟨points, headerValue_of_not_carries missing⟩,
    encodeMcpHeaderValue_points, Option.map_some]

theorem carriesHeader_single {name other : Text} {value : List UInt8}
    (ascii : ∀ char ∈ name, char.toNat < 128) (ascii' : ∀ char ∈ other, char.toNat < 128)
    (distinct : name.map Char.toLower ≠ other.map Char.toLower) :
    ¬CarriesHeader [(asciiBytes name, value)] other := by
  rintro ⟨entry, member, same⟩
  obtain rfl := List.mem_singleton.mp member
  rw [latin1_asciiBytes ascii, Text.lower_ascii ascii, Text.lower_ascii ascii'] at same
  exact distinct same

theorem carriesHeader_append {front back : List (List UInt8 × List UInt8)} {name : Text} :
    CarriesHeader (front ++ back) name ↔ CarriesHeader front name ∨ CarriesHeader back name := by
  simp [CarriesHeader, or_and_right, exists_or]

theorem scopeWithMcpMirrorHeaders_of_method {raw : List (List UInt8 × List UInt8)}
    {body : List UInt8} {requestBody : List (PyText × PyJson F)} {method : PyText}
    (parsed : parseJsonObject body = some requestBody)
    (named : requestMethod requestBody = some method) :
    scopeWithMcpMirrorHeaders F raw body =
      (mirrorHeader (asgiHeaderValues raw) "mcp-method" method).bind fun methodHeader =>
        (mirrorHeader (asgiHeaderValues raw) "mcp-name"
          ((mcpRequiredNameValue method (PyJson.member requestBody "params")).getD [])).map
            fun nameHeader => raw ++ (methodHeader ++ nameHeader) := by
  simp only [scopeWithMcpMirrorHeaders, parsed, named]

/-- The headers that mirror a method and the name it needs pass the comparison exactly where
neither looks encoded. -/
theorem mirror_passes_iff {raw : List (List UInt8 × List UInt8)} {body : List UInt8}
    {requestBody : List (PyText × PyJson F)} {method : Text} {name : Option Text}
    (parsed : parseJsonObject body = some requestBody)
    (named : requestMethod requestBody = some method.points)
    (needed : mcpRequiredNameValue method.points (PyJson.member requestBody "params") =
      name.map Text.points)
    (methodMissing : ¬CarriesHeader raw "mcp-method") (nameMissing : ¬CarriesHeader raw "mcp-name") :
    (∃ updated, scopeWithMcpMirrorHeaders F raw body = some updated ∧
      mirrorMatches (headerValue (asgiHeaderValues updated) "mcp-method") method.points = true ∧
      ∀ expected ∈ name,
        mirrorMatches (headerValue (asgiHeaderValues updated) "mcp-name") expected.points = true) ↔
      looksEncoded method = false ∧ ∀ expected ∈ name, looksEncoded expected = false := by
  have methodAscii : ∀ char ∈ ("mcp-method" : Text), char.toNat < 128 := by decide
  have nameAscii : ∀ char ∈ ("mcp-name" : Text), char.toNat < 128 := by decide
  have nonempty : method ≠ [] := by
    rintro rfl
    have filtered := Option.filter_eq_some_iff.mp named
    simp at filtered
  have behind : ∀ value, ¬CarriesHeader [(asciiBytes "mcp-name", value)] "mcp-method" := fun _ =>
    carriesHeader_single nameAscii methodAscii (by decide)
  have before : ∀ value, ¬CarriesHeader [(asciiBytes "mcp-method", value)] "mcp-name" := fun _ =>
    carriesHeader_single methodAscii nameAscii (by decide)
  rw [scopeWithMcpMirrorHeaders_of_method parsed named,
    mirrorHeader_of_missing nonempty methodMissing, Option.bind_some, needed]
  by_cases nothing : name.getD [] = []
  · -- There is no name to mirror, so none is compared.
    have empty : (name.map Text.points).getD [] = [] := by
      cases name with
      | none => rfl
      | some shown => exact congrArg Text.points nothing
    have shown : ∀ expected ∈ name, expected = [] := by
      rintro expected rfl
      exact nothing
    have scope : ¬CarriesHeader (raw ++ ([(asciiBytes "mcp-method",
        asciiBytes (encodeHeaderText method))] ++ [])) "mcp-name" := by
      rw [carriesHeader_append, carriesHeader_append]
      exact not_or.mpr ⟨nameMissing, not_or.mpr ⟨before _, not_carriesHeader_nil _⟩⟩
    have methodValue := @headerValue_of_one _ raw [] [] "mcp-method" method methodAscii
      methodMissing (not_carriesHeader_nil _) (not_carriesHeader_nil _)
    rw [List.nil_append] at methodValue
    rw [empty, mirrorHeader, if_neg (fun both => both.1 rfl), Option.map_some]
    simp only [Option.some.injEq, exists_eq_left']
    rw [headerValue_of_not_carries scope, List.append_nil, methodValue,
      mirrorMatches_encodeHeaderText nonempty]
    refine and_congr_right fun _ => ⟨fun _ expected member => ?_, fun _ expected _ => rfl⟩
    rw [shown expected member]
    rfl
  · cases name with
    | none => exact absurd rfl nothing
    | some shown =>
        have methodValue := @headerValue_of_one _ raw []
          [(asciiBytes "mcp-name", asciiBytes (encodeHeaderText shown))] "mcp-method" method
          methodAscii methodMissing (not_carriesHeader_nil _) (behind _)
        have nameValue := @headerValue_of_one _ raw
          [(asciiBytes "mcp-method", asciiBytes (encodeHeaderText method))] [] "mcp-name" shown
          nameAscii nameMissing (before _) (not_carriesHeader_nil _)
        have present : shown ≠ [] := nothing
        rw [Option.map_some, Option.getD_some, mirrorHeader_of_missing present nameMissing,
          Option.map_some]
        simp only [Option.some.injEq, exists_eq_left', Option.mem_def, forall_eq']
        rw [nameValue, mirrorMatches_encodeHeaderText present]
        rw [List.nil_append] at methodValue
        rw [List.singleton_append, methodValue, mirrorMatches_encodeHeaderText nonempty]

/-- Encoding a header is undone, and the mirrored headers of a request without such headers pass
the comparison with its body, exactly where no value looks encoded. -/
theorem mcpHeaders_invertible_iff {raw : List (List UInt8 × List UInt8)} {body : List UInt8}
    {requestBody : List (PyText × PyJson F)} {method : Text} {name : Option Text}
    (parsed : parseJsonObject body = some requestBody)
    (named : requestMethod requestBody = some method.points)
    (needed : mcpRequiredNameValue method.points (PyJson.member requestBody "params") =
      name.map Text.points)
    (methodMissing : ¬CarriesHeader raw "mcp-method") (nameMissing : ¬CarriesHeader raw "mcp-name") :
    (∀ value : Text, ((encodeMcpHeaderValue value.points).bind fun encoded =>
        decodeMcpHeaderValue (latin1 encoded)) = some value ↔ looksEncoded value = false) ∧
    ((∃ updated, scopeWithMcpMirrorHeaders F raw body = some updated ∧
      mirrorMatches (headerValue (asgiHeaderValues updated) "mcp-method") method.points = true ∧
      ∀ expected ∈ name,
        mirrorMatches (headerValue (asgiHeaderValues updated) "mcp-name") expected.points = true) ↔
      looksEncoded method = false ∧ ∀ expected ∈ name, looksEncoded expected = false) := by
  refine ⟨fun value => ?_, mirror_passes_iff parsed named needed methodMissing nameMissing⟩
  rw [encodeMcpHeaderValue_points, Option.bind_some, latin1_encodeHeaderText]
  exact decodeMcpHeaderValue_encodeHeaderText value

end Scope

/-! ## A call of a tool -/

section Calls

attribute [local instance] Unicode.ascii

def toolCall (name : Text) : List (Text × Json Json.Decimal) :=
  [("method", .string "tools/call"), ("params", .object [("name", .string name)])]

def toolCallBody (name : Text) : List UInt8 :=
  Utf8.encode (Json.print .compact 0 (.object (toolCall name)))

theorem parseJsonObject_toolCallBody (name : Text) :
    parseJsonObject (toolCallBody name) = some (PyJson.ofMembers (toolCall name)) := by
  have names : [Text.points "method", Text.points "params"].Nodup := by decide
  apply parseJsonObject_print
  exact ⟨names, trivial, ⟨List.nodup_singleton _, trivial, trivial⟩, trivial⟩

theorem requestMethod_toolCall (name : Text) :
    requestMethod (PyJson.ofMembers (toolCall name)) = some (Text.points "tools/call") := rfl

theorem mcpRequiredNameValue_toolCall (name : Text) :
    mcpRequiredNameValue (Text.points "tools/call")
      (PyJson.member (PyJson.ofMembers (toolCall name)) "params") =
        (some name).map Text.points := rfl

/-- The name of the tool is plain and looks encoded: it is read as another name. -/
theorem toolName_misread :
    (encodeMcpHeaderValue (Text.points "=?base64?aGk=?=")).bind
        (fun encoded => decodeMcpHeaderValue (latin1 encoded)) = some ("hi" : Text) ∧
      ¬∃ updated, scopeWithMcpMirrorHeaders Json.Decimal [] (toolCallBody "=?base64?aGk=?=") =
          some updated ∧
        mirrorMatches (headerValue (asgiHeaderValues updated) "mcp-method")
          (Text.points "tools/call") = true ∧
        ∀ expected ∈ some ("=?base64?aGk=?=" : Text),
          mirrorMatches (headerValue (asgiHeaderValues updated) "mcp-name")
            (Text.points expected) = true := by
  constructor
  · have spelled : Base64.decode ("aGk=" : Text) = some (Utf8.encode "hi") := by decide
    have plain : encodeHeaderText "=?base64?aGk=?=" = ("=?base64?aGk=?=" : Text) := by decide
    rw [encodeMcpHeaderValue_points, Option.bind_some, latin1_encodeHeaderText, plain]
    exact (congrArg (·.bind Utf8.decode) spelled).trans (Utf8.decode_encode "hi")
  · rw [mirror_passes_iff (parseJsonObject_toolCallBody "=?base64?aGk=?=")
      (requestMethod_toolCall _) (mcpRequiredNameValue_toolCall _) (not_carriesHeader_nil _) (not_carriesHeader_nil _)]
    decide

theorem mcpHeaders_invertible_iff_toolCall :
    ∃ updated, scopeWithMcpMirrorHeaders Json.Decimal [] (toolCallBody "wiki") = some updated ∧
      mirrorMatches (headerValue (asgiHeaderValues updated) "mcp-method")
        (Text.points "tools/call") = true ∧
      ∀ expected ∈ some ("wiki" : Text),
        mirrorMatches (headerValue (asgiHeaderValues updated) "mcp-name")
          (Text.points expected) = true := by
  refine (mcpHeaders_invertible_iff (parseJsonObject_toolCallBody "wiki")
    (requestMethod_toolCall "wiki") (mcpRequiredNameValue_toolCall "wiki") (not_carriesHeader_nil _)
    (not_carriesHeader_nil _)).2.mpr ⟨by decide, fun expected given => ?_⟩
  obtain rfl := Option.mem_some.mp given
  decide

end Calls

end LlmWikiServe
