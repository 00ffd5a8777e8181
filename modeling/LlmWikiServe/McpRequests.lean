import LlmWikiServe.Foundation.Unicode
import LlmWikiServe.McpHeaders

/-!
# Requests of the streamable endpoint

A request is checked against its headers, completed with the metadata that newer clients send
themselves, and passed on with the headers that mirror its body.
-/

namespace LlmWikiServe

universe u

class McpSdk where
  handshakeProtocolVersions : List Text
  modernProtocolVersions : List Text
  handshake_named : [] ∉ handshakeProtocolVersions
  modern_named : [] ∉ modernProtocolVersions

@[reducible]
def McpSdk.fallback : McpSdk where
  handshakeProtocolVersions := ["2025-06-18", "2025-11-25"]
  modernProtocolVersions := ["2026-07-28"]
  handshake_named := by decide
  modern_named := by decide

def mcpProtocolVersion : Text := "2026-07-28"

section Versions

variable [McpSdk]

def mcpCompatProtocolVersions : List Text :=
  Keyed.firstWins id ("2025-06-18" :: McpSdk.handshakeProtocolVersions.reverse)

def mcpSupportedProtocolVersions : List Text :=
  Keyed.firstWins id
    (mcpProtocolVersion :: McpSdk.modernProtocolVersions.reverse ++ mcpCompatProtocolVersions)

end Versions

def mcpMetaProtocolVersion : Text := "io.modelcontextprotocol/protocolVersion"

def mcpMetaClientInfo : Text := "io.modelcontextprotocol/clientInfo"

def mcpMetaClientCapabilities : Text := "io.modelcontextprotocol/clientCapabilities"

def mcpHeaderMismatchCode : Int := -32020

def mcpUnsupportedProtocolVersionCode : Int := -32022

/-! ## Headers -/

section Headers

variable [Unicode]

/-- `asgi_header_values(scope)`, of the raw headers of the scope. -/
def asgiHeaderValues (raw : List (List UInt8 × List UInt8)) : List (Text × List Text) :=
  raw.foldl (fun headers entry =>
    let name := Text.lower (latin1 entry.1)
    Keyed.set headers name ((Keyed.get? headers name).getD [] ++ [latin1 entry.2])) []

/-- `header_value(headers, name)` -/
def headerValue (headers : List (Text × List Text)) (name : Text) : Text :=
  Text.join ", " ((Keyed.get? headers (Text.lower name)).getD [])

def mcpAcceptHeaderIsValid (value : Text) : Bool :=
  let parts := (Text.splitOn ',' value).filter fun item => Text.strip item ≠ []
  let mediaTypes := parts.map fun item => Text.lower (Text.strip (Text.beforeFirst ';' item))
  decide (("application/json" : Text) ∈ mediaTypes) &&
    decide (("text/event-stream" : Text) ∈ mediaTypes)

end Headers

/-! ## Bodies -/

namespace PyJson

variable {F : Type u}

/-- `isinstance(value, dict)` -/
def dict? : PyJson F → Option (List (PyText × PyJson F))
  | .object members => some members
  | _ => none

/-- `isinstance(value, str)` -/
def string? : PyJson F → Option PyText
  | .string text => some text
  | _ => none

/-- `value is None` -/
def isNull : PyJson F → Bool
  | .null => true
  | _ => false

/-- `members.get(name)` -/
def member (members : List (PyText × PyJson F)) (name : Text) : PyJson F :=
  (Keyed.get? members name.points).getD .null

end PyJson

section Bodies

variable {F : Type u} [Json.FloatRepr F]

/-- `parse_json_object(body)` -/
def parseJsonObject (body : List UInt8) : Option (List (PyText × PyJson F)) :=
  ((Utf8.decode body).bind PyJson.loads).bind PyJson.dict?

theorem parseJsonObject_dumps {members : List (PyText × PyJson F)}
    (distinct : (PyJson.object members).Distinct) {text : Text}
    (dumped : PyJson.dumps? (.object members) = some text) :
    parseJsonObject (Utf8.encode text) = some members := by
  rw [parseJsonObject, Utf8.decode_encode, Option.bind_some,
    PyJson.loads_dumps distinct dumped]
  rfl

theorem parseJsonObject_print {members : List (Text × Json F)}
    (distinct : (PyJson.object (PyJson.ofMembers members)).Distinct) :
    parseJsonObject (Utf8.encode (Json.print .compact 0 (.object members))) =
      some (PyJson.ofMembers members) := by
  apply parseJsonObject_dumps distinct
  rw [PyJson.dumps?, PyJson.json?, PyJson.jsonMembers?_ofMembers]
  rfl

omit [Json.FloatRepr F] in
def requestMethod (requestBody : List (PyText × PyJson F)) : Option PyText :=
  (PyJson.member requestBody "method").string?.filter (· ≠ [])

omit [Json.FloatRepr F] in
/-- `json_rpc_request_id(request_body)`; a Boolean is an integer, too. -/
def jsonRpcRequestId (requestBody : List (PyText × PyJson F)) : PyJson F :=
  match PyJson.member requestBody "id" with
  | .int value => .int value
  | .bool value => .bool value
  | .string text => .string text
  | _ => .null

omit [Json.FloatRepr F] in
/-- `mcp_required_name_value(method, params)` -/
def mcpRequiredNameValue (method : PyText) (params : PyJson F) : Option PyText :=
  if method ∈ [("tools/call" : Text), "resources/read", "prompts/get"].map Text.points then
    match params.dict? with
    | none => some []
    | some params =>
        let field : Text := if method = Text.points "resources/read" then "uri" else "name"
        some ((PyJson.member params field).string?.getD [])
  else none

end Bodies

/-! ## Errors -/

section Errors

variable {F : Type u}

/-- `mcp_header_mismatch(request_id, message)` -/
def mcpHeaderMismatch (requestId : PyJson F) (message : Text) : Nat × PyJson F :=
  (400, .object
    [(Text.points "jsonrpc", .string (Text.points "2.0")),
      (Text.points "id", requestId),
      (Text.points "error", .object
        [(Text.points "code", .int mcpHeaderMismatchCode),
          (Text.points "message", .string message.points)])])

/-- `mcp_unsupported_protocol_version(request_id, requested)` -/
def mcpUnsupportedProtocolVersion [McpSdk] (requestId : PyJson F) (requested : Text) :
    Nat × PyJson F :=
  (400, .object
    [(Text.points "jsonrpc", .string (Text.points "2.0")),
      (Text.points "id", requestId),
      (Text.points "error", .object
        [(Text.points "code", .int mcpUnsupportedProtocolVersionCode),
          (Text.points "message", .string (Text.points "Unsupported protocol version")),
          (Text.points "data", .object
            [(Text.points "supported", .array
                (mcpSupportedProtocolVersions.map fun version => .string version.points)),
              (Text.points "requested", .string requested.points)])])])

end Errors

/-! ## Validation -/

section Validation

variable {F : Type u}

/-- `is_legacy_initialize_request(method, body_meta, protocol_header, method_header)` -/
def isLegacyInitializeRequest (method : PyText) (bodyMeta : PyJson F)
    (protocolHeader methodHeader : Text) : Bool :=
  if method ≠ Text.points "initialize" ∨ protocolHeader ≠ [] then false
  else if methodHeader ≠ [] ∧ decodeMcpHeaderValue methodHeader ≠ some ("initialize" : Text) then
    false
  else if bodyMeta.isNull then true
  else
    bodyMeta.dict?.any fun members =>
      (Keyed.get? members mcpMetaProtocolVersion.points).isNone

/-- `params._meta` has a member that is neither null nor an object. -/
def clientMemberError (requestId : PyJson F) (bodyMeta : List (PyText × PyJson F))
    (name : Text) : Option (Nat × PyJson F) :=
  let value := PyJson.member bodyMeta name
  if !value.isNull && value.dict?.isNone then
    some (mcpHeaderMismatch requestId ("request params._meta." ++ name ++ " is malformed"))
  else none

/-- What is wrong with the version in `params._meta`. -/
def protocolMemberError (requestId : PyJson F) (bodyMeta : List (PyText × PyJson F))
    (protocolHeader : Text) : Option (Nat × PyJson F) :=
  let version := PyJson.member bodyMeta mcpMetaProtocolVersion
  if !version.isNull && (version.string?.getD []).isEmpty then
    some (mcpHeaderMismatch requestId
      ("request params._meta." ++ mcpMetaProtocolVersion ++ " is malformed"))
  else if !version.isNull && version.string? ≠ some protocolHeader.points then
    some (mcpHeaderMismatch requestId
      "MCP-Protocol-Version header does not match request params._meta protocolVersion")
  else none

/-- What is wrong with the `params._meta` that a request supplies. -/
def bodyMetaError (requestId : PyJson F) (protocolHeader : Text) (bodyMeta : PyJson F) :
    Option (Nat × PyJson F) :=
  match bodyMeta.dict? with
  | none => some (mcpHeaderMismatch requestId "request params._meta must be an object")
  | some bodyMeta =>
      (protocolMemberError requestId bodyMeta protocolHeader).or
        ((clientMemberError requestId bodyMeta mcpMetaClientInfo).or
          (clientMemberError requestId bodyMeta mcpMetaClientCapabilities))

/-- A header that mirrors a value of the body is absent, or decoded to it. -/
def mirrorMatches (header : Text) (expected : PyText) : Bool :=
  header = [] || decide ((decodeMcpHeaderValue header).map Text.points = some expected)

variable [Unicode] [McpSdk]

/-- The checks of a request with a method and the parameters it has as an object. -/
def validateMethodRequest (headers : List (Text × List Text)) (requestId : PyJson F)
    (method : PyText) (params : Option (List (PyText × PyJson F))) : Option (Nat × PyJson F) :=
  let suppliedMeta := params.bind fun params => Keyed.get? params (Text.points "_meta")
  let protocolHeader := headerValue headers "mcp-protocol-version"
  let methodHeader := headerValue headers "mcp-method"
  if isLegacyInitializeRequest method (suppliedMeta.getD .null) protocolHeader methodHeader then
    none
  else if protocolHeader = [] then
    some (mcpHeaderMismatch requestId "MCP-Protocol-Version header is required")
  else if invalidPlainHeaderValue protocolHeader then
    some (mcpHeaderMismatch requestId "MCP-Protocol-Version header is malformed")
  else if protocolHeader ∉ mcpSupportedProtocolVersions then
    some (mcpUnsupportedProtocolVersion requestId protocolHeader)
  else if !mirrorMatches methodHeader method then
    some (mcpHeaderMismatch requestId "Mcp-Method header does not match the request body method")
  else
    (suppliedMeta.bind (bodyMetaError requestId protocolHeader)).or
      ((mcpRequiredNameValue method ((params.map .object).getD .null)).bind fun expectedName =>
        if mirrorMatches (headerValue headers "mcp-name") expectedName then none
        else
          some (mcpHeaderMismatch requestId
            "Mcp-Name header does not match the request body name"))

variable [Json.FloatRepr F]

/-- `validate_mcp_streamable_http_request(headers, body)`: the error, if there is one. -/
def validateMcpStreamableHttpRequest (headers : List (Text × List Text)) (body : List UInt8) :
    Option (Nat × PyJson F) :=
  (parseJsonObject body).bind fun requestBody =>
    let requestId := jsonRpcRequestId requestBody
    if !mcpAcceptHeaderIsValid (headerValue headers "accept") then
      some (mcpHeaderMismatch requestId
        "Accept header must include application/json and text/event-stream")
    else
      (requestMethod requestBody).bind fun method =>
        validateMethodRequest headers requestId method (PyJson.member requestBody "params").dict?

end Validation

/-! ## Synthesised metadata -/

section Synthesis

variable {F : Type u}

/-- `synthesized_mcp_request_meta(protocol_version)` -/
def synthesizedMcpRequestMeta (protocolVersion : Text) : List (PyText × PyJson F) :=
  [(mcpMetaProtocolVersion.points, .string protocolVersion.points),
    (mcpMetaClientInfo.points, .object
      [(Text.points "name", .string (Text.points "current-mcp-client")),
        (Text.points "version", .string (Text.points "unknown"))]),
    (mcpMetaClientCapabilities.points, .object [])]

/-- The metadata of a request: what it supplies is stored over what is synthesised. -/
def updatedMeta (protocolVersion : Text) :
    Option (PyJson F) → Option (List (PyText × PyJson F))
  | none => some (synthesizedMcpRequestMeta protocolVersion)
  | some supplied =>
      supplied.dict?.map (Keyed.update (synthesizedMcpRequestMeta protocolVersion))

/-- The parameters with metadata, where they are absent, null or an object. -/
def updatedParams (protocolVersion : Text) (params : PyJson F) :
    Option (List (PyText × PyJson F)) :=
  match params.dict? with
  | some params =>
      (updatedMeta protocolVersion (Keyed.get? params (Text.points "_meta"))).map fun updated =>
        Keyed.set params (Text.points "_meta") (.object updated)
  | none =>
      if params.isNull then
        some [(Text.points "_meta", .object (synthesizedMcpRequestMeta protocolVersion))]
      else none

variable [Unicode] [McpSdk] [Json.FloatRepr F]

/-- `body_with_synthesized_mcp_request_meta(headers, body)`; there is none where a surrogate
cannot be encoded. -/
def bodyWithSynthesizedMcpRequestMeta (F : Type u) [Json.FloatRepr F]
    (headers : List (Text × List Text)) (body : List UInt8) : Option (List UInt8) :=
  let protocolHeader := headerValue headers "mcp-protocol-version"
  if protocolHeader ∉ mcpSupportedProtocolVersions then some body
  else
    match (parseJsonObject body : Option (List (PyText × PyJson F))) with
    | none => some body
    | some requestBody =>
        match requestMethod requestBody,
          updatedParams protocolHeader (PyJson.member requestBody "params") with
        | some _, some params =>
            let updatedBody := Keyed.set requestBody (Text.points "params") (.object params)
            (PyJson.dumps? (.object updatedBody)).map Utf8.encode
        | _, _ => some body

end Synthesis

/-! ## Mirrored headers -/

section Mirror

variable {F : Type u} [Unicode]

def mirrorHeader (headers : List (Text × List Text)) (name : Text) (value : PyText) :
    Option (List (List UInt8 × List UInt8)) :=
  if value ≠ [] ∧ headerValue headers name = [] then
    (encodeMcpHeaderValue value).map fun encoded => [(asciiBytes name, encoded)]
  else some []

/-- `scope_with_mcp_mirror_headers(scope, body)`, of the raw headers of the scope; there are
none where a surrogate cannot be encoded. -/
def scopeWithMcpMirrorHeaders (F : Type u) [Json.FloatRepr F]
    (raw : List (List UInt8 × List UInt8)) (body : List UInt8) :
    Option (List (List UInt8 × List UInt8)) :=
  match (parseJsonObject body : Option (List (PyText × PyJson F))) with
  | none => some raw
  | some requestBody =>
      match requestMethod requestBody with
      | none => some raw
      | some method =>
          let headers := asgiHeaderValues raw
          let expectedName := mcpRequiredNameValue method (PyJson.member requestBody "params")
          (mirrorHeader headers "mcp-method" method).bind fun methodHeader =>
            (mirrorHeader headers "mcp-name" (expectedName.getD [])).map fun nameHeader =>
              raw ++ (methodHeader ++ nameHeader)

end Mirror

end LlmWikiServe
