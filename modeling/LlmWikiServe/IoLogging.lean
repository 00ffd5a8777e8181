import LlmWikiServe.Foundation.Encodings
import LlmWikiServe.Foundation.JsonLines
import LlmWikiServe.Foundation.Transition
import LlmWikiServe.LogRoots

/-!
# The I/O log

The middleware watches what an application receives and sends.  It keeps the first bytes of each
body and counts all of them, and writes an event when a response is complete or the application
fails.  Requests are served side by side and share one log file.
-/

namespace LlmWikiServe.IoLog

universe u

open Transition

def ioLogSchema : Text := "llmwiki-serve-io-log-v1"

def bodyCapturePaths : List Text := ["/query", "/mcp", "/mcp/stream", "/message:send"]

def maxBodyCaptureBytes : Nat := 64 * 1024

/-! ## Headers and bodies -/

section Summary

variable {F : Type u} [Json.FloatRepr F] [Unicode]

/-- `decode_headers(raw_headers)` -/
def decodeHeaders (rawHeaders : List (List UInt8 × List UInt8)) : List (Text × Text) :=
  rawHeaders.foldl
    (fun headers (rawKey, rawValue) =>
      let key := Text.lower (latin1 rawKey)
      let value := latin1 rawValue
      match Keyed.get? headers key with
      | some known => Keyed.set headers key (known ++ ", " ++ value)
      | none => Keyed.set headers key value)
    []

/-- `decode_query_string(raw_query_string)` -/
def decodeQueryString (rawQueryString : Option (List UInt8)) : Text :=
  (rawQueryString.map latin1).getD []

/-- `header_value(headers, name)` -/
def headerValue (headers : List (Text × Text)) (name : Text) : Text :=
  (Keyed.get? headers (Text.lower name)).getD []

/-- The ranges of the bytes that may follow the first byte of a character. -/
def continuationRanges (lead : Nat) : Option (List (Nat × Nat)) :=
  if lead < 0x80 then some []
  else if lead < 0xc2 then none
  else if lead < 0xe0 then some [(0x80, 0xbf)]
  else if lead = 0xe0 then some [(0xa0, 0xbf), (0x80, 0xbf)]
  else if lead = 0xed then some [(0x80, 0x9f), (0x80, 0xbf)]
  else if lead < 0xf0 then some [(0x80, 0xbf), (0x80, 0xbf)]
  else if lead = 0xf0 then some [(0x90, 0xbf), (0x80, 0xbf), (0x80, 0xbf)]
  else if lead < 0xf4 then some [(0x80, 0xbf), (0x80, 0xbf), (0x80, 0xbf)]
  else if lead = 0xf4 then some [(0x80, 0x8f), (0x80, 0xbf), (0x80, 0xbf)]
  else none

/-- The number of bytes that are in the ranges they meet, up to the first that is not. -/
def continued : List (Nat × Nat) → List UInt8 → Nat
  | (low, high) :: ranges, byte :: bytes =>
      if low ≤ byte.toNat ∧ byte.toNat ≤ high then continued ranges bytes + 1 else 0
  | _, _ => 0

def replacementCharacter : Char := Char.ofNat 0xfffd

/-- `body.decode("utf-8", errors="replace")`: what starts a character and breaks off is replaced
as one piece. -/
def decodeReplacing : List UInt8 → Text
  | [] => []
  | lead :: rest =>
      match continuationRanges lead.toNat with
      | none => replacementCharacter :: decodeReplacing rest
      | some ranges =>
          let known := continued ranges rest
          let char :=
            if known = ranges.length then Utf8.decode (lead :: rest.take known) else none
          char.getD [replacementCharacter] ++ decodeReplacing (rest.drop known)
termination_by bytes => bytes.length
decreasing_by
  · simp
  · simp only [List.length_drop, List.length_cons]
    omega

/-- `decode_body_text(body)` -/
def decodeBodyText (body : List UInt8) : Text := (Utf8.decode body).getD (decodeReplacing body)

/-- `is_json_content(content_type, text)` -/
def isJsonContent (contentType text : Text) : Bool :=
  Text.contains "json" (Text.lower contentType) ||
    (Text.startsWith (Text.lstripBy Text.isSpace text) "\x7b" ||
      Text.startsWith (Text.lstripBy Text.isSpace text) "[")

/-- `body_summary(body, …)` -/
def bodySummary (localRoots : List Text) (body : List UInt8) (totalSize : Nat)
    (headers : List (Text × Text)) (captured : Bool) : List (Text × Json F) :=
  let truncated := decide (body.length < totalSize)
  let summary : List (Text × Json F) :=
    [("captured", .bool captured), ("size_bytes", .int totalSize),
      ("captured_bytes", .int body.length), ("truncated", .bool truncated)]
  if !captured || totalSize = 0 then summary
  else
    let text := decodeBodyText body
    let parsed : Option (Json F) :=
      if isJsonContent (headerValue headers "content-type") text && !truncated then
        Json.loads text
      else none
    let shown : List (Text × Json F) := match parsed with
      | some value => [("json", redactValue localRoots value)]
      | none => if text = [] then [] else [("text", .string (redactString localRoots text))]
    summary ++ shown

/-- `redact_headers(headers, local_roots)` -/
def redactHeaders (localRoots : List Text) (headers : List (Text × Text)) :
    List (Text × Json F) :=
  headers.map fun (key, value) =>
    (key, .string (if isSensitiveKey key then redaction else redactString localRoots value))

end Summary

/-! ## The middleware -/

/-- What the server says about a request before its body. -/
structure HttpScope where
  method : Text
  path : Text
  queryString : Option (List UInt8)
  headers : List (List UInt8 × List UInt8)

/-- A message of the client; a body that is not of bytes is `none`. -/
inductive Received where
  | request (body : Option (List UInt8))
  | other

/-- A message of the application. -/
inductive Sent where
  | start (status : Option Int) (headers : List (List UInt8 × List UInt8))
  | body (body : Option (List UInt8)) (moreBody : Bool)
  | other

/-- What is read off the clock when an event is written. -/
structure Stamp (F : Type u) where
  timestamp : Text
  durationMs : F

/-- The variables of one call of the middleware.  `awaiting` counts the last messages of the
response that are being sent. -/
structure Exchange where
  method : Text
  path : Text
  queryString : Text
  requestHeaders : List (Text × Text)
  requestId : Text
  requestCaptured : List UInt8
  requestSize : Nat
  responseCaptured : List UInt8
  responseSize : Nat
  responseHeaders : List (Text × Text)
  statusCode : Int
  awaiting : Nat
  logged : Bool
  finished : Bool

/-- `append_limited(target, chunk)` -/
def appendLimited (target chunk : List UInt8) : List UInt8 :=
  if target.length < maxBodyCaptureBytes then
    target ++ chunk.take (maxBodyCaptureBytes - target.length)
  else target

namespace Exchange

variable [Unicode]

def opened (scope : HttpScope) (requestId : Text) : Exchange where
  method := scope.method
  path := scope.path
  queryString := decodeQueryString scope.queryString
  requestHeaders := decodeHeaders scope.headers
  requestId := requestId
  requestCaptured := []
  requestSize := 0
  responseCaptured := []
  responseSize := 0
  responseHeaders := []
  statusCode := 500
  awaiting := 0
  logged := false
  finished := false

/-- `request_capture_enabled` -/
def requestCaptureEnabled (exchange : Exchange) : Bool := exchange.path ∈ bodyCapturePaths

/-- `logging_receive()` -/
def receive (exchange : Exchange) : Received → Exchange
  | .request (some body) =>
      { exchange with
        requestSize := exchange.requestSize + body.length
        requestCaptured :=
          if exchange.requestCaptureEnabled then appendLimited exchange.requestCaptured body
          else exchange.requestCaptured }
  | _ => exchange

/-- `logging_send(message)`, up to the message being passed on. -/
def send (exchange : Exchange) : Sent → Exchange
  | .start status headers =>
      { exchange with statusCode := status.getD 0, responseHeaders := decodeHeaders headers }
  | .body body moreBody =>
      let counted := match body with
        | some body =>
            { exchange with
              responseSize := exchange.responseSize + body.length
              responseCaptured := appendLimited exchange.responseCaptured body }
        | none => exchange
      if moreBody then counted else { counted with awaiting := counted.awaiting + 1 }
  | .other => exchange

end Exchange

section Middleware

variable {F : Type u} [Json.FloatRepr F] [Unicode]

/-- `_write_event(…)`, up to the sink. -/
def eventOf (localRoots : List Text) (exchange : Exchange) (stamp : Stamp F) (statusCode : Int)
    (responseBody : List UInt8) (responseSize : Nat) (error : Option Text) : Json F :=
  let event : List (Text × Json F) :=
    [("schema", .string ioLogSchema), ("event", .string "serve_io"),
      ("timestamp", .string stamp.timestamp), ("request_id", .string exchange.requestId),
      ("method", .string exchange.method), ("path", .string exchange.path),
      ("query_string", .string exchange.queryString), ("status", .int statusCode),
      ("duration_ms", .float stamp.durationMs),
      ("request", .object
        [("headers", .object (redactHeaders localRoots exchange.requestHeaders)),
          ("body", .object (bodySummary localRoots exchange.requestCaptured exchange.requestSize
            exchange.requestHeaders exchange.requestCaptureEnabled))]),
      ("response", .object
        [("headers", .object (redactHeaders localRoots exchange.responseHeaders)),
          ("body", .object (bodySummary localRoots responseBody responseSize
            exchange.responseHeaders true))])]
  let failure : List (Text × Json F) := match error with
    | some text => [("error", .string text)]
    | none => []
  .object (event ++ failure)

/-- The event of a complete response. -/
def Exchange.completed (localRoots : List Text) (exchange : Exchange) (stamp : Stamp F) : Json F :=
  eventOf localRoots exchange stamp exchange.statusCode exchange.responseCaptured
    exchange.responseSize none

def Exchange.failed (localRoots : List Text) (exchange : Exchange) (stamp : Stamp F) : Json F :=
  eventOf localRoots exchange stamp 500 [] 0 (some "unhandled_exception")

/-- `JsonlIoLogSink.write(event)`; nothing is added where the file cannot be written. -/
def writeEvent (localRoots : List Text) (event : Json F) (written : Bool) (file : Text) : Text :=
  if written then file ++ Json.dumps .spaced (redactValue localRoots event) ++ ['\n'] else file

structure LogState where
  file : Text
  exchanges : List (Nat × Exchange)

/-- What happens to the calls: messages pass, sends end, applications return or fail.  The file
may refuse each event. -/
inductive IoEvent (F : Type u) where
  | opened (call : Nat) (scope : HttpScope) (requestId : Text)
  | received (call : Nat) (message : Received)
  | sending (call : Nat) (message : Sent)
  | sent (call : Nat) (delivered written : Bool) (stamp : Stamp F)
  | raised (call : Nat) (written : Bool) (stamp : Stamp F)
  | returned (call : Nat)

/-- One step of `IoLoggingMiddleware.__call__` in one of its calls. -/
def ioStep (localRoots : List Text) (log : LogState) : IoEvent F → Option LogState
  | .opened call scope requestId =>
      match Keyed.get? log.exchanges call with
      | some _ => none
      | none =>
          some { log with
            exchanges := Keyed.set log.exchanges call (Exchange.opened scope requestId) }
  | .received call message =>
      (Keyed.get? log.exchanges call).map fun exchange =>
        { log with exchanges := Keyed.set log.exchanges call (exchange.receive message) }
  | .sending call message =>
      (Keyed.get? log.exchanges call).map fun exchange =>
        { log with exchanges := Keyed.set log.exchanges call (exchange.send message) }
  | .sent call delivered written stamp =>
      (Keyed.get? log.exchanges call).bind fun exchange =>
        if exchange.awaiting = 0 then none
        else
          let passed := { exchange with awaiting := exchange.awaiting - 1 }
          if delivered then
            some
              { file := writeEvent localRoots (exchange.completed localRoots stamp) written log.file
                exchanges := Keyed.set log.exchanges call { passed with logged := true } }
          else some { log with exchanges := Keyed.set log.exchanges call passed }
  | .raised call written stamp =>
      (Keyed.get? log.exchanges call).bind fun exchange =>
        if exchange.finished then none
        else
          let ended := Keyed.set log.exchanges call { exchange with finished := true }
          if exchange.logged then some { log with exchanges := ended }
          else
            some
              { file := writeEvent localRoots (exchange.failed localRoots stamp) written log.file
                exchanges := ended }
  | .returned call =>
      (Keyed.get? log.exchanges call).bind fun exchange =>
        if exchange.finished then none
        else
          some { log with
            exchanges := Keyed.set log.exchanges call { exchange with finished := true } }

end Middleware

end LlmWikiServe.IoLog
