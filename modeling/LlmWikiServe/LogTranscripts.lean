import LlmWikiServe.IoLogging

/-!
# Transcripts of the I/O log

A call is described by everything that was said in it, with its bodies whole.  What the middleware
keeps of a call is a function of that, and the log file holds one line for each event the
transcript calls for, in order, however the calls are interleaved.
-/

namespace LlmWikiServe.IoLog

universe u

open Transition

/-! ## Captured bodies -/

theorem appendLimited_take (whole chunk : List UInt8) :
    appendLimited (whole.take maxBodyCaptureBytes) chunk =
      (whole ++ chunk).take maxBodyCaptureBytes := by
  rw [appendLimited, List.take_append]
  split_ifs with room
  · rw [List.length_take] at room
    have short : whole.length < maxBodyCaptureBytes := by omega
    rw [List.length_take, min_eq_right short.le]
  · rw [List.length_take] at room
    have full : maxBodyCaptureBytes - whole.length = 0 := by omega
    rw [full, List.take_zero, List.append_nil]

/-! ## What was said in a call -/

section Transcript

variable {F : Type u}

namespace IoEvent

def call : IoEvent F → Nat
  | .opened call _ _ => call
  | .received call _ => call
  | .sending call _ => call
  | .sent call _ _ _ => call
  | .raised call _ _ => call
  | .returned call => call

def requestBytes : IoEvent F → List UInt8
  | .received _ (.request (some body)) => body
  | _ => []

def responseBytes : IoEvent F → List UInt8
  | .sending _ (.body (some body) _) => body
  | _ => []

def responseStart : IoEvent F → Option (Option Int × List (List UInt8 × List UInt8))
  | .sending _ (.start status headers) => some (status, headers)
  | _ => none

def awaitingAfter (awaiting : Nat) : IoEvent F → Nat
  | .sending _ (.body _ false) => awaiting + 1
  | .sent _ _ _ _ => awaiting - 1
  | _ => awaiting

def completes : IoEvent F → Bool
  | .sent _ delivered _ _ => delivered
  | _ => false

def finishes : IoEvent F → Bool
  | .raised _ _ _ => true
  | .returned _ => true
  | _ => false

def opening (wanted : Nat) : IoEvent F → Option (HttpScope × Text)
  | .opened call scope requestId => if call = wanted then some (scope, requestId) else none
  | _ => none

end IoEvent

def saidIn (call : Nat) (history : List (IoEvent F)) : List (IoEvent F) :=
  history.filter fun event => event.call = call

def openingOf (call : Nat) (history : List (IoEvent F)) : Option (HttpScope × Text) :=
  history.findSome? (IoEvent.opening call)

variable [Unicode]

/-- What the middleware keeps of a call in which this was said. -/
def exchangeOf (opening : HttpScope × Text) (said : List (IoEvent F)) : Exchange where
  method := opening.1.method
  path := opening.1.path
  queryString := decodeQueryString opening.1.queryString
  requestHeaders := decodeHeaders opening.1.headers
  requestId := opening.2
  requestCaptured :=
    if opening.1.path ∈ bodyCapturePaths then
      (said.flatMap IoEvent.requestBytes).take maxBodyCaptureBytes
    else []
  requestSize := (said.flatMap IoEvent.requestBytes).length
  responseCaptured := (said.flatMap IoEvent.responseBytes).take maxBodyCaptureBytes
  responseSize := (said.flatMap IoEvent.responseBytes).length
  responseHeaders :=
    ((said.filterMap IoEvent.responseStart).getLast?.map fun start =>
      decodeHeaders start.2).getD []
  statusCode :=
    ((said.filterMap IoEvent.responseStart).getLast?.map fun start => start.1.getD 0).getD 500
  awaiting := said.foldl IoEvent.awaitingAfter 0
  logged := said.any IoEvent.completes
  finished := said.any IoEvent.finishes

/-- What an event of a call makes of what is kept of the call. -/
def Exchange.after (exchange : Exchange) : IoEvent F → Exchange
  | .opened _ _ _ => exchange
  | .received _ message => exchange.receive message
  | .sending _ message => exchange.send message
  | .sent _ delivered _ _ =>
      { exchange with
        awaiting := exchange.awaiting - 1
        logged := exchange.logged || delivered }
  | .raised _ _ _ => { exchange with finished := true }
  | .returned _ => { exchange with finished := true }

theorem exchangeOf_opened (opening : HttpScope × Text) (call : Nat) (scope : HttpScope)
    (requestId : Text) :
    exchangeOf opening [(.opened call scope requestId : IoEvent F)] =
      Exchange.opened opening.1 opening.2 := by
  simp [exchangeOf, Exchange.opened, IoEvent.requestBytes, IoEvent.responseBytes,
    IoEvent.responseStart, IoEvent.awaitingAfter, IoEvent.completes, IoEvent.finishes]

/-- One more event is what the middleware does with it. -/
theorem exchangeOf_concat (opening : HttpScope × Text) (said : List (IoEvent F))
    (event : IoEvent F) :
    exchangeOf opening (said ++ [event]) = (exchangeOf opening said).after event := by
  cases event with
  | opened call scope requestId =>
      simp [exchangeOf, Exchange.after, IoEvent.requestBytes, IoEvent.responseBytes,
        IoEvent.responseStart, IoEvent.awaitingAfter, IoEvent.completes, IoEvent.finishes]
  | received call message =>
      rcases message with (_ | body) | _
      all_goals
        simp [exchangeOf, Exchange.after, Exchange.receive, Exchange.requestCaptureEnabled,
          IoEvent.requestBytes, IoEvent.responseBytes, IoEvent.responseStart,
          IoEvent.awaitingAfter, IoEvent.completes, IoEvent.finishes]
      split_ifs <;> simp [appendLimited_take]
  | sending call message =>
      rcases message with ⟨status, headers⟩ | ⟨_ | body, _ | _⟩ | _
      all_goals
        simp [exchangeOf, Exchange.after, Exchange.send, IoEvent.requestBytes,
          IoEvent.responseBytes, IoEvent.responseStart, IoEvent.awaitingAfter,
          IoEvent.completes, IoEvent.finishes, appendLimited_take]
  | sent call delivered written stamp =>
      simp [exchangeOf, Exchange.after, IoEvent.requestBytes, IoEvent.responseBytes,
        IoEvent.responseStart, IoEvent.awaitingAfter, IoEvent.completes, IoEvent.finishes]
  | raised call written stamp =>
      simp [exchangeOf, Exchange.after, IoEvent.requestBytes, IoEvent.responseBytes,
        IoEvent.responseStart, IoEvent.awaitingAfter, IoEvent.completes, IoEvent.finishes]
  | returned call =>
      simp [exchangeOf, Exchange.after, IoEvent.requestBytes, IoEvent.responseBytes,
        IoEvent.responseStart, IoEvent.awaitingAfter, IoEvent.completes, IoEvent.finishes]

end Transcript

/-! ## Steps -/

section Steps

variable {F : Type u} [Json.FloatRepr F] [Unicode] {localRoots : List Text}

def Exchange.writes (localRoots : List Text) (exchange : Exchange) : IoEvent F → List (Json F)
  | .sent _ true true stamp => [exchange.completed localRoots stamp]
  | .raised _ true stamp => if exchange.logged then [] else [exchange.failed localRoots stamp]
  | _ => []

theorem writeEvent_eq (event : Json F) (written : Bool) (file : Text) :
    writeEvent localRoots event written file =
      file ++ Json.writeLines .spaced
        ((if written then [event] else []).map (redactValue localRoots)) := by
  cases written <;> simp [writeEvent, Json.writeLines]

/-- A call is opened once, and every other event is of a known call, which alone it changes. -/
theorem ioStep_cases {log next : LogState} {event : IoEvent F}
    (stepped : ioStep localRoots log event = some next) :
    (∃ call scope requestId, event = .opened call scope requestId ∧
        Keyed.get? log.exchanges call = none ∧ next.file = log.file ∧
        next.exchanges = Keyed.set log.exchanges call (Exchange.opened scope requestId)) ∨
      ∃ exchange, (∀ wanted, IoEvent.opening wanted event = none) ∧
        Keyed.get? log.exchanges event.call = some exchange ∧
        next.file = log.file ++ Json.writeLines .spaced
          ((exchange.writes localRoots event).map (redactValue localRoots)) ∧
        next.exchanges = Keyed.set log.exchanges event.call (exchange.after event) := by
  cases event with
  | opened call scope requestId =>
      simp only [ioStep] at stepped
      split at stepped
      · contradiction
      next fresh =>
        cases stepped
        exact Or.inl ⟨call, scope, requestId, rfl, fresh, rfl, rfl⟩
  | received call message =>
      obtain ⟨exchange, known, rfl⟩ := Option.map_eq_some_iff.mp stepped
      refine Or.inr ⟨exchange, fun _ => rfl, known, ?_, rfl⟩
      simp [Exchange.writes, Json.writeLines]
  | sending call message =>
      obtain ⟨exchange, known, rfl⟩ := Option.map_eq_some_iff.mp stepped
      refine Or.inr ⟨exchange, fun _ => rfl, known, ?_, rfl⟩
      simp [Exchange.writes, Json.writeLines]
  | sent call delivered written stamp =>
      obtain ⟨exchange, known, stepped⟩ := Option.bind_eq_some_iff.mp stepped
      refine Or.inr ⟨exchange, fun _ => rfl, known, ?_⟩
      split_ifs at stepped with idle passed
      · cases stepped
        rw [writeEvent_eq]
        cases written <;> simp [Exchange.writes, Exchange.after, passed, IoEvent.call]
      · cases stepped
        simp [Exchange.writes, Exchange.after, passed, IoEvent.call, Json.writeLines]
  | raised call written stamp =>
      obtain ⟨exchange, known, stepped⟩ := Option.bind_eq_some_iff.mp stepped
      refine Or.inr ⟨exchange, fun _ => rfl, known, ?_⟩
      split_ifs at stepped with ended logged
      · cases stepped
        cases written <;>
          simp [Exchange.writes, Exchange.after, logged, IoEvent.call, Json.writeLines]
      · cases stepped
        rw [writeEvent_eq]
        cases written <;> simp [Exchange.writes, Exchange.after, logged, IoEvent.call]
  | returned call =>
      obtain ⟨exchange, known, stepped⟩ := Option.bind_eq_some_iff.mp stepped
      refine Or.inr ⟨exchange, fun _ => rfl, known, ?_⟩
      split_ifs at stepped with ended
      cases stepped
      simp [Exchange.writes, Exchange.after, IoEvent.call, Json.writeLines]

/-! ## Runs -/

/-- What is kept of every call is what its transcript says. -/
def Transcribed (history : List (IoEvent F)) (log : LogState) : Prop :=
  ∀ call, Keyed.get? log.exchanges call =
    (openingOf call history).map fun opening => exchangeOf opening (saidIn call history)

/-- The events written after a history, each with its call. -/
def entriesAt (localRoots : List Text) (history : List (IoEvent F)) (event : IoEvent F) :
    List (Nat × Json F) :=
  match openingOf event.call history with
  | some opening =>
      ((exchangeOf opening (saidIn event.call history)).writes localRoots event).map
        fun entry => (event.call, entry)
  | none => []

def entriesFrom (localRoots : List Text) :
    List (IoEvent F) → List (IoEvent F) → List (Nat × Json F)
  | _, [] => []
  | history, event :: events =>
      entriesAt localRoots history event ++ entriesFrom localRoots (history ++ [event]) events

omit [Json.FloatRepr F] [Unicode] in
theorem saidIn_concat (call : Nat) (history : List (IoEvent F)) (event : IoEvent F) :
    saidIn call (history ++ [event]) =
      if event.call = call then saidIn call history ++ [event] else saidIn call history := by
  rw [saidIn, List.filter_append]
  split_ifs with same
  · simp [saidIn, same]
  · simp [saidIn, same]

omit [Json.FloatRepr F] [Unicode] in
theorem openingOf_concat (call : Nat) (history : List (IoEvent F)) (event : IoEvent F) :
    openingOf call (history ++ [event]) =
      (openingOf call history).or (IoEvent.opening call event) := by
  rw [openingOf, List.findSome?_append]
  simp [openingOf]

/-- Nothing is said in a call before it is opened. -/
def Opened (history : List (IoEvent F)) : Prop :=
  ∀ call, openingOf call history = none → saidIn call history = []

theorem transcribed_step {history : List (IoEvent F)} {log next : LogState} {event : IoEvent F}
    (transcribed : Transcribed history log) (silent : Opened history)
    (stepped : ioStep localRoots log event = some next) :
    Transcribed (history ++ [event]) next ∧ Opened (history ++ [event]) ∧
      next.file = log.file ++ Json.writeLines .spaced
        ((entriesAt localRoots history event).map fun entry =>
          redactValue localRoots entry.2) := by
  rcases ioStep_cases stepped with
    ⟨call, scope, requestId, rfl, fresh, file, exchanges⟩ |
      ⟨exchange, other, known, file, exchanges⟩
  · have unopened : openingOf call history = none := by
      have kept := transcribed call
      rw [fresh] at kept
      exact Option.map_eq_none_iff.mp kept.symm
    refine ⟨fun wanted => ?_, fun wanted none => ?_, ?_⟩
    · rw [exchanges, Keyed.get?_set, saidIn_concat, openingOf_concat]
      by_cases same : call = wanted
      · subst same
        rw [if_pos rfl, unopened, silent call unopened]
        simp [IoEvent.opening, IoEvent.call, exchangeOf_opened]
      · have apart : (IoEvent.opened (F := F) call scope requestId).call ≠ wanted := same
        rw [if_neg same, if_neg apart, transcribed wanted]
        simp [IoEvent.opening, same]
    · rw [openingOf_concat, Option.or_eq_none_iff] at none
      have apart : call ≠ wanted := by
        rintro rfl
        simp [IoEvent.opening] at none
      rw [saidIn_concat,
        if_neg (show ¬(IoEvent.opened call scope requestId).call = wanted from apart)]
      exact silent wanted none.1
    · rw [file, entriesAt]
      simp [IoEvent.call, unopened, Json.writeLines]
  · have kept := transcribed event.call
    rw [known] at kept
    obtain ⟨opening, opened, same⟩ := Option.map_eq_some_iff.mp kept.symm
    refine ⟨fun wanted => ?_, fun wanted none => ?_, ?_⟩
    · rw [exchanges, Keyed.get?_set, saidIn_concat, openingOf_concat, other wanted, Option.or_none]
      by_cases here : event.call = wanted
      · subst here
        rw [if_pos rfl, if_pos rfl, opened, Option.map_some, exchangeOf_concat, same]
      · rw [if_neg here, if_neg here, transcribed wanted]
    · rw [openingOf_concat, other wanted, Option.or_none] at none
      have apart : event.call ≠ wanted := by
        rintro rfl
        rw [opened] at none
        contradiction
      rw [saidIn_concat, if_neg apart]
      exact silent wanted none
    · rw [file, entriesAt, opened]
      simp only [same, List.map_map]
      rfl

/-- A run adds a line for each event the transcript calls for. -/
theorem file_exec {events history : List (IoEvent F)} {log final : LogState}
    (transcribed : Transcribed history log) (silent : Opened history)
    (run : exec (ioStep localRoots) log events = some final) :
    final.file = log.file ++ Json.writeLines .spaced
      ((entriesFrom localRoots history events).map fun entry =>
        redactValue localRoots entry.2) := by
  induction events generalizing history log with
  | nil =>
      cases run
      simp [entriesFrom, Json.writeLines]
  | cons event events inductionHypothesis =>
      obtain ⟨next, stepped, remaining⟩ := Option.bind_eq_some_iff.mp run
      obtain ⟨transcribed, silent, file⟩ := transcribed_step transcribed silent stepped
      rw [inductionHypothesis transcribed silent remaining, file, entriesFrom, List.map_append,
        Json.writeLines_append, List.append_assoc]

end Steps

/-! ## Names in an event -/

section Names

variable {F : Type u} [Unicode] {localRoots : List Text}

theorem map_fst_redactMembers (members : List (Text × Json F)) :
    (redactMembers localRoots members).map Prod.fst = members.map Prod.fst := by
  induction members with
  | nil => rfl
  | cons member members inductionHypothesis =>
      obtain ⟨name, item⟩ := member
      rw [redactMembers, List.map_cons, List.map_cons, inductionHypothesis, redactMember]

mutual

/-- Redaction keeps the names of an object apart. -/
theorem distinct_redactValue (value : Json F) (distinct : value.Distinct) :
    (redactValue localRoots value).Distinct := by
  match value with
  | .null => trivial
  | .bool _ => trivial
  | .int _ => trivial
  | .float _ => trivial
  | .string _ => trivial
  | .array items => exact distinct_redactItems items distinct
  | .object members =>
      refine ⟨?_, distinct_redactMembers members distinct.2⟩
      rw [map_fst_redactMembers]
      exact distinct.1
termination_by sizeOf value

theorem distinct_redactItems (items : List (Json F)) (distinct : Json.DistinctItems items) :
    Json.DistinctItems (redactItems localRoots items) := by
  match items with
  | [] => trivial
  | item :: items =>
      exact ⟨distinct_redactValue item distinct.1, distinct_redactItems items distinct.2⟩
termination_by sizeOf items

theorem distinct_redactMembers (members : List (Text × Json F))
    (distinct : Json.DistinctMembers members) :
    Json.DistinctMembers (redactMembers localRoots members) := by
  match members with
  | [] => trivial
  | (name, item) :: members =>
      refine ⟨?_, distinct_redactMembers members distinct.2⟩
      have inner := distinct_redactValue item distinct.1
      rw [redactMember, Json.DistinctMember]
      split_ifs
      · trivial
      · exact inner
termination_by sizeOf members

end

theorem nodup_decodeHeaders (rawHeaders : List (List UInt8 × List UInt8)) :
    ((decodeHeaders rawHeaders).map Prod.fst).Nodup := by
  unfold decodeHeaders
  generalize start : ([] : List (Text × Text)) = headers
  have nodup : (headers.map Prod.fst).Nodup := by
    rw [← start]
    exact List.nodup_nil
  clear start
  induction rawHeaders generalizing headers with
  | nil => exact nodup
  | cons header rest inductionHypothesis =>
      apply inductionHypothesis
      dsimp only
      split
      · exact Keyed.nodup_map_fst_set nodup _ _
      · exact Keyed.nodup_map_fst_set nodup _ _

omit [Unicode] in
theorem distinct_object {members : List (Text × Json F)} (names : List Text)
    (shape : members.map Prod.fst = names) (nodup : names.Nodup)
    (values : Json.DistinctMembers members) : (Json.object members).Distinct :=
  ⟨shape ▸ nodup, values⟩

theorem distinct_redactHeaders {headers : List (Text × Text)}
    (nodup : (headers.map Prod.fst).Nodup) :
    (Json.object (redactHeaders (F := F) localRoots headers)).Distinct := by
  refine ⟨?_, Json.distinctMembers_iff.mpr ?_⟩
  · simpa [redactHeaders, Function.comp_def] using nodup
  · rintro ⟨name, value⟩ among
    obtain ⟨header, _, same⟩ := List.mem_map.mp among
    cases same
    trivial

variable [Json.FloatRepr F]

theorem distinct_bodySummary (localRoots : List Text) (body : List UInt8) (totalSize : Nat)
    (headers : List (Text × Text)) (captured : Bool) :
    (Json.object (bodySummary (F := F) localRoots body totalSize headers captured)).Distinct := by
  unfold bodySummary
  split_ifs with bare
  · exact distinct_object ["captured", "size_bytes", "captured_bytes", "truncated"] rfl (by decide)
      ⟨trivial, trivial, trivial, trivial, trivial⟩
  · dsimp only
    split
    next value parsed =>
      have distinct : value.Distinct := by
        split_ifs at parsed
        exact Json.distinct_loads parsed
      exact distinct_object ["captured", "size_bytes", "captured_bytes", "truncated", "json"] rfl
        (by decide) ⟨trivial, trivial, trivial, trivial, distinct_redactValue value distinct, trivial⟩
    next =>
      split_ifs
      · exact distinct_object ["captured", "size_bytes", "captured_bytes", "truncated"] rfl
          (by decide) ⟨trivial, trivial, trivial, trivial, trivial⟩
      · exact distinct_object ["captured", "size_bytes", "captured_bytes", "truncated", "text"]
          rfl (by decide) ⟨trivial, trivial, trivial, trivial, trivial, trivial⟩

theorem distinct_message (localRoots : List Text) {headers : List (Text × Text)}
    (nodup : (headers.map Prod.fst).Nodup) (body : List UInt8) (totalSize : Nat) (captured : Bool) :
    (Json.object (F := F) [("headers", .object (redactHeaders localRoots headers)),
      ("body", .object (bodySummary localRoots body totalSize headers captured))]).Distinct := by
  have headersPart : (Json.object (F := F) (redactHeaders localRoots headers)).Distinct :=
    distinct_redactHeaders nodup
  have bodyPart := distinct_bodySummary (F := F) localRoots body totalSize headers captured
  exact distinct_object ["headers", "body"] rfl (by decide) ⟨headersPart, bodyPart, trivial⟩

theorem distinct_eventOf {exchange : Exchange}
    (request : (exchange.requestHeaders.map Prod.fst).Nodup)
    (response : (exchange.responseHeaders.map Prod.fst).Nodup) (stamp : Stamp F) (statusCode : Int)
    (responseBody : List UInt8) (responseSize : Nat) (error : Option Text) :
    (eventOf localRoots exchange stamp statusCode responseBody responseSize error).Distinct := by
  have requestPart := distinct_message (F := F) localRoots request exchange.requestCaptured
    exchange.requestSize exchange.requestCaptureEnabled
  have responsePart := distinct_message (F := F) localRoots response responseBody responseSize true
  cases error with
  | none =>
      exact distinct_object ["schema", "event", "timestamp", "request_id", "method", "path",
        "query_string", "status", "duration_ms", "request", "response"] rfl (by decide)
        ⟨trivial, trivial, trivial, trivial, trivial, trivial, trivial, trivial, trivial, requestPart,
          responsePart, trivial⟩
  | some text =>
      exact distinct_object ["schema", "event", "timestamp", "request_id", "method", "path",
        "query_string", "status", "duration_ms", "request", "response", "error"] rfl (by decide)
        ⟨trivial, trivial, trivial, trivial, trivial, trivial, trivial, trivial, trivial, requestPart,
          responsePart, trivial, trivial⟩

theorem distinct_writes {exchange : Exchange}
    (request : (exchange.requestHeaders.map Prod.fst).Nodup)
    (response : (exchange.responseHeaders.map Prod.fst).Nodup) (event : IoEvent F) :
    ∀ entry ∈ exchange.writes localRoots event, entry.Distinct := by
  intro entry written
  unfold Exchange.writes at written
  split at written
  · rw [List.mem_singleton.mp written]
    exact distinct_eventOf request response _ _ _ _ _
  · split_ifs at written
    · exact absurd written List.not_mem_nil
    · rw [List.mem_singleton.mp written]
      exact distinct_eventOf request response _ _ _ _ _
  · exact absurd written List.not_mem_nil

theorem distinct_entriesAt (history : List (IoEvent F)) (event : IoEvent F) :
    ∀ entry ∈ entriesAt localRoots history event, entry.2.Distinct := by
  intro entry among
  unfold entriesAt at among
  split at among
  next opening opened =>
    obtain ⟨value, written, rfl⟩ := List.mem_map.mp among
    refine distinct_writes (nodup_decodeHeaders opening.1.headers) ?_ event value written
    rw [exchangeOf]
    cases (List.filterMap IoEvent.responseStart (saidIn event.call history)).getLast? with
    | none => exact List.nodup_nil
    | some start => exact nodup_decodeHeaders start.2
  next => exact absurd among List.not_mem_nil

theorem distinct_entriesFrom (history events : List (IoEvent F)) :
    ∀ entry ∈ entriesFrom localRoots history events, entry.2.Distinct := by
  induction events generalizing history with
  | nil => exact fun _ among => absurd among List.not_mem_nil
  | cons event events inductionHypothesis =>
      rw [entriesFrom, List.forall_mem_append]
      exact ⟨distinct_entriesAt history event, inductionHypothesis _⟩

/-- The file of a run, read line by line. -/
theorem map_loads_exec {earlier : List (Json F)} (distinct : ∀ value ∈ earlier, value.Distinct)
    {events : List (IoEvent F)} {final : LogState}
    (run : exec (ioStep localRoots) ⟨Json.writeLines .spaced earlier, []⟩ events = some final) :
    (Json.fileLines final.file).map Json.loads =
      (earlier ++ (entriesFrom localRoots [] events).map fun entry =>
        redactValue localRoots entry.2).map fun value => some value.sortKeys := by
  have transcribed : Transcribed ([] : List (IoEvent F))
      ⟨Json.writeLines .spaced earlier, []⟩ := fun _ => rfl
  have silent : Opened ([] : List (IoEvent F)) := fun _ _ => rfl
  rw [file_exec transcribed silent run, ← Json.writeLines_append]
  apply Json.loads_fileLines Json.Layout.spaced_oneLine
  rw [List.forall_mem_append]
  refine ⟨distinct, fun value among => ?_⟩
  obtain ⟨entry, written, rfl⟩ := List.mem_map.mp among
  exact distinct_redactValue _ (distinct_entriesFrom [] events entry written)

end Names

/-! ## Calls on their own -/

section Alone

variable {F : Type u} [Json.FloatRepr F] [Unicode] {localRoots : List Text}

omit [Json.FloatRepr F] [Unicode] in
theorem openingOf_saidIn (call : Nat) (history : List (IoEvent F)) :
    openingOf call (saidIn call history) = openingOf call history := by
  induction history with
  | nil => rfl
  | cons event history inductionHypothesis =>
      simp only [openingOf, saidIn] at inductionHypothesis
      simp only [openingOf, saidIn, List.filter_cons, List.findSome?_cons]
      split_ifs with here
      · rw [List.findSome?_cons, inductionHypothesis]
      · have other : IoEvent.opening call event = none := by
          cases event with
          | opened opened scope requestId =>
              have apart : ¬opened = call := by
                intro same
                exact here (decide_eq_true same)
              exact if_neg apart
          | received => rfl
          | sending => rfl
          | sent => rfl
          | raised => rfl
          | returned => rfl
        rw [other, inductionHypothesis]

omit [Json.FloatRepr F] [Unicode] in
theorem saidIn_saidIn (call : Nat) (history : List (IoEvent F)) :
    saidIn call (saidIn call history) = saidIn call history := by
  simp [saidIn]

theorem entriesAt_saidIn (history : List (IoEvent F)) (event : IoEvent F) :
    entriesAt localRoots (saidIn event.call history) event =
      entriesAt localRoots history event := by
  rw [entriesAt, entriesAt, openingOf_saidIn, saidIn_saidIn]

theorem call_entriesAt {history : List (IoEvent F)} {event : IoEvent F} :
    ∀ entry ∈ entriesAt localRoots history event, entry.1 = event.call := by
  intro entry among
  unfold entriesAt at among
  split at among
  · obtain ⟨value, _, rfl⟩ := List.mem_map.mp among
    rfl
  · exact absurd among List.not_mem_nil

theorem entriesFrom_saidIn (call : Nat) (history events : List (IoEvent F)) :
    entriesFrom localRoots (saidIn call history) (saidIn call events) =
      (entriesFrom localRoots history events).filter fun entry => entry.1 = call := by
  induction events generalizing history with
  | nil => rfl
  | cons event events inductionHypothesis =>
      have later := inductionHypothesis (history ++ [event])
      rw [saidIn_concat] at later
      rw [entriesFrom, List.filter_append, ← later]
      by_cases here : event.call = call
      · subst here
        have all : (entriesAt localRoots history event).filter
            (fun entry => decide (entry.1 = event.call)) = entriesAt localRoots history event :=
          List.filter_eq_self.mpr fun entry among => decide_eq_true (call_entriesAt entry among)
        have said : saidIn event.call (event :: events) = event :: saidIn event.call events := by
          simp [saidIn]
        rw [if_pos rfl, all, said, entriesFrom, entriesAt_saidIn]
      · have none : (entriesAt localRoots history event).filter
            (fun entry => decide (entry.1 = call)) = [] := by
          rw [List.filter_eq_nil_iff]
          intro entry among
          rw [decide_eq_true_eq, call_entriesAt entry among]
          exact here
        have said : saidIn call (event :: events) = saidIn call events := by
          simp [saidIn, here]
        rw [if_neg here, none, said, List.nil_append]

/-- Whether an event is accepted depends on its call alone, and so does what is kept of it. -/
theorem ioStep_alone {log alone next : LogState} {event : IoEvent F}
    (same : Keyed.get? alone.exchanges event.call = Keyed.get? log.exchanges event.call)
    (stepped : ioStep localRoots log event = some next) :
    ∃ other, ioStep localRoots alone event = some other ∧
      Keyed.get? other.exchanges event.call = Keyed.get? next.exchanges event.call := by
  have accepted : (ioStep localRoots alone event).isSome = true := by
    have before : (ioStep localRoots log event).isSome = true := by rw [stepped]; rfl
    cases event with
    | opened call scope requestId =>
        simp only [ioStep, IoEvent.call] at same before ⊢
        rw [same]
        revert before
        cases Keyed.get? log.exchanges call <;> simp
    | received call message =>
        simp only [ioStep, IoEvent.call, Option.isSome_map] at same before ⊢
        rw [same, before]
    | sending call message =>
        simp only [ioStep, IoEvent.call, Option.isSome_map] at same before ⊢
        rw [same, before]
    | sent call delivered written stamp =>
        simp only [ioStep, IoEvent.call] at same before ⊢
        rw [same]
        revert before
        cases Keyed.get? log.exchanges call with
        | none => simp
        | some exchange => simp only [Option.bind_some]; split_ifs <;> simp
    | raised call written stamp =>
        simp only [ioStep, IoEvent.call] at same before ⊢
        rw [same]
        revert before
        cases Keyed.get? log.exchanges call with
        | none => simp
        | some exchange => simp only [Option.bind_some]; split_ifs <;> simp
    | returned call =>
        simp only [ioStep, IoEvent.call] at same before ⊢
        rw [same]
        revert before
        cases Keyed.get? log.exchanges call with
        | none => simp
        | some exchange => simp only [Option.bind_some]; split_ifs <;> simp
  obtain ⟨other, taken⟩ := Option.isSome_iff_exists.mp accepted
  refine ⟨other, taken, ?_⟩
  rcases ioStep_cases stepped with
    ⟨call, scope, requestId, rfl, _, _, exchanges⟩ | ⟨exchange, noOpening, known, _, exchanges⟩
  · rcases ioStep_cases taken with
      ⟨call', scope', requestId', opening, _, _, others⟩ | ⟨exchange, noOpening, _, _, _⟩
    · cases opening
      rw [exchanges, others, Keyed.get?_set, Keyed.get?_set]
      simp [IoEvent.call]
    · have opening := noOpening call
      simp [IoEvent.opening] at opening
  · rcases ioStep_cases taken with
      ⟨call', scope', requestId', rfl, _, _, _⟩ | ⟨exchange', _, known', _, others⟩
    · have opening := noOpening call'
      simp [IoEvent.opening] at opening
    · rw [same, known, Option.some.injEq] at known'
      rw [exchanges, others, Keyed.get?_set, Keyed.get?_set, known']
      simp

theorem get?_ioStep {log next : LogState} {event : IoEvent F} {call : Nat}
    (apart : event.call ≠ call) (stepped : ioStep localRoots log event = some next) :
    Keyed.get? next.exchanges call = Keyed.get? log.exchanges call := by
  rcases ioStep_cases stepped with
    ⟨opened, _, _, rfl, _, _, exchanges⟩ | ⟨_, _, _, _, exchanges⟩
  · have other : ¬opened = call := apart
    rw [exchanges, Keyed.get?_set, if_neg other]
  · rw [exchanges, Keyed.get?_set, if_neg apart]

theorem exec_saidIn {call : Nat} {events : List (IoEvent F)} {log alone final : LogState}
    (same : Keyed.get? alone.exchanges call = Keyed.get? log.exchanges call)
    (run : exec (ioStep localRoots) log events = some final) :
    ∃ other, exec (ioStep localRoots) alone (saidIn call events) = some other := by
  induction events generalizing log alone with
  | nil => exact ⟨alone, rfl⟩
  | cons event events inductionHypothesis =>
      obtain ⟨next, stepped, remaining⟩ := Option.bind_eq_some_iff.mp run
      by_cases here : event.call = call
      · subst here
        obtain ⟨other, taken, kept⟩ := ioStep_alone same stepped
        obtain ⟨last, finished⟩ := inductionHypothesis kept remaining
        have said : saidIn event.call (event :: events) = event :: saidIn event.call events := by
          simp [saidIn]
        exact ⟨last, by rw [said, exec, taken, Option.bind_some, finished]⟩
      · have said : saidIn call (event :: events) = saidIn call events := by
          simp [saidIn, here]
        rw [said]
        exact inductionHypothesis (same.trans (get?_ioStep here stepped).symm) remaining

/-- However calls are interleaved, the log reads back line by line as what was there before and the
redacted events of the transcript in order, and each call leaves the lines in it that it leaves
when it is served alone. -/
theorem log_reads_back {earlier : List (Json F)} (distinct : ∀ value ∈ earlier, value.Distinct)
    {events : List (IoEvent F)} {final : LogState}
    (run : exec (ioStep localRoots) ⟨Json.writeLines .spaced earlier, []⟩ events = some final) :
    (Json.fileLines final.file).map Json.loads =
        (earlier ++ (entriesFrom localRoots [] events).map fun entry =>
          redactValue localRoots entry.2).map (fun value => some value.sortKeys) ∧
      ∀ call, ∃ alone,
        exec (ioStep localRoots) ⟨Json.writeLines .spaced earlier, []⟩ (saidIn call events) =
            some alone ∧
          (Json.fileLines alone.file).map Json.loads =
            (earlier ++
              ((entriesFrom localRoots [] events).filter fun entry => entry.1 = call).map
                fun entry => redactValue localRoots entry.2).map
              fun value => some value.sortKeys := by
  refine ⟨map_loads_exec distinct run, fun call => ?_⟩
  have same : Keyed.get? (LogState.mk (Json.writeLines .spaced earlier) []).exchanges call =
      Keyed.get? (LogState.mk (Json.writeLines .spaced earlier) []).exchanges call := rfl
  obtain ⟨alone, served⟩ := exec_saidIn same run
  refine ⟨alone, served, ?_⟩
  rw [map_loads_exec distinct served, ← entriesFrom_saidIn]
  rfl

end Alone

section Served

attribute [local instance] Unicode.ascii

/-- A request that is answered while another one fails. -/
def answeredAndFailed : List (IoEvent Json.Decimal) :=
  let scope : HttpScope :=
    { method := "POST", path := "/query", queryString := none, headers := [] }
  let stamp : Stamp Json.Decimal := { timestamp := "now", durationMs := ⟨"1.5", by decide⟩ }
  [.opened 0 scope "first", .received 0 (.request (some [104, 105])), .opened 1 scope "second",
    .sending 0 (.start (some 200) []), .sending 0 (.body (some [111, 107]) false),
    .raised 1 true stamp, .sent 0 true true stamp, .returned 0]

theorem log_reads_back_answeredAndFailed : ∃ final,
    exec (ioStep ["/data/wiki"]) ⟨Json.writeLines .spaced [pathCounts], []⟩ answeredAndFailed =
        some final ∧
      (Json.fileLines final.file).map Json.loads =
          ([pathCounts] ++ (entriesFrom ["/data/wiki"] [] answeredAndFailed).map fun entry =>
            redactValue ["/data/wiki"] entry.2).map (fun value => some value.sortKeys) ∧
        ∀ call, ∃ alone,
          exec (ioStep ["/data/wiki"]) ⟨Json.writeLines .spaced [pathCounts], []⟩
              (saidIn call answeredAndFailed) = some alone ∧
            (Json.fileLines alone.file).map Json.loads =
              ([pathCounts] ++ ((entriesFrom ["/data/wiki"] [] answeredAndFailed).filter
                fun entry => entry.1 = call).map fun entry =>
                  redactValue ["/data/wiki"] entry.2).map fun value => some value.sortKeys := by
  have accepted : (exec (ioStep ["/data/wiki"]) ⟨Json.writeLines .spaced [pathCounts], []⟩
      answeredAndFailed).isSome = true := by decide
  obtain ⟨final, run⟩ := Option.isSome_iff_exists.mp accepted
  have distinct : ∀ value ∈ [pathCounts], value.Distinct := by
    intro value among
    rw [List.mem_singleton.mp among]
    exact distinct_object ["/data/wiki"] rfl (by decide) ⟨trivial, trivial⟩
  exact ⟨final, run, log_reads_back distinct run⟩

end Served

end LlmWikiServe.IoLog
