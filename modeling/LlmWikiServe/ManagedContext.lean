import LlmWikiServe.Analyzer
import LlmWikiServe.Foundation.Json
import LlmWikiServe.Search
import LlmWikiServe.Signature

/-!
# Managed context records

A record counts the hits of pages; every update reads the stored record, lets its counters decay,
adds the new hits and writes the record as JSON.  Floats are exact up to the largest one, with the
infinities and NaN.
-/

namespace LlmWikiServe.ManagedContext

/-! ## Floats -/

inductive PyFloat where
  | finite (value : ℚ)
  | inf
  | negInf
  | nan
  deriving DecidableEq

namespace PyFloat

def lt : PyFloat → PyFloat → Bool
  | .finite first, .finite second => decide (first < second)
  | .finite _, .inf => true
  | .negInf, .finite _ => true
  | .negInf, .inf => true
  | _, _ => false

def le (first second : PyFloat) : Bool :=
  lt first second || (first ≠ .nan && first = second)

/-- The least number that is rounded to infinity. -/
def overflowBound : Nat := 2 ^ 1024 - 2 ^ 970

/-- A result that overflows to an infinity. -/
def ofExact (value : ℚ) : PyFloat :=
  if value.num.natAbs < overflowBound * value.den then .finite value
  else if value < 0 then .negInf
  else .inf

def add : PyFloat → PyFloat → PyFloat
  | .finite first, .finite second => ofExact (first + second)
  | .nan, _ => .nan
  | _, .nan => .nan
  | .inf, .negInf => .nan
  | .negInf, .inf => .nan
  | .inf, _ => .inf
  | _, .inf => .inf
  | .negInf, _ => .negInf
  | _, .negInf => .negInf

/-- The sign of a number, zero for NaN. -/
def sign : PyFloat → Int
  | .finite value => if value = 0 then 0 else if value < 0 then -1 else 1
  | .inf => 1
  | .negInf => -1
  | .nan => 0

/-- A product with an infinity or NaN, by the signs of the factors. -/
def ofSign (sign : Int) : PyFloat := if sign = 0 then .nan else if sign < 0 then .negInf else .inf

def mul : PyFloat → PyFloat → PyFloat
  | .finite first, .finite second => .finite (first * second)
  | first, second => ofSign (first.sign * second.sign)

/-- `first / second`, absent where it raises. -/
def div? (first second : PyFloat) : Option PyFloat :=
  if second = .finite 0 then none
  else
    match first, second with
    | .finite first, .finite second => some (.finite (first / second))
    | .finite _, .nan => some .nan
    | .finite _, _ => some (.finite 0)
    | first, .finite second => some (ofSign (first.sign * (PyFloat.finite second).sign))
    | _, _ => some .nan

/-- `min(first, second)` -/
def min (first second : PyFloat) : PyFloat := if lt second first then second else first

/-- `round(value, 6)` -/
def round : PyFloat → PyFloat
  | .finite value => .finite (roundRat 6 value)
  | value => value

def isFinite : PyFloat → Bool
  | .finite _ => true
  | _ => false

/-- Where a number stands among the numbers and the infinities. -/
def level : PyFloat → WithBot (WithTop ℚ)
  | .finite value => ((value : WithTop ℚ) : WithBot (WithTop ℚ))
  | .inf => ((⊤ : WithTop ℚ) : WithBot (WithTop ℚ))
  | .negInf => ⊥
  | .nan => ⊥

theorem lt_iff_level {first second : PyFloat} (firstNumber : first ≠ .nan)
    (secondNumber : second ≠ .nan) : first.lt second = true ↔ first.level < second.level := by
  cases first <;> cases second <;> simp_all [lt, level]
  exact WithBot.coe_lt_coe.mpr (WithTop.coe_lt_top _)

theorem level_injective {first second : PyFloat} (firstNumber : first ≠ .nan)
    (secondNumber : second ≠ .nan) (same : first.level = second.level) : first = second := by
  cases first <;> cases second <;> simp_all [level]

end PyFloat

/-- `float(value)` or `int(value)`: refused with an error that callers catch, or raising an
`OverflowError` that they do not. -/
inductive Conversion (α : Type) where
  | value (value : α)
  | refused
  | overflow

namespace Conversion

variable {α β : Type}

def bind : Conversion α → (α → Conversion β) → Conversion β
  | .value found, next => next found
  | .refused, _ => .refused
  | .overflow, _ => .overflow

instance : Monad Conversion where
  pure := .value
  bind := bind

def value? : Conversion α → Option α
  | .value found => some found
  | _ => none

theorem bind_eq_value {first : Conversion α} {next : α → Conversion β} {result : β} :
    first >>= next = .value result ↔ ∃ found, first = .value found ∧ next found = .value result := by
  cases first <;> simp [Bind.bind, bind]

@[simp]
theorem value_bind (found : α) (next : α → Conversion β) : .value found >>= next = next found := rfl

theorem value?_eq_some {conversion : Conversion α} {found : α} :
    conversion.value? = some found ↔ conversion = .value found := by
  cases conversion <;> simp [value?]

end Conversion

/-- What the arithmetic and the float type of the interpreter add to exact numbers. -/
class Numbers where
  /-- `0.5 ** exponent`, which may underflow. -/
  halfPower : ℚ → ℚ
  /-- `float(text)` -/
  floatOfText : Text → Option PyFloat
  /-- `int(text)` -/
  intOfText : Text → Option Int

/-! ## Configurations -/

structure ManagedContextConfig where
  enabled : Bool := false
  backend : Text := "local-sidecar"
  namespace_ : Text := "default"
  maxBoost : PyFloat := .finite (5 / 100)
  lexicalTieBand : PyFloat := .finite (5 / 100)
  hitHalfLifeSeconds : PyFloat := .finite (7 * 24 * 60 * 60)
  maxHitCounter : PyFloat := .finite 10
  hitIncrement : PyFloat := .finite 1
  maxHitEntries : Int := 256
  orientationLimit : Int := 3
  queryOrientationLimit : Int := 2
  orientationSnippetChars : Int := 160
  orientationMinEvidenceScore : PyFloat := .finite (2 / 10)

/-- The message of the `ValueError` a configuration is refused with, if it is. -/
def validateManagedContextConfig [Unicode] (config : ManagedContextConfig) : Option Text :=
  let zero : PyFloat := .finite 0
  if !config.enabled then none
  else if config.backend ≠ "local-sidecar" then
    some "managed_context backend must be 'local-sidecar'"
  else if Text.strip config.namespace_ = [] then
    some "managed_context namespace must be non-empty"
  else if config.maxBoost.lt zero then some "managed_context max_boost must be non-negative"
  else if config.lexicalTieBand.lt zero then
    some "managed_context lexical_tie_band must be non-negative"
  else if config.hitHalfLifeSeconds.le zero then
    some "managed_context hit_half_life_seconds must be positive"
  else if config.maxHitCounter.le zero then some "managed_context max_hit_counter must be positive"
  else if config.hitIncrement.le zero then some "managed_context hit_increment must be positive"
  else if config.maxHitEntries ≤ 0 then some "managed_context max_hit_entries must be positive"
  else if config.orientationLimit ≤ 0 then
    some "managed_context orientation_limit must be positive"
  else if config.queryOrientationLimit ≤ 0 then
    some "managed_context query_orientation_limit must be positive"
  else if config.orientationSnippetChars < 0 then
    some "managed_context orientation_snippet_chars must be non-negative"
  else if config.orientationMinEvidenceScore.lt zero then
    some "managed_context orientation_min_evidence_score must be non-negative"
  else none

/-- A check passes where it does not refuse and the checks after it pass. -/
theorem passed_of_check {refused : Prop} [Decidable refused] {message : Text} {rest : Option Text}
    (passed : (if refused then some message else rest) = none) : ¬ refused ∧ rest = none := by
  split at passed
  next => cases passed
  next accepted => exact ⟨accepted, passed⟩

/-- What the checks of an enabled configuration say about its numbers. -/
structure ConfigChecked (config : ManagedContextConfig) : Prop where
  maxBoost : config.maxBoost.lt (.finite 0) = false
  maxHitCounter : config.maxHitCounter.le (.finite 0) = false
  hitIncrement : config.hitIncrement.le (.finite 0) = false
  maxHitEntries : 0 < config.maxHitEntries
  orientationLimit : 0 < config.orientationLimit
  queryOrientationLimit : 0 < config.queryOrientationLimit

theorem configChecked_of_valid [Unicode] {config : ManagedContextConfig}
    (enabled : config.enabled = true) (valid : validateManagedContextConfig config = none) :
    ConfigChecked config := by
  unfold validateManagedContextConfig at valid
  rw [if_neg (by simp [enabled])] at valid
  obtain ⟨-, valid⟩ := passed_of_check valid
  obtain ⟨-, valid⟩ := passed_of_check valid
  obtain ⟨boost, valid⟩ := passed_of_check valid
  obtain ⟨-, valid⟩ := passed_of_check valid
  obtain ⟨-, valid⟩ := passed_of_check valid
  obtain ⟨counter, valid⟩ := passed_of_check valid
  obtain ⟨increment, valid⟩ := passed_of_check valid
  obtain ⟨entries, valid⟩ := passed_of_check valid
  obtain ⟨orientation, valid⟩ := passed_of_check valid
  obtain ⟨query, -⟩ := passed_of_check valid
  exact ⟨Bool.eq_false_iff.mpr boost, Bool.eq_false_iff.mpr counter,
    Bool.eq_false_iff.mpr increment, not_le.mp entries, not_le.mp orientation, not_le.mp query⟩

/-! ## Records -/

structure ManagedContextScope where
  namespace_ : Text
  sourceId : Text
  adapterKind : Text
  projectionSignatureDigest : Text
  sourceSignatureDigest : Text

structure ManagedPageHit where
  counter : PyFloat
  lastHitAt : ℚ
  deriving DecidableEq

/-- Hits by page key. -/
abbrev Hits := List (Text × ManagedPageHit)

structure ManagedContextRecord where
  scope : ManagedContextScope
  generation : Int
  createdAt : ℚ
  updatedAt : ℚ
  hits : Hits

section Hits

variable [Numbers]

def decayedCounter (counter : PyFloat) (lastHitAt now : ℚ) (halfLifeSeconds : PyFloat) :
    PyFloat :=
  if halfLifeSeconds.le (.finite 0) then .finite 0
  else
    match counter, halfLifeSeconds with
    | .finite counter, .finite halfLife =>
        .finite (counter * Numbers.halfPower (max 0 (now - lastHitAt) / halfLife))
    | .finite counter, .inf => .finite counter
    | .finite _, _ => .nan
    | _, _ => .finite 0

/-- The boost of a page by its hits, absent where the division raises. -/
def ManagedContextRecord.decayedBoost (record : ManagedContextRecord) (pageKey : Text) (now : ℚ)
    (config : ManagedContextConfig) : Option PyFloat :=
  match Keyed.get? record.hits pageKey with
  | none => some (.finite 0)
  | some hit =>
      let counter := decayedCounter hit.counter hit.lastHitAt now config.hitHalfLifeSeconds
      if counter.le (.finite 0) then some (.finite 0)
      else
        ((counter.min config.maxHitCounter).div? config.maxHitCounter).map fun normalized =>
          config.maxBoost.min (config.maxBoost.mul normalized)

omit [Numbers] in
/-- Order by descending counter, then descending time, then page key. -/
def hitLe (first second : Text × ManagedPageHit) : Bool :=
  if second.2.counter.lt first.2.counter then true
  else if first.2.counter.lt second.2.counter then false
  else if second.2.lastHitAt < first.2.lastHitAt then true
  else if first.2.lastHitAt < second.2.lastHitAt then false
  else decide (first.1 ≤ second.1)

omit [Numbers] in
def trimHits (hits : Hits) (config : ManagedContextConfig) : Hits :=
  takeLimit config.maxHitEntries (sortBy hitLe hits)

omit [Numbers] in
/-- A counter cut at the maximum. -/
def cappedCounter (config : ManagedContextConfig) (counter : PyFloat) : PyFloat :=
  (config.maxHitCounter.min counter).round

def decayedHits (hits : Hits) (config : ManagedContextConfig) (now : ℚ) : Hits :=
  trimHits
    (hits.filterMap fun (pageKey, hit) =>
      let counter := decayedCounter hit.counter hit.lastHitAt now config.hitHalfLifeSeconds
      if counter.le (.finite (1 / 1000000)) then none
      else some (pageKey, ⟨cappedCounter config counter, now⟩))
    config

omit [Numbers] in
def addHit (config : ManagedContextConfig) (now : ℚ) (hits : Hits) (pageKey : Text) : Hits :=
  let counter := ((Keyed.get? hits pageKey).map ManagedPageHit.counter).getD (.finite 0)
  Keyed.set hits pageKey ⟨cappedCounter config (counter.add config.hitIncrement), now⟩

/-- The record a call of `update_hits` writes, from the one it has read. -/
def updatedRecord (scope : ManagedContextScope) (pageKeys : List Text)
    (config : ManagedContextConfig) (now : ℚ) (current : Option ManagedContextRecord) :
    ManagedContextRecord :=
  let effectiveNow :=
    match current with
    | none => now
    | some record => if now < record.updatedAt then record.updatedAt else now
  let decayed := decayedHits ((current.map ManagedContextRecord.hits).getD []) config effectiveNow
  let hits := (uniqueTokens pageKeys).foldl (addHit config effectiveNow) decayed
  { scope
    generation := (current.map fun record => record.generation + 1).getD 1
    createdAt := (current.map ManagedContextRecord.createdAt).getD effectiveNow
    updatedAt := effectiveNow
    hits := trimHits hits config }

end Hits

/-! ## Files -/

section Files

variable [Hashing]

def ManagedContextScope.namespaceDigest (scope : ManagedContextScope) : Text :=
  Hashing.sha256 scope.namespace_

def ManagedContextScope.sourceIdDigest (scope : ManagedContextScope) : Text :=
  Hashing.sha256 scope.sourceId

/-- The members that tie a payload to a version and a scope. -/
def expectedMembers (scope : ManagedContextScope) : List (Text × Text) :=
  [("schema_version", "managed-context-v1"), ("config_version", "local-sidecar-v1"),
    ("namespace_digest", scope.namespaceDigest), ("source_id_digest", scope.sourceIdDigest),
    ("adapter_kind", scope.adapterKind),
    ("projection_signature_digest", scope.projectionSignatureDigest),
    ("source_signature_digest", scope.sourceSignatureDigest)]

omit [Hashing] in
def roundedTime (time : ℚ) : Json PyFloat := .float (.finite (roundRat 6 time))

omit [Hashing] in
def hitPayload (entry : Text × ManagedPageHit) : Json PyFloat :=
  .object
    [("page_key", .string entry.1), ("counter", .float entry.2.counter.round),
      ("last_hit_at", roundedTime entry.2.lastHitAt)]

omit [Hashing] in
def pageKeyLe (first second : Text × ManagedPageHit) : Bool := decide (first.1 ≤ second.1)

omit [Hashing] in
def recordMembers (record : ManagedContextRecord) : List (Text × Json PyFloat) :=
  [("created_at", roundedTime record.createdAt), ("updated_at", roundedTime record.updatedAt),
    ("generation", .int record.generation),
    ("orientation_generation", .object
      [("strategy", .string "projection-derived-v1"),
        ("generated_at", roundedTime record.updatedAt)]),
    ("page_hit_prior", .array ((sortBy pageKeyLe record.hits).map hitPayload))]

def recordToPayload (record : ManagedContextRecord) : Json PyFloat :=
  .object
    ((expectedMembers record.scope).map (fun member => (member.1, Json.string member.2)) ++
      recordMembers record)

variable [Json.FloatRepr PyFloat]

/-- What `atomic_write_json` leaves in the file. -/
def fileText (record : ManagedContextRecord) : Text :=
  Json.dumps (.indented 2) (recordToPayload record) ++ ['\n']

omit [Hashing] [Json.FloatRepr PyFloat] in
def utf8Length (text : Text) : Nat := (text.map Char.utf8Size).sum

/-- `SIDECAR_RECORD_READ_MAX_BYTES` -/
def recordReadMaxBytes : Nat := 512 * 1024

omit [Hashing] in
def readJsonPayload (file : Option Text) : Option (Json PyFloat) :=
  file.bind fun text => if recordReadMaxBytes < utf8Length text then none else Json.loads text

omit [Hashing] [Json.FloatRepr PyFloat] in
/-- `bool(value)` -/
def truthy : Json PyFloat → Bool
  | .null => false
  | .bool value => value
  | .int value => value ≠ 0
  | .float value => value ≠ .finite 0
  | .string text => text ≠ []
  | .array items => !items.isEmpty
  | .object members => !members.isEmpty

omit [Hashing] [Json.FloatRepr PyFloat] in
/-- `value is None` -/
def isNull : Json PyFloat → Bool
  | .null => true
  | _ => false

variable [Numbers]

omit [Hashing] [Json.FloatRepr PyFloat] in
/-- `float(value)` -/
def toFloat : Json PyFloat → Conversion PyFloat
  | .bool value => .value (.finite (if value then 1 else 0))
  | .int value =>
      if value.natAbs < PyFloat.overflowBound then .value (.finite value) else .overflow
  | .float value => .value value
  | .string text => (Numbers.floatOfText text).elim .refused .value
  | _ => .refused

omit [Hashing] [Json.FloatRepr PyFloat] in
/-- `int(value)` -/
def intOf : Json PyFloat → Conversion Int
  | .bool value => .value (if value then 1 else 0)
  | .int value => .value value
  | .float (.finite value) => .value (if value < 0 then -(-value).floor else value.floor)
  | .float .nan => .refused
  | .float _ => .overflow
  | .string text => (Numbers.intOfText text).elim .refused .value
  | _ => .refused

omit [Hashing] [Json.FloatRepr PyFloat] in
/-- `int(value or 0)` -/
def toInt (value : Json PyFloat) : Conversion Int :=
  if truthy value then intOf value else .value 0

omit [Hashing] [Json.FloatRepr PyFloat] in
/-- `float(value or now)` -/
def toTime (now : ℚ) (value : Json PyFloat) : Conversion PyFloat :=
  if truthy value then toFloat value else .value (.finite now)

omit [Hashing] [Json.FloatRepr PyFloat] in
/-- A hit of a payload, refused where it is skipped. -/
def readHit (config : ManagedContextConfig) (now : ℚ) (item : Json PyFloat) :
    Conversion (Text × ManagedPageHit) :=
  match item.get "page_key" with
  | .string pageKey =>
      if !Text.startsWith pageKey "pk_" || isNull (item.get "counter") ||
          isNull (item.get "last_hit_at") then .refused
      else do
        let counter ← toFloat (item.get "counter")
        let lastHitAt ← toFloat (item.get "last_hit_at")
        match counter, lastHitAt with
        | .finite counter, .finite lastHitAt =>
            if counter ≤ 0 then .refused
            else if (decayedCounter (.finite counter) lastHitAt now config.hitHalfLifeSeconds).le
                (.finite 0) then .refused
            else return (pageKey, ⟨cappedCounter config (.finite counter), lastHitAt⟩)
        | _, _ => .refused
  | _ => .refused

omit [Hashing] [Json.FloatRepr PyFloat] in
def readHits (config : ManagedContextConfig) (now : ℚ) : List (Json PyFloat) → Conversion Hits
  | [] => .value []
  | item :: rest =>
      match readHit config now item with
      | .overflow => .overflow
      | .refused => readHits config now rest
      | .value hit => do
          let hits ← readHits config now rest
          return hit :: hits

omit [Hashing] [Json.FloatRepr PyFloat] [Numbers] in
def hasMember (payload : Json PyFloat) (member : Text × Text) : Bool :=
  match payload.get member.1 with
  | .string text => text = member.2
  | _ => false

/-- The record of a payload, refused where there is none. -/
def recordFromPayload (scope : ManagedContextScope) (config : ManagedContextConfig) (now : ℚ)
    (payload : Json PyFloat) : Conversion ManagedContextRecord :=
  if (expectedMembers scope).any fun member => !hasMember payload member then .refused
  else
    match payload.get "page_hit_prior" with
    | .array items => do
        let hits ← readHits config now items
        let generation ← toInt (payload.get "generation")
        let createdAt ← toTime now (payload.get "created_at")
        let updatedAt ← toTime now (payload.get "updated_at")
        match createdAt, updatedAt with
        | .finite createdAt, .finite updatedAt =>
            if generation < 1 ∨ updatedAt < createdAt then .refused
            else
              return { scope, generation, createdAt, updatedAt,
                       hits := trimHits (Keyed.update [] hits) config }
        | _, _ => .refused
    | _ => .refused

/-- `read`, where the lock directory of the record is present or not; refused where it returns
nothing. -/
def read (scope : ManagedContextScope) (config : ManagedContextConfig) (now : ℚ)
    (lockPresent : Bool) (file : Option Text) : Conversion ManagedContextRecord :=
  if lockPresent then .refused
  else (readJsonPayload file).elim .refused (recordFromPayload scope config now)

/-- The record `update_hits` writes when it holds the lock, with the file it finds; absent where
the reader raises. -/
def updateHits (scope : ManagedContextScope) (pageKeys : List Text)
    (config : ManagedContextConfig) (now : ℚ) (file : Option Text) : Option ManagedContextRecord :=
  match read scope config now false file with
  | .value current => some (updatedRecord scope pageKeys config now (some current))
  | .refused => some (updatedRecord scope pageKeys config now none)
  | .overflow => none

end Files

end LlmWikiServe.ManagedContext
