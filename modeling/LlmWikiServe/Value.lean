import LlmWikiServe.Foundation.Keyed
import LlmWikiServe.Foundation.Text

/-!
# Python values

The values frontmatter, JSON sidecars and graph metadata are made of: what
`yaml.safe_load` and `json.loads` return, with `str`, truth value and `==`.
-/

namespace LlmWikiServe

/-- A Python float: its number unless infinite or NaN, and its `repr`. -/
structure FloatValue where
  number : Option ℚ
  /-- Which object a NaN is: every decoder has one of its own. -/
  nan : Option Nat
  repr : Text
  /-- A float never prints like an integer. -/
  marked : '.' ∈ repr ∨ '+' ∈ repr ∨ '-' ∈ repr ∨ repr = "inf" ∨ repr = "nan"
  /-- A finite float prints with digits. -/
  printed : number.isSome = true → ∃ char ∈ repr, char.isDigit = true

/-- A NaN object. -/
def FloatValue.ofNan (object : Nat) : FloatValue where
  number := none
  nan := some object
  repr := "nan"
  marked := by decide
  printed := nofun

/-- A `datetime.date`. -/
structure Date where
  year : Nat
  month : Nat
  day : Nat
  valid : 1 ≤ year ∧ year ≤ 9999 ∧ 1 ≤ month ∧ month ≤ 12 ∧ 1 ≤ day ∧ day ≤ 31
  deriving DecidableEq

namespace Date

/-- `date.isoformat()`, which is also its `str`. -/
def isoformat (date : Date) : Text :=
  Text.padded 4 date.year ++ '-' :: Text.padded 2 date.month ++ '-' :: Text.padded 2 date.day

def isLeap (year : Nat) : Bool := year % 4 = 0 && (year % 100 ≠ 0 || year % 400 = 0)

def daysBeforeMonth (year month : Nat) : Nat :=
  ([0, 31, 59, 90, 120, 151, 181, 212, 243, 273, 304, 334].getD (month - 1) 0) +
    if month > 2 && isLeap year then 1 else 0

/-- `date.toordinal()`. -/
def ordinal (date : Date) : Nat :=
  let elapsed := date.year - 1
  elapsed * 365 + elapsed / 4 - elapsed / 100 + elapsed / 400 +
    daysBeforeMonth date.year date.month + date.day

end Date

/-- A `datetime.datetime`, with the offset of an aware one in seconds. -/
structure DateTime where
  date : Date
  hour : Nat
  minute : Nat
  second : Nat
  microsecond : Nat
  offset : Option Int
  valid : hour < 24 ∧ minute < 60 ∧ second < 60 ∧ microsecond < 1000000
  deriving DecidableEq

namespace DateTime

/-- The offset part of `isoformat`. -/
def offsetText : Option Int → Text
  | none => []
  | some seconds =>
      let size := seconds.natAbs
      (if seconds < 0 then '-' else '+') :: Text.padded 2 (size / 3600) ++
        ':' :: Text.padded 2 (size / 60 % 60) ++
        (if size % 60 = 0 then [] else ':' :: Text.padded 2 (size % 60))

/-- `datetime.isoformat(sep)`. -/
def isoformatWith (separator : Char) (moment : DateTime) : Text :=
  moment.date.isoformat ++ separator :: Text.padded 2 moment.hour ++
    ':' :: Text.padded 2 moment.minute ++ ':' :: Text.padded 2 moment.second ++
    (if moment.microsecond = 0 then [] else '.' :: Text.padded 6 moment.microsecond) ++
    offsetText moment.offset

/-- Microseconds since the proleptic epoch, in UTC for an aware moment. -/
def instant (moment : DateTime) : Int :=
  ((((moment.date.ordinal * 24 + moment.hour) * 60 + moment.minute) * 60 + moment.second : Nat)
    - moment.offset.getD 0) * 1000000 + moment.microsecond

/-- `==`: aware moments compare as instants and never equal naive ones. -/
def equals (left right : DateTime) : Bool :=
  left.offset.isSome = right.offset.isSome && left.instant = right.instant

end DateTime

inductive SequenceKind where
  | list
  | tuple
  | set
  deriving DecidableEq

/-- A value of one of the built-in types that YAML and JSON documents produce. -/
inductive Value where
  | none
  | bool (value : Bool)
  | int (value : Int)
  | float (value : FloatValue)
  | str (text : Text)
  | bytes (octets : List UInt8)
  | date (value : Date)
  | datetime (value : DateTime)
  | sequence (kind : SequenceKind) (items : List Value)
  /-- Entries in insertion order. -/
  | dict (entries : List (Value × Value))

/-- A `dict[str, Any]`, its entries in insertion order. -/
abbrev Metadata := List (Text × Value)

/-- What depends on the interpreter beyond the language reference. -/
class Interpreter where
  /-- `repr` of containers. -/
  repr : Value → Text
  /-- The text a binary value has in a JSON dump. -/
  bytesText : List UInt8 → Text

namespace Value

abbrev list (items : List Value) : Value := .sequence .list items

/-- A dictionary with string keys as a value. -/
def ofMetadata (metadata : Metadata) : Value :=
  .dict (metadata.map fun entry => (.str entry.1, entry.2))

/-- `bool(value)`. -/
def truthy : Value → Bool
  | none => false
  | bool value => value
  | int value => value ≠ 0
  | float value => value.number ≠ some 0
  | str text => text ≠ []
  | bytes octets => octets ≠ []
  | date _ => true
  | datetime _ => true
  | sequence _ items => !items.isEmpty
  | dict entries => !entries.isEmpty

/-- `left or right`. -/
def orElse (left right : Value) : Value := if left.truthy then left else right

def hexDigit (digit : Nat) : Char := "0123456789abcdef".toList.getD digit '0'

/-- `repr` of one octet of a binary value quoted with `quote`. -/
def octetText (quote : Char) (octet : UInt8) : Text :=
  let code := octet.toNat
  if code = 92 then "\\\\"
  else if code = quote.toNat then ['\\', quote]
  else if code = 9 then "\\t"
  else if code = 10 then "\\n"
  else if code = 13 then "\\r"
  else if 32 ≤ code ∧ code < 127 then [Char.ofNat code]
  else ['\\', 'x', hexDigit (code / 16), hexDigit (code % 16)]

/-- `repr` of a binary value. -/
def bytesRepr (octets : List UInt8) : Text :=
  let quote := if 39 ∈ octets ∧ 34 ∉ octets then '"' else '\''
  'b' :: quote :: octets.flatMap (octetText quote) ++ [quote]

variable [Interpreter]

/-- `str(value)`. -/
def toText : Value → Text
  | none => "None"
  | bool true => "True"
  | bool false => "False"
  | int value => Text.ofInt value
  | float value => value.repr
  | str text => text
  | bytes octets => bytesRepr octets
  | date value => value.isoformat
  | datetime value => value.isoformatWith ' '
  | sequence kind items => Interpreter.repr (.sequence kind items)
  | dict entries => Interpreter.repr (.dict entries)

omit [Interpreter] in
def number? : Value → Option ℚ
  | bool value => some (if value then 1 else 0)
  | int value => some value
  | float value => value.number
  | _ => Option.none

/-- `==` of values that hold no others. -/
def equalsScalar : Value → Value → Bool
  | none, none => true
  | str left, str right => left = right
  | bytes left, bytes right => left = right
  | date left, date right => left = right
  | datetime left, datetime right => left.equals right
  | float left, float right =>
      if left.number.isSome && right.number.isSome then left.number = right.number
      else left.nan.isNone && left.repr = right.repr
  | left, right => left.number?.isSome && left.number? = right.number?

/-- `left is right` where that is not `left == right`: of a NaN. -/
def identical : Value → Value → Bool
  | float left, float right => left.nan.isSome && left.nan = right.nan
  | _, _ => false

mutual

/-- `left == right`; items of containers may be equal or identical. -/
def equals : Value → Value → Bool
  | sequence kind items, right =>
      match right with
      | sequence kind' items' =>
          if kind = kind' then
            match kind with
            | .set => items.length = items'.length && within items items'
            | _ => pairwise items items'
          else false
      | _ => false
  | dict entries, right =>
      match right with
      | dict entries' => entries.length = entries'.length && entriesWithin entries entries'
      | _ => false
  | left, right => equalsScalar left right
termination_by structural left => left

def pairwise : List Value → List Value → Bool
  | [], right => right.isEmpty
  | item :: items, right =>
      match right with
      | [] => false
      | other :: others =>
          (identical item other || equals item other) && pairwise items others
termination_by structural left => left

def within : List Value → List Value → Bool
  | [], _ => true
  | item :: items, right =>
      right.any (fun other => identical item other || equals item other) && within items right
termination_by structural left => left

def entriesWithin : List (Value × Value) → List (Value × Value) → Bool
  | [], _ => true
  | (key, value) :: entries, right =>
      right.any (fun other =>
        (identical key other.1 || equals key other.1) &&
          (identical value other.2 || equals value other.2)) &&
        entriesWithin entries right
termination_by structural left => left

end

/-- `left is right or left == right` -/
def same (left right : Value) : Bool := identical left right || equals left right

/-- `incoming in values`. -/
def isIn (incoming : Value) (values : List Value) : Bool :=
  values.any fun value => same value incoming

/-! ## Plain containers -/

omit [Interpreter] in
/-- `repr` of the scalars of configuration files, strings needing no escapes. -/
def plainScalar : Value → Text
  | none => "None"
  | bool true => "True"
  | bool false => "False"
  | int value => Text.ofInt value
  | float value => value.repr
  | str text => '\'' :: text ++ ['\'']
  | _ => []

mutual

def plainRepr : Value → Text
  | sequence .list items => '[' :: plainItems items ++ [']']
  | sequence .tuple items => '(' :: plainItems items ++ [')']
  | sequence .set items => '\x7b' :: plainItems items ++ ['\x7d']
  | dict entries => '\x7b' :: plainEntries entries ++ ['\x7d']
  | value => plainScalar value
termination_by structural value => value

def plainItems : List Value → Text
  | [] => []
  | [item] => plainRepr item
  | item :: items => plainRepr item ++ (", " : Text) ++ plainItems items
termination_by structural items => items

def plainEntries : List (Value × Value) → Text
  | [] => []
  | [(key, value)] => plainRepr key ++ (": " : Text) ++ plainRepr value
  | (key, value) :: entries =>
      plainRepr key ++ (": " : Text) ++ plainRepr value ++ (", " : Text) ++ plainEntries entries
termination_by structural entries => entries

end

/-- An interpreter that prints containers of plain scalars. -/
@[reducible]
def plainInterpreter : Interpreter where
  repr := plainRepr
  bytesText octets := octets.map fun octet => Char.ofNat octet.toNat

def jsonMoment (moment : DateTime) : Text :=
  if moment.offset = some 0 then
    DateTime.isoformatWith 'T' { moment with offset := Option.none } ++ ['Z']
  else moment.isoformatWith 'T'

/-- The member name a dictionary key has in a JSON dump. -/
def jsonKey : Value → Text
  | bool true => "true"
  | bool false => "false"
  | bytes octets => Interpreter.bytesText octets
  | datetime value => jsonMoment value
  | value => value.toText

mutual

/-- The JSON form of a value, as `model_dump(mode="json")` writes it: infinities and NaN become
`null`, and of keys with one text the last one gives the value. -/
def toJson : Value → Value
  | bytes octets => .str (Interpreter.bytesText octets)
  | date value => .str value.isoformat
  | datetime value => .str (jsonMoment value)
  | float value => if value.number.isSome then .float value else .none
  | sequence _ items => .sequence .list (toJsonItems items)
  | dict entries => ofMetadata (Keyed.update [] (toJsonEntries entries))
  | value => value
termination_by structural value => value

def toJsonItems : List Value → List Value
  | [] => []
  | item :: items => toJson item :: toJsonItems items
termination_by structural items => items

def toJsonEntries : List (Value × Value) → Metadata
  | [] => []
  | (key, value) :: entries => (jsonKey key, toJson value) :: toJsonEntries entries
termination_by structural entries => entries

end

/-- The JSON form of a dictionary with string keys. -/
def metadataToJson (metadata : Metadata) : Metadata :=
  Keyed.update [] (metadata.map fun entry => (entry.1, toJson entry.2))

end Value

/-- The value under a string key of a parsed mapping. -/
def getKey (entries : List (Value × Value)) (key : Text) : Value :=
  ((entries.find? fun entry =>
    match entry.1 with
    | .str text => text = key
    | _ => false).map Prod.snd).getD .none

/-- `mapping.get(key)`, `None` when absent. -/
def Metadata.getD (metadata : Metadata) (key : Text) : Value :=
  (Keyed.get? metadata key).getD .none

/-- The entries of a mapping whose keys are all strings. -/
def plainKeys? : List (Value × Value) → Option Metadata
  | [] => some []
  | (.str key, value) :: rest => (plainKeys? rest).map fun entries => (key, value) :: entries
  | _ => none

/-- The text a mapping key has in a field of string keys: binary keys are decoded. -/
def keyText? : Value → Option Text
  | .str text => some text
  | .bytes octets => (ByteArray.mk octets.toArray).utf8Decode?.map Array.toList
  | _ => none

/-- A parsed mapping as a `dict[str, Any]`, which model validation refuses for other keys.  Only
a decoded key can be equal to another one, the later entry then replacing the value. -/
def stringKeys? (entries : List (Value × Value)) : Option Metadata :=
  match plainKeys? entries with
  | some metadata => some metadata
  | none =>
      (entries.mapM fun entry => (keyText? entry.1).map fun key => (key, entry.2)).map
        (Keyed.update [])

/-- The entries `dict.get` finds under a string key. -/
def textKeys (entries : List (Value × Value)) : Metadata :=
  entries.filterMap fun entry =>
    match entry.1 with
    | .str key => some (key, entry.2)
    | _ => none

theorem stringKeys_of_plain {entries : List (Value × Value)} {metadata : Metadata}
    (plain : plainKeys? entries = some metadata) : stringKeys? entries = some metadata := by
  simp [stringKeys?, plain]

theorem textKeys_of_plain {entries : List (Value × Value)} {metadata : Metadata}
    (plain : plainKeys? entries = some metadata) : textKeys entries = metadata := by
  induction entries generalizing metadata with
  | nil => exact Option.some.inj plain
  | cons entry rest inductionHypothesis =>
      rcases entry with ⟨key, value⟩
      cases key with
      | str text =>
          simp only [plainKeys?, Option.map_eq_some_iff] at plain
          obtain ⟨remaining, plain, rfl⟩ := plain
          exact congrArg (List.cons (text, value)) (inductionHypothesis plain)
      | _ => simp [plainKeys?] at plain

theorem getKey_of_plain {entries : List (Value × Value)} {metadata : Metadata}
    (valid : plainKeys? entries = some metadata) (key : Text) :
    getKey entries key = metadata.getD key := by
  induction entries generalizing metadata with
  | nil =>
      simp only [plainKeys?, Option.some.injEq] at valid
      subst valid
      rfl
  | cons entry rest inductionHypothesis =>
      rcases entry with ⟨entryKey, value⟩
      cases entryKey with
      | str text =>
          simp only [plainKeys?, Option.map_eq_some_iff] at valid
          rcases valid with ⟨remaining, restValid, rfl⟩
          have tail := inductionHypothesis restValid
          by_cases same : text = key
          · simp [getKey, Metadata.getD, Keyed.get?, same]
          · simpa [getKey, Metadata.getD, Keyed.get?, same] using tail
      | _ => simp [plainKeys?] at valid

end LlmWikiServe
