import LlmWikiServe.Foundation.Json

/-!
# JSON values with unpaired surrogates

An escaped surrogate that is not part of a pair is read as a code point of its own.  Such a string
has no bytes in UTF-8, so a value with one in it can be read but not sent.
-/

namespace LlmWikiServe

universe u

/-- A character of a string: a scalar value, or a surrogate by its place among them. -/
inductive CodePoint where
  | scalar (char : Char)
  | surrogate (place : Nat)
  deriving DecidableEq

abbrev PyText : Type := List CodePoint

def Text.points (text : Text) : PyText := text.map .scalar

def CodePoint.toChar? : CodePoint → Option Char
  | .scalar char => some char
  | .surrogate _ => none

/-- The text of a string without surrogates. -/
def PyText.text? : PyText → Option Text
  | [] => some []
  | point :: rest => point.toChar?.bind fun char => (text? rest).map (char :: ·)

@[simp]
theorem Text.points_nil : Text.points [] = [] := rfl

theorem Text.points_injective : Function.Injective Text.points :=
  List.map_injective_iff.mpr fun _ _ => CodePoint.scalar.inj

@[simp]
theorem Text.points_inj {first second : Text} : first.points = second.points ↔ first = second :=
  Text.points_injective.eq_iff

@[simp]
theorem PyText.text?_points (text : Text) : PyText.text? text.points = some text := by
  induction text with
  | nil => rfl
  | cons char rest inductionHypothesis =>
      have later : PyText.text? (List.map CodePoint.scalar rest) = some rest := inductionHypothesis
      rw [Text.points, List.map_cons, PyText.text?, later]
      rfl

theorem PyText.text?_eq_some {string : PyText} {text : Text} :
    PyText.text? string = some text ↔ string = text.points := by
  constructor
  · intro found
    induction string generalizing text with
    | nil =>
        obtain rfl := Option.some.inj found
        rfl
    | cons point rest inductionHypothesis =>
        cases point with
        | surrogate place => cases found
        | scalar char =>
            obtain ⟨after, later, rfl⟩ := Option.map_eq_some_iff.mp found
            rw [inductionHypothesis later]
            rfl
  · rintro rfl
    exact PyText.text?_points text

/-- JSON data with strings of code points. -/
inductive PyJson (F : Type u) where
  | null
  | bool (value : Bool)
  | int (value : Int)
  | float (value : F)
  | string (text : PyText)
  | array (items : List (PyJson F))
  | object (members : List (PyText × PyJson F))

namespace PyJson

variable {F : Type u}

/-! ## Values without surrogates -/

mutual

/-- The value without surrogates, if there are none. -/
def json? : PyJson F → Option (Json F)
  | .null => some .null
  | .bool value => some (.bool value)
  | .int value => some (.int value)
  | .float value => some (.float value)
  | .string text => (PyText.text? text).map .string
  | .array items => (jsonItems? items).map .array
  | .object members => (jsonMembers? members).map .object
termination_by structural value => value

def jsonItems? : List (PyJson F) → Option (List (Json F))
  | [] => some []
  | item :: items => (json? item).bind fun item => (jsonItems? items).map (item :: ·)
termination_by structural items => items

def jsonMember? : PyText × PyJson F → Option (Text × Json F)
  | (name, value) => (PyText.text? name).bind fun name => (json? value).map (name, ·)
termination_by structural member => member

def jsonMembers? : List (PyText × PyJson F) → Option (List (Text × Json F))
  | [] => some []
  | member :: members =>
      (jsonMember? member).bind fun member => (jsonMembers? members).map (member :: ·)
termination_by structural members => members

end

mutual

def ofJson : Json F → PyJson F
  | .null => .null
  | .bool value => .bool value
  | .int value => .int value
  | .float value => .float value
  | .string text => .string text.points
  | .array items => .array (ofItems items)
  | .object members => .object (ofMembers members)
termination_by structural value => value

def ofItems : List (Json F) → List (PyJson F)
  | [] => []
  | item :: items => ofJson item :: ofItems items
termination_by structural items => items

def ofMember : Text × Json F → PyText × PyJson F
  | (name, value) => (name.points, ofJson value)
termination_by structural member => member

def ofMembers : List (Text × Json F) → List (PyText × PyJson F)
  | [] => []
  | member :: members => ofMember member :: ofMembers members
termination_by structural members => members

end

theorem ofMembers_eq_map (members : List (Text × Json F)) :
    ofMembers members = members.map ofMember := by
  induction members with
  | nil => rfl
  | cons member members inductionHypothesis => rw [ofMembers, inductionHypothesis, List.map_cons]

mutual

theorem json?_ofJson (value : Json F) : json? (ofJson value) = some value := by
  match value with
  | .null => rfl
  | .bool _ => rfl
  | .int _ => rfl
  | .float _ => rfl
  | .string text => simp only [ofJson, json?, PyText.text?_points, Option.map_some]
  | .array items => simp only [ofJson, json?, jsonItems?_ofItems items, Option.map_some]
  | .object members => simp only [ofJson, json?, jsonMembers?_ofMembers members, Option.map_some]
termination_by sizeOf value

theorem jsonItems?_ofItems (items : List (Json F)) : jsonItems? (ofItems items) = some items := by
  match items with
  | [] => rfl
  | item :: items =>
      simp only [ofItems, jsonItems?, json?_ofJson item, jsonItems?_ofItems items,
        Option.bind_some, Option.map_some]
termination_by sizeOf items

theorem jsonMembers?_ofMembers (members : List (Text × Json F)) :
    jsonMembers? (ofMembers members) = some members := by
  match members with
  | [] => rfl
  | (name, value) :: members =>
      simp only [ofMembers, ofMember, jsonMembers?, jsonMember?, PyText.text?_points,
        json?_ofJson value, jsonMembers?_ofMembers members, Option.bind_some, Option.map_some]
termination_by sizeOf members

end

mutual

theorem eq_ofJson {value : PyJson F} {plain : Json F} (found : json? value = some plain) :
    value = ofJson plain := by
  match value with
  | .null => cases found; rfl
  | .bool _ => cases found; rfl
  | .int _ => cases found; rfl
  | .float _ => cases found; rfl
  | .string points =>
      obtain ⟨text, spelled, rfl⟩ := Option.map_eq_some_iff.mp found
      rw [PyText.text?_eq_some.mp spelled, ofJson]
  | .array items =>
      obtain ⟨plains, each, rfl⟩ := Option.map_eq_some_iff.mp found
      rw [eq_ofItems each, ofJson]
  | .object members =>
      obtain ⟨plains, each, rfl⟩ := Option.map_eq_some_iff.mp found
      rw [eq_ofMembers each, ofJson]
termination_by sizeOf value

theorem eq_ofItems {items : List (PyJson F)} {plains : List (Json F)}
    (found : jsonItems? items = some plains) : items = ofItems plains := by
  match items with
  | [] =>
      obtain rfl := Option.some.inj found
      rfl
  | item :: items =>
      obtain ⟨first, here, found⟩ := Option.bind_eq_some_iff.mp found
      obtain ⟨others, later, rfl⟩ := Option.map_eq_some_iff.mp found
      rw [eq_ofJson here, eq_ofItems later, ofItems]
termination_by sizeOf items

theorem eq_ofMembers {members : List (PyText × PyJson F)} {plains : List (Text × Json F)}
    (found : jsonMembers? members = some plains) : members = ofMembers plains := by
  match members with
  | [] =>
      obtain rfl := Option.some.inj found
      rfl
  | (name, value) :: members =>
      obtain ⟨first, here, found⟩ := Option.bind_eq_some_iff.mp found
      obtain ⟨others, later, rfl⟩ := Option.map_eq_some_iff.mp found
      obtain ⟨text, spelled, here⟩ := Option.bind_eq_some_iff.mp here
      obtain ⟨plain, inner, rfl⟩ := Option.map_eq_some_iff.mp here
      rw [PyText.text?_eq_some.mp spelled, eq_ofJson inner, eq_ofMembers later, ofMembers,
        ofMember]
termination_by sizeOf members

end

mutual

def Distinct : PyJson F → Prop
  | .array items => DistinctItems items
  | .object members => (members.map Prod.fst).Nodup ∧ DistinctMembers members
  | _ => True
termination_by structural value => value

def DistinctItems : List (PyJson F) → Prop
  | [] => True
  | item :: items => Distinct item ∧ DistinctItems items
termination_by structural items => items

def DistinctMember : PyText × PyJson F → Prop
  | (_, value) => Distinct value
termination_by structural member => member

def DistinctMembers : List (PyText × PyJson F) → Prop
  | [] => True
  | member :: members => DistinctMember member ∧ DistinctMembers members
termination_by structural members => members

end

theorem distinctMembers_iff {members : List (PyText × PyJson F)} :
    DistinctMembers members ↔ ∀ member ∈ members, member.2.Distinct := by
  induction members with
  | nil => simp [DistinctMembers]
  | cons member members inductionHypothesis =>
      obtain ⟨name, value⟩ := member
      simp [DistinctMembers, DistinctMember, inductionHypothesis]

theorem map_fst_ofMembers (members : List (Text × Json F)) :
    (ofMembers members).map Prod.fst = (members.map Prod.fst).map Text.points := by
  simp [ofMembers_eq_map, ofMember, Function.comp_def]

mutual

theorem distinct_ofJson {value : Json F} (distinct : (ofJson value).Distinct) :
    value.Distinct := by
  match value with
  | .null => trivial
  | .bool _ => trivial
  | .int _ => trivial
  | .float _ => trivial
  | .string _ => trivial
  | .array items => exact distinct_ofItems distinct
  | .object members =>
      obtain ⟨names, values⟩ := distinct
      rw [map_fst_ofMembers] at names
      exact ⟨names.of_map _, distinct_ofMembers values⟩
termination_by sizeOf value

theorem distinct_ofItems {items : List (Json F)} (distinct : DistinctItems (ofItems items)) :
    Json.DistinctItems items := by
  match items with
  | [] => trivial
  | item :: items => exact ⟨distinct_ofJson distinct.1, distinct_ofItems distinct.2⟩
termination_by sizeOf items

theorem distinct_ofMembers {members : List (Text × Json F)}
    (distinct : DistinctMembers (ofMembers members)) : Json.DistinctMembers members := by
  match members with
  | [] => trivial
  | (name, value) :: members =>
      exact ⟨distinct_ofJson distinct.1, distinct_ofMembers distinct.2⟩
termination_by sizeOf members

end

/-! ## Reading -/

section Read

variable [Json.FloatRepr F]

def readSurrogate : Text → Option (CodePoint × Text)
  | '\\' :: 'u' :: a :: b :: c :: d :: rest =>
      (Json.readHex [a, b, c, d]).bind fun unit =>
        if 0xD800 ≤ unit ∧ unit < 0xE000 then some (.surrogate (unit - 0xD800), rest) else none
  | _ => none

/-- The code point written at the start of a string body; surrogates are joined where they are
a pair. -/
def readCodePoint (text : Text) : Option (CodePoint × Text) :=
  match Json.readChar text with
  | some (char, rest) => some (.scalar char, rest)
  | none => readSurrogate text

def readString : Nat → Text → Option (PyText × Text)
  | 0, _ => none
  | _ + 1, '"' :: rest => some ([], rest)
  | fuel + 1, text =>
      (readCodePoint text).bind fun (point, rest) =>
        (readString fuel rest).map fun (points, rest) => (point :: points, rest)

/-- A number with its exponent written small. -/
def lowerExponent (token : Text) : Text :=
  if token.head?.any fun char => char.isDigit || char = '-' then
    token.map fun char => if char = 'E' then 'e' else char
  else token

def readToken (token : Text) : Option (PyJson F) :=
  ((Json.readToken token).or (Json.readToken (lowerExponent token))).map ofJson

mutual

def readValue : Nat → Text → Option (PyJson F × Text)
  | 0, _ => none
  | _ + 1, '"' :: rest =>
      (readString rest.length rest).map fun (text, rest) => (.string text, rest)
  | fuel + 1, '[' :: rest =>
      match Json.skipBlank rest with
      | ']' :: rest => some (.array [], rest)
      | text =>
          (readValue fuel text).bind fun (item, rest) =>
            (readItems fuel rest).map fun (items, rest) => (.array (item :: items), rest)
  | fuel + 1, '\x7b' :: rest =>
      match Json.skipBlank rest with
      | '\x7d' :: rest => some (.object [], rest)
      | text =>
          (readMember fuel text).bind fun (member, rest) =>
            (readMembers fuel rest).map fun (members, rest) =>
              (.object (Keyed.update [] (member :: members)), rest)
  | _ + 1, text =>
      (readToken (text.takeWhile Json.isTokenChar)).map fun value =>
        (value, text.dropWhile Json.isTokenChar)

def readItems : Nat → Text → Option (List (PyJson F) × Text)
  | 0, _ => none
  | fuel + 1, text =>
      match Json.skipBlank text with
      | ']' :: rest => some ([], rest)
      | ',' :: rest =>
          (readValue fuel (Json.skipBlank rest)).bind fun (item, rest) =>
            (readItems fuel rest).map fun (items, rest) => (item :: items, rest)
      | _ => none

def readMember : Nat → Text → Option ((PyText × PyJson F) × Text)
  | 0, _ => none
  | fuel + 1, '"' :: rest =>
      (readString rest.length rest).bind fun (name, rest) =>
        match Json.skipBlank rest with
        | ':' :: rest =>
            (readValue fuel (Json.skipBlank rest)).map fun (value, rest) => ((name, value), rest)
        | _ => none
  | _ + 1, _ => none

def readMembers : Nat → Text → Option (List (PyText × PyJson F) × Text)
  | 0, _ => none
  | fuel + 1, text =>
      match Json.skipBlank text with
      | '\x7d' :: rest => some ([], rest)
      | ',' :: rest =>
          (readMember fuel (Json.skipBlank rest)).bind fun (member, rest) =>
            (readMembers fuel rest).map fun (members, rest) => (member :: members, rest)
      | _ => none

end

/-- `json.loads` -/
def loads (text : Text) : Option (PyJson F) :=
  match readValue (2 * text.length + 1) (Json.skipBlank text) with
  | some (value, rest) => if Json.skipBlank rest = [] then some value else none
  | none => none

end Read

/-- `json.dumps(value, ensure_ascii=False, separators=(",", ":"))` as a text that can be
encoded; there is none where a string has a surrogate. -/
def dumps? [Json.FloatRepr F] (value : PyJson F) : Option Text :=
  (json? value).map (Json.print .compact 0)

/-! ## What is read -/

section Reads

variable [Json.FloatRepr F]

theorem readCodePoint_of_json {text rest : Text} {char : Char}
    (read : Json.readChar text = some (char, rest)) :
    readCodePoint text = some (.scalar char, rest) := by
  rw [readCodePoint, read]

theorem readString_of_json {fuel : Nat} {text rest found : Text}
    (read : Json.readString fuel text = some (found, rest)) :
    readString fuel text = some (found.points, rest) := by
  induction fuel generalizing text found with
  | zero => cases read
  | succ fuel inductionHypothesis =>
      by_cases ended : ∃ after, text = '"' :: after
      · obtain ⟨after, rfl⟩ := ended
        obtain ⟨rfl, rfl⟩ := Prod.mk.inj (Option.some.inj read)
        rfl
      · rw [not_exists] at ended
        rw [Json.readString] at read
        · obtain ⟨⟨char, after⟩, here, read⟩ := Option.bind_eq_some_iff.mp read
          obtain ⟨⟨chars, behind⟩, later, same⟩ := Option.map_eq_some_iff.mp read
          obtain ⟨rfl, rfl⟩ := Prod.mk.inj same
          rw [readString]
          · simp only [readCodePoint_of_json here, Option.bind_some, inductionHypothesis later,
              Option.map_some, Text.points, List.map_cons]
          · exact ended
        · exact ended

theorem readToken_of_json {token : Text} {value : Json F}
    (read : Json.readToken token = some value) : readToken token = some (ofJson value) := by
  rw [readToken, read]
  rfl

omit [Json.FloatRepr F] in
theorem ofMembers_set (members : List (Text × Json F)) (name : Text) (value : Json F) :
    ofMembers (Keyed.set members name value) =
      Keyed.set (ofMembers members) name.points (ofJson value) := by
  have named : name.points ∈ (ofMembers members).map Prod.fst ↔ name ∈ members.map Prod.fst := by
    rw [map_fst_ofMembers]
    exact List.mem_map_of_injective Text.points_injective
  unfold Keyed.set
  by_cases among : name ∈ members.map Prod.fst
  · rw [if_pos among, if_pos (named.mpr among), ofMembers_eq_map, ofMembers_eq_map, List.map_map,
      List.map_map]
    apply List.map_congr_left
    rintro ⟨other, kept⟩ -
    by_cases same : other = name <;> simp [ofMember, same]
  · rw [if_neg among, if_neg (named.not.mpr among), ofMembers_eq_map, ofMembers_eq_map,
      List.map_append]
    rfl

omit [Json.FloatRepr F] in
theorem ofMembers_update (members : List (Text × Json F)) :
    ofMembers (Keyed.update [] members) = Keyed.update [] (ofMembers members) := by
  have step : ∀ before : List (Text × Json F),
      ofMembers (Keyed.update before members) =
        Keyed.update (ofMembers before) (ofMembers members) := by
    induction members with
    | nil => exact fun _ => rfl
    | cons member members inductionHypothesis =>
        intro before
        obtain ⟨name, value⟩ := member
        have stored : ofMembers (Keyed.set before name value) =
            Keyed.set (ofMembers before) name.points (ofJson value) := ofMembers_set before name value
        have first := inductionHypothesis (Keyed.set before name value)
        rw [stored] at first
        exact first
  exact step []

theorem reads_of_json (fuel : Nat) :
    (∀ {text rest : Text} {value : Json F}, Json.readValue fuel text = some (value, rest) →
      readValue fuel text = some (ofJson value, rest)) ∧
    (∀ {text rest : Text} {items : List (Json F)}, Json.readItems fuel text = some (items, rest) →
      readItems fuel text = some (ofItems items, rest)) ∧
    (∀ {text rest : Text} {member : Text × Json F},
      Json.readMember fuel text = some (member, rest) →
      readMember fuel text = some (ofMember member, rest)) ∧
    (∀ {text rest : Text} {members : List (Text × Json F)},
      Json.readMembers fuel text = some (members, rest) →
      readMembers fuel text = some (ofMembers members, rest)) := by
  induction fuel with
  | zero => exact ⟨nofun, nofun, nofun, nofun⟩
  | succ fuel inductionHypothesis =>
      obtain ⟨value_, items_, member_, members_⟩ := inductionHypothesis
      refine ⟨?_, ?_, ?_, ?_⟩
      · intro text rest value read
        unfold Json.readValue at read
        split at read
        next => contradiction
        next =>
          obtain ⟨⟨found, after⟩, here, same⟩ := Option.map_eq_some_iff.mp read
          obtain ⟨rfl, rfl⟩ := Prod.mk.inj same
          simp only [readValue, readString_of_json here, Option.map_some, ofJson]
        next size =>
          obtain rfl := Nat.succ.inj size
          split at read
          next closed =>
            obtain ⟨rfl, rfl⟩ := Prod.mk.inj (Option.some.inj read)
            simp only [readValue, closed, ofJson, ofItems]
          next open_ =>
            obtain ⟨⟨item, after⟩, here, read⟩ := Option.bind_eq_some_iff.mp read
            obtain ⟨⟨others, behind⟩, later, same⟩ := Option.map_eq_some_iff.mp read
            obtain ⟨rfl, rfl⟩ := Prod.mk.inj same
            rw [readValue]
            split
            next closed => exact absurd closed (open_ _)
            next =>
              simp only [value_ here, Option.bind_some, items_ later, Option.map_some, ofJson,
                ofItems]
        next size =>
          obtain rfl := Nat.succ.inj size
          split at read
          next closed =>
            obtain ⟨rfl, rfl⟩ := Prod.mk.inj (Option.some.inj read)
            simp only [readValue, closed, ofJson, ofMembers]
          next open_ =>
            obtain ⟨⟨member, after⟩, here, read⟩ := Option.bind_eq_some_iff.mp read
            obtain ⟨⟨others, behind⟩, later, same⟩ := Option.map_eq_some_iff.mp read
            obtain ⟨rfl, rfl⟩ := Prod.mk.inj same
            rw [readValue]
            split
            next closed => exact absurd closed (open_ _)
            next =>
              simp only [member_ here, Option.bind_some, members_ later, Option.map_some, ofJson,
                ofMembers_update, ofMembers]
        next quote bracket brace =>
          obtain ⟨found, here, same⟩ := Option.map_eq_some_iff.mp read
          obtain ⟨rfl, rfl⟩ := Prod.mk.inj same
          rw [readValue]
          · rw [readToken_of_json here]
            rfl
          · exact quote
          · exact bracket
          · exact brace
      · intro text rest items read
        unfold Json.readItems at read
        dsimp only at read
        split at read
        next closed =>
          obtain ⟨rfl, rfl⟩ := Prod.mk.inj (Option.some.inj read)
          simp only [readItems, closed, ofItems]
        next more =>
          obtain ⟨⟨item, after⟩, here, read⟩ := Option.bind_eq_some_iff.mp read
          obtain ⟨⟨others, behind⟩, later, same⟩ := Option.map_eq_some_iff.mp read
          obtain ⟨rfl, rfl⟩ := Prod.mk.inj same
          simp only [readItems, more, value_ here, Option.bind_some, items_ later,
            Option.map_some, ofItems]
        next => cases read
      · intro text rest member read
        unfold Json.readMember at read
        split at read
        next => contradiction
        next size =>
          obtain rfl := Nat.succ.inj size
          obtain ⟨⟨name, after⟩, here, read⟩ := Option.bind_eq_some_iff.mp read
          dsimp only at read
          split at read
          next colon =>
            obtain ⟨⟨value, behind⟩, later, same⟩ := Option.map_eq_some_iff.mp read
            obtain ⟨rfl, rfl⟩ := Prod.mk.inj same
            simp only [readMember, readString_of_json here, Option.bind_some, colon,
              value_ later, Option.map_some, ofMember]
          next => cases read
        next => cases read
      · intro text rest members read
        unfold Json.readMembers at read
        dsimp only at read
        split at read
        next closed =>
          obtain ⟨rfl, rfl⟩ := Prod.mk.inj (Option.some.inj read)
          simp only [readMembers, closed, ofMembers]
        next more =>
          obtain ⟨⟨member, after⟩, here, read⟩ := Option.bind_eq_some_iff.mp read
          obtain ⟨⟨others, behind⟩, later, same⟩ := Option.map_eq_some_iff.mp read
          obtain ⟨rfl, rfl⟩ := Prod.mk.inj same
          simp only [readMembers, more, member_ here, Option.bind_some, members_ later,
            Option.map_some, ofMembers]
        next => cases read

theorem readToken_distinct {token : Text} {value : PyJson F}
    (read : readToken token = some value) : value.Distinct := by
  obtain ⟨plain, found, rfl⟩ := Option.map_eq_some_iff.mp read
  have scalar : ∀ {token : Text}, Json.readToken token = some plain → (ofJson plain).Distinct := by
    intro token read
    unfold Json.readToken at read
    split_ifs at read
    · obtain rfl := Option.some.inj read
      trivial
    · obtain rfl := Option.some.inj read
      trivial
    · obtain rfl := Option.some.inj read
      trivial
    · obtain ⟨_, _, rfl⟩ := Option.map_eq_some_iff.mp read
      trivial
    · obtain ⟨_, _, rfl⟩ := Option.map_eq_some_iff.mp read
      trivial
  rcases Option.or_eq_some_iff.mp found with here | ⟨-, here⟩
  · exact scalar here
  · exact scalar here

/-- What is read of each kind repeats no name of an object. -/
theorem reads_distinct (fuel : Nat) :
    (∀ {text rest : Text} {value : PyJson F}, readValue fuel text = some (value, rest) →
      value.Distinct) ∧
    (∀ {text rest : Text} {items : List (PyJson F)}, readItems fuel text = some (items, rest) →
      DistinctItems items) ∧
    (∀ {text rest : Text} {member : PyText × PyJson F},
      readMember fuel text = some (member, rest) → member.2.Distinct) ∧
    (∀ {text rest : Text} {members : List (PyText × PyJson F)},
      readMembers fuel text = some (members, rest) → ∀ member ∈ members, member.2.Distinct) := by
  induction fuel with
  | zero => exact ⟨nofun, nofun, nofun, nofun⟩
  | succ fuel inductionHypothesis =>
      obtain ⟨value_, items_, member_, members_⟩ := inductionHypothesis
      refine ⟨?_, ?_, ?_, ?_⟩
      · intro text rest value read
        unfold readValue at read
        split at read
        next => contradiction
        next =>
          obtain ⟨_, _, same⟩ := Option.map_eq_some_iff.mp read
          obtain ⟨rfl, -⟩ := Prod.mk.inj same
          trivial
        next size =>
          obtain rfl := Nat.succ.inj size
          split at read
          next =>
            obtain ⟨rfl, -⟩ := Prod.mk.inj (Option.some.inj read)
            trivial
          next =>
            obtain ⟨⟨item, after⟩, here, read⟩ := Option.bind_eq_some_iff.mp read
            obtain ⟨⟨others, behind⟩, later, same⟩ := Option.map_eq_some_iff.mp read
            obtain ⟨rfl, -⟩ := Prod.mk.inj same
            exact ⟨value_ here, items_ later⟩
        next size =>
          obtain rfl := Nat.succ.inj size
          split at read
          next =>
            obtain ⟨rfl, -⟩ := Prod.mk.inj (Option.some.inj read)
            exact ⟨List.nodup_nil, trivial⟩
          next =>
            obtain ⟨⟨member, after⟩, here, read⟩ := Option.bind_eq_some_iff.mp read
            obtain ⟨⟨others, behind⟩, later, same⟩ := Option.map_eq_some_iff.mp read
            obtain ⟨rfl, -⟩ := Prod.mk.inj same
            refine ⟨Keyed.nodup_map_fst_update List.nodup_nil, distinctMembers_iff.mpr ?_⟩
            intro entry among
            rcases Keyed.mem_update among with nothing | among
            · cases nothing
            · rcases List.mem_cons.mp among with rfl | among
              · exact member_ here
              · exact members_ later entry among
        next =>
          obtain ⟨found, here, same⟩ := Option.map_eq_some_iff.mp read
          obtain ⟨rfl, -⟩ := Prod.mk.inj same
          exact readToken_distinct here
      · intro text rest items read
        unfold readItems at read
        dsimp only at read
        split at read
        next =>
          obtain ⟨rfl, -⟩ := Prod.mk.inj (Option.some.inj read)
          trivial
        next =>
          obtain ⟨⟨item, after⟩, here, read⟩ := Option.bind_eq_some_iff.mp read
          obtain ⟨⟨others, behind⟩, later, same⟩ := Option.map_eq_some_iff.mp read
          obtain ⟨rfl, -⟩ := Prod.mk.inj same
          exact ⟨value_ here, items_ later⟩
        next => cases read
      · intro text rest member read
        unfold readMember at read
        split at read
        next => contradiction
        next size =>
          obtain rfl := Nat.succ.inj size
          obtain ⟨⟨name, after⟩, here, read⟩ := Option.bind_eq_some_iff.mp read
          dsimp only at read
          split at read
          next =>
            obtain ⟨⟨value, behind⟩, later, same⟩ := Option.map_eq_some_iff.mp read
            obtain ⟨rfl, -⟩ := Prod.mk.inj same
            exact value_ later
          next => cases read
        next => cases read
      · intro text rest members read
        unfold readMembers at read
        dsimp only at read
        split at read
        next =>
          obtain ⟨rfl, -⟩ := Prod.mk.inj (Option.some.inj read)
          exact nofun
        next =>
          obtain ⟨⟨member, after⟩, here, read⟩ := Option.bind_eq_some_iff.mp read
          obtain ⟨⟨others, behind⟩, later, same⟩ := Option.map_eq_some_iff.mp read
          obtain ⟨rfl, -⟩ := Prod.mk.inj same
          intro entry among
          rcases List.mem_cons.mp among with rfl | among
          · exact member_ here
          · exact members_ later entry among
        next => cases read

theorem loads_distinct {text : Text} {value : PyJson F} (read : loads text = some value) :
    value.Distinct := by
  unfold loads at read
  split at read
  next found rest here =>
    split_ifs at read
    obtain rfl := Option.some.inj read
    exact (reads_distinct _).1 here
  next => cases read

/-- A text is read as before where it is read without surrogates. -/
theorem loads_of_json {text : Text} {value : Json F} (read : Json.loads text = some value) :
    loads text = some (ofJson value) := by
  unfold Json.loads at read
  split at read
  next found rest here =>
    rw [loads, (reads_of_json _).1 here]
    split_ifs at read with ended
    obtain rfl := Option.some.inj read
    exact if_pos ended
  next => cases read

/-- What is dumped is read back. -/
theorem loads_dumps {value : PyJson F} (distinct : value.Distinct) {text : Text}
    (dumped : dumps? value = some text) : loads text = some value := by
  obtain ⟨plain, found, rfl⟩ := Option.map_eq_some_iff.mp dumped
  obtain rfl := eq_ofJson found
  have read := @Json.loads_print _ _ .compact _ (distinct_ofJson distinct) [] rfl
  rw [List.append_nil] at read
  exact loads_of_json read

end Reads

end PyJson

end LlmWikiServe
