import LlmWikiServe.Foundation.Keyed
import LlmWikiServe.Foundation.Text

/-!
# JSON documents

Values, the texts `json.dumps` gives them under a layout, and the value `json.loads` reads back.
What is printed is read back with the members of its objects as they were printed.
-/

namespace LlmWikiServe

universe u

/-- JSON data over a type of floats; the members of an object in insertion order. -/
inductive Json (F : Type u) where
  | null
  | bool (value : Bool)
  | int (value : Int)
  | float (value : F)
  | string (text : Text)
  | array (items : List (Json F))
  | object (members : List (Text × Json F))

namespace Json

/-! ## Tokens -/

def isBlank (char : Char) : Bool := char = ' ' || char = '\n' || char = '\t' || char = '\r'

/-- A character of a literal or a number. -/
def isTokenChar (char : Char) : Bool :=
  char.isAlphanum || char = '+' || char = '-' || char = '.'

/-- A number with a fraction or an exponent, or one of the floats that are no numbers. -/
def isFloatToken (token : Text) : Bool :=
  token.all isTokenChar &&
    ((token.any (fun char => char = '.' || char = 'e') &&
        token.head?.any fun char => char.isDigit || char = '-') ||
      decide (token ∈ [("NaN" : Text), "Infinity", "-Infinity"]))

/-- Floats with the texts they are dumped as, which are read back. -/
class FloatRepr (F : Type u) where
  repr : F → Text
  parse : Text → Option F
  isToken : ∀ value, isFloatToken (repr value) = true
  parse_repr : ∀ value, parse (repr value) = some value

/-- Floats given by their texts. -/
def Decimal : Type := { token : Text // isFloatToken token = true }

instance : DecidableEq Decimal := inferInstanceAs (DecidableEq (Subtype _))

instance : FloatRepr Decimal where
  repr value := value.1
  parse token := if valid : isFloatToken token = true then some ⟨token, valid⟩ else none
  isToken value := value.2
  parse_repr value := dif_pos value.2

def intToken : Int → Text
  | .ofNat number => Nat.toDigits 10 number
  | .negSucc number => '-' :: Nat.toDigits 10 (number + 1)

def readNat (digits : Text) : Option Nat :=
  if digits.all Char.isDigit && digits ≠ [] && (digits.head? ≠ some '0' || digits = ['0']) then
    some (Nat.ofDigitChars 10 digits 0)
  else none

def readInt : Text → Option Int
  | '-' :: digits => (readNat digits).map fun number => -number
  | digits => (readNat digits).map Int.ofNat

theorem head?_toDigits {number : Nat} (positive : 0 < number) :
    (Nat.toDigits 10 number).head? ≠ some '0' := by
  induction number using Nat.strong_induction_on with
  | _ number inductionHypothesis =>
      rw [Nat.toDigits_eq_if (by decide)]
      split
      next small => interval_cases number <;> decide
      next large =>
        rw [List.head?_append_of_ne_nil _ Nat.toDigits_ne_nil]
        exact inductionHypothesis (number / 10) (by omega) (by omega)

theorem readNat_toDigits (number : Nat) : readNat (Nat.toDigits 10 number) = some number := by
  have digits : (Nat.toDigits 10 number).all Char.isDigit = true :=
    List.all_eq_true.mpr fun char among => Nat.isDigit_of_mem_toDigits (by decide) (by decide) among
  have leading : (Nat.toDigits 10 number).head? ≠ some '0' ∨ Nat.toDigits 10 number = ['0'] := by
    rcases Nat.eq_zero_or_pos number with rfl | positive
    · exact Or.inr (Nat.toDigits_zero 10)
    · exact Or.inl (head?_toDigits positive)
  simp only [readNat, digits, Nat.ofDigitChars_ten_toDigits]
  rcases leading with other | zero
  · simp [other]
  · simp [zero]

theorem intToken_chars (value : Int) :
    ∀ char ∈ intToken value, char.isDigit = true ∨ char = '-' := by
  intro char among
  cases value with
  | ofNat number => exact Or.inl (Nat.isDigit_of_mem_toDigits (by decide) (by decide) among)
  | negSucc number =>
      rcases List.mem_cons.mp among with rfl | among
      · exact Or.inr rfl
      · exact Or.inl (Nat.isDigit_of_mem_toDigits (by decide) (by decide) among)

theorem readInt_intToken (value : Int) : readInt (intToken value) = some value := by
  cases value with
  | ofNat number =>
      have unsigned : ∀ digits, intToken (.ofNat number) ≠ '-' :: digits := by
        intro digits same
        have among : '-' ∈ Nat.toDigits 10 number :=
          (show Nat.toDigits 10 number = _ from same) ▸ List.mem_cons_self
        exact absurd (Nat.isDigit_of_mem_toDigits (by decide) (by decide) among) (by decide)
      unfold readInt
      split
      next digits same => exact absurd same (unsigned digits)
      next => simp [intToken, readNat_toDigits]
  | negSucc number =>
      simp only [intToken, readInt, readNat_toDigits]
      rfl

/-! ## Strings -/

def hexDigit (digit : Nat) : Char := Nat.digitChar digit

/-- How a character is written in a string, non-ASCII characters as they are. -/
def escape (char : Char) : Text :=
  if char = '"' then ['\\', '"']
  else if char = '\\' then ['\\', '\\']
  else if char = '\n' then ['\\', 'n']
  else if char = '\r' then ['\\', 'r']
  else if char = '\t' then ['\\', 't']
  else if char.toNat = 8 then ['\\', 'b']
  else if char.toNat = 12 then ['\\', 'f']
  else if char.toNat < 32 then
    ['\\', 'u', '0', '0', hexDigit (char.toNat / 16), hexDigit (char.toNat % 16)]
  else [char]

def hexValue (char : Char) : Option Nat :=
  if char.isDigit then some (char.toNat - 48)
  else if 'a' ≤ char ∧ char ≤ 'f' then some (char.toNat - 87)
  else if 'A' ≤ char ∧ char ≤ 'F' then some (char.toNat - 55)
  else none

def readHex : List Char → Option Nat
  | [a, b, c, d] => do
      let a ← hexValue a
      let b ← hexValue b
      let c ← hexValue c
      let d ← hexValue d
      return ((a * 16 + b) * 16 + c) * 16 + d
  | _ => none

def simpleEscape (char : Char) : Option Char :=
  if char = '"' ∨ char = '\\' ∨ char = '/' then some char
  else if char = 'n' then some '\n'
  else if char = 'r' then some '\r'
  else if char = 't' then some '\t'
  else if char = 'b' then some (Char.ofNat 8)
  else if char = 'f' then some (Char.ofNat 12)
  else none

/-- The character written at the start of a string body, and what follows it; escaped
surrogates, which are no characters of their own, are read in pairs. -/
def readChar : Text → Option (Char × Text)
  | '\\' :: 'u' :: a :: b :: c :: d :: rest =>
      (readHex [a, b, c, d]).bind fun high =>
        if high < 0xD800 ∨ 0xE000 ≤ high then some (Char.ofNat high, rest)
        else
          match rest with
          | '\\' :: 'u' :: a :: b :: c :: d :: rest =>
              (readHex [a, b, c, d]).bind fun low =>
                if high < 0xDC00 ∧ 0xDC00 ≤ low ∧ low < 0xE000 then
                  some (Char.ofNat (0x10000 + (high - 0xD800) * 0x400 + (low - 0xDC00)), rest)
                else none
          | _ => none
  | '\\' :: char :: rest => (simpleEscape char).map fun char => (char, rest)
  | char :: rest => if char.toNat < 32 ∨ char = '\\' then none else some (char, rest)
  | [] => none

/-- The body of a string up to its closing quote, with fuel for its characters. -/
def readString : Nat → Text → Option (Text × Text)
  | 0, _ => none
  | _ + 1, '"' :: rest => some ([], rest)
  | fuel + 1, text =>
      (readChar text).bind fun (char, rest) =>
        (readString fuel rest).map fun (chars, rest) => (char :: chars, rest)

theorem escape_ne_nil (char : Char) : escape char ≠ [] := by
  unfold escape
  split_ifs <;> simp

theorem escape_head (char : Char) (rest : Text) : ∀ after, escape char ++ rest ≠ '"' :: after := by
  intro after
  unfold escape
  split_ifs with quote <;> simp_all

theorem hexValue_hexDigit {digit : Nat} (small : digit < 16) :
    hexValue (hexDigit digit) = some digit := by
  interval_cases digit <;> decide

theorem readHex_control {char : Char} (control : char.toNat < 32) :
    readHex ['0', '0', hexDigit (char.toNat / 16), hexDigit (char.toNat % 16)] =
      some char.toNat := by
  have zero : hexValue '0' = some 0 := by decide
  simp only [readHex, zero, hexValue_hexDigit (show char.toNat / 16 < 16 by omega),
    hexValue_hexDigit (Nat.mod_lt char.toNat (by decide)), Option.bind_eq_bind, Option.bind_some,
    Option.pure_def, Option.some.injEq]
  omega

theorem readChar_escape (char : Char) (rest : Text) :
    readChar (escape char ++ rest) = some (char, rest) := by
  unfold escape
  split_ifs with quote backslash newline return_ tab backspace feed control
  · subst quote
    rfl
  · subst backslash
    rfl
  · subst newline
    rfl
  · subst return_
    rfl
  · subst tab
    rfl
  · obtain rfl : char = Char.ofNat 8 := by rw [← backspace, Char.ofNat_toNat]
    rfl
  · obtain rfl : char = Char.ofNat 12 := by rw [← feed, Char.ofNat_toNat]
    rfl
  · have low : char.toNat < 0xD800 := by omega
    simp only [List.cons_append, List.nil_append, readChar, readHex_control control,
      Option.bind_some, if_pos (Or.inl low), Char.ofNat_toNat]
  · simp only [List.cons_append, List.nil_append]
    unfold readChar
    split <;> simp_all

/-! ## Escapings -/

/-- How the characters of strings are written. -/
structure Escaping where
  write : Char → Text
  write_ne_nil : ∀ char, write char ≠ []
  write_head : ∀ char rest after, write char ++ rest ≠ '"' :: after
  read_write : ∀ char rest, readChar (write char ++ rest) = some (char, rest)

/-- `ensure_ascii=False` -/
def Escaping.plain : Escaping where
  write := escape
  write_ne_nil := escape_ne_nil
  write_head := escape_head
  read_write := readChar_escape

def unitEscape (unit : Nat) : Text :=
  ['\\', 'u', hexDigit (unit / 4096), hexDigit (unit / 256 % 16), hexDigit (unit / 16 % 16),
    hexDigit (unit % 16)]

/-- How a character is written where all others are ASCII. -/
def asciiEscape (char : Char) : Text :=
  if char.toNat < 127 then escape char
  else if char.toNat < 0x10000 then unitEscape char.toNat
  else
    unitEscape (0xD800 + (char.toNat - 0x10000) / 0x400) ++
      unitEscape (0xDC00 + (char.toNat - 0x10000) % 0x400)

theorem readHex_unit {unit : Nat} (small : unit < 65536) :
    readHex [hexDigit (unit / 4096), hexDigit (unit / 256 % 16), hexDigit (unit / 16 % 16),
      hexDigit (unit % 16)] = some unit := by
  simp only [readHex, hexValue_hexDigit (show unit / 4096 < 16 by omega),
    hexValue_hexDigit (Nat.mod_lt (unit / 256) (by decide)),
    hexValue_hexDigit (Nat.mod_lt (unit / 16) (by decide)),
    hexValue_hexDigit (Nat.mod_lt unit (by decide)), Option.bind_eq_bind, Option.bind_some,
    Option.pure_def, Option.some.injEq]
  omega

theorem toNat_bounds (char : Char) :
    (char.toNat < 0xD800 ∨ 0xE000 ≤ char.toNat) ∧ char.toNat < 0x110000 := by
  have valid := char.valid
  simp only [UInt32.isValidChar, Nat.isValidChar] at valid
  simp only [Char.toNat]
  omega

theorem readChar_unit {unit : Nat} (noSurrogate : unit < 0xD800 ∨ 0xE000 ≤ unit)
    (small : unit < 65536) (rest : Text) :
    readChar (unitEscape unit ++ rest) = some (Char.ofNat unit, rest) := by
  simp only [unitEscape, List.cons_append, List.nil_append, readChar, readHex_unit small,
    Option.bind_some, if_pos noSurrogate]

theorem readChar_pair {high low : Nat} (isHigh : 0xD800 ≤ high ∧ high < 0xDC00)
    (isLow : 0xDC00 ≤ low ∧ low < 0xE000) (rest : Text) :
    readChar (unitEscape high ++ (unitEscape low ++ rest)) =
      some (Char.ofNat (0x10000 + (high - 0xD800) * 0x400 + (low - 0xDC00)), rest) := by
  have surrogate : ¬ (high < 0xD800 ∨ 0xE000 ≤ high) := by omega
  simp only [unitEscape, List.cons_append, List.nil_append, readChar,
    readHex_unit (show high < 65536 by omega), readHex_unit (show low < 65536 by omega),
    Option.bind_some, if_neg surrogate, if_pos (And.intro isHigh.2 isLow)]

theorem readChar_asciiEscape (char : Char) (rest : Text) :
    readChar (asciiEscape char ++ rest) = some (char, rest) := by
  obtain ⟨noSurrogate, bounded⟩ := toNat_bounds char
  unfold asciiEscape
  split_ifs with ascii basic
  · exact readChar_escape char rest
  · rw [readChar_unit noSurrogate basic, Char.ofNat_toNat]
  · obtain ⟨high, isHigh⟩ : ∃ high, high = 0xD800 + (char.toNat - 0x10000) / 0x400 := ⟨_, rfl⟩
    obtain ⟨low, isLow⟩ : ∃ low, low = 0xDC00 + (char.toNat - 0x10000) % 0x400 := ⟨_, rfl⟩
    have joined : 0x10000 + (high - 0xD800) * 0x400 + (low - 0xDC00) = char.toNat := by omega
    rw [← isHigh, ← isLow, List.append_assoc, readChar_pair (by omega) (by omega), joined,
      Char.ofNat_toNat]

/-- `ensure_ascii=True` -/
def Escaping.ascii : Escaping where
  write := asciiEscape
  write_ne_nil char := by
    unfold asciiEscape
    split_ifs
    · exact escape_ne_nil char
    · simp [unitEscape]
    · simp [unitEscape]
  write_head char rest after := by
    unfold asciiEscape
    split_ifs
    · exact escape_head char rest after
    · simp [unitEscape]
    · simp [unitEscape]
  read_write := readChar_asciiEscape

theorem readString_escaped (escaping : Escaping) (text rest : Text) {fuel : Nat}
    (enough : text.length < fuel) :
    readString fuel (text.flatMap escaping.write ++ '"' :: rest) = some (text, rest) := by
  induction text generalizing fuel with
  | nil =>
      obtain ⟨fuel, rfl⟩ := Nat.exists_eq_succ_of_ne_zero (Nat.ne_of_gt enough)
      rfl
  | cons char text inductionHypothesis =>
      obtain ⟨fuel, rfl⟩ := Nat.exists_eq_succ_of_ne_zero (Nat.ne_of_gt (Nat.zero_lt_of_lt enough))
      have later := inductionHypothesis (Nat.lt_of_succ_lt_succ enough)
      rw [List.flatMap_cons, List.append_assoc]
      have open_ := escaping.write_head char (text.flatMap escaping.write ++ '"' :: rest)
      have first := escaping.read_write char (text.flatMap escaping.write ++ '"' :: rest)
      generalize escaping.write char ++ (text.flatMap escaping.write ++ '"' :: rest) = written
        at open_ first
      unfold readString
      split
      next => contradiction
      next after _ => exact absurd rfl (open_ after)
      next same _ =>
        obtain rfl := Nat.succ.inj same
        simp [first, later]

/-! ## Documents -/

/-- How strings are written, and the blanks between tokens by the depth of what follows. -/
structure Layout where
  escaping : Escaping
  opening : Nat → Text
  separating : Nat → Text
  colon : Text
  closing : Nat → Text
  opening_blank : ∀ depth, (opening depth).all isBlank = true
  separating_blank : ∀ depth, (separating depth).all isBlank = true
  colon_blank : colon.all isBlank = true
  closing_blank : ∀ depth, (closing depth).all isBlank = true

/-- `ensure_ascii=False, separators=(",", ":")` -/
def Layout.compact : Layout where
  escaping := .plain
  opening _ := []
  separating _ := []
  colon := []
  closing _ := []
  opening_blank _ := rfl
  separating_blank _ := rfl
  colon_blank := rfl
  closing_blank _ := rfl

/-- `ensure_ascii=False` -/
def Layout.spaced : Layout where
  escaping := .plain
  opening _ := []
  separating _ := [' ']
  colon := [' ']
  closing _ := []
  opening_blank _ := rfl
  separating_blank _ := rfl
  colon_blank := rfl
  closing_blank _ := rfl

/-- The layout of `json.dumps` without options. -/
def Layout.standard : Layout := { Layout.spaced with escaping := .ascii }

def lineBreak (indent depth : Nat) : Text := '\n' :: List.replicate (indent * depth) ' '

theorem lineBreak_blank (indent depth : Nat) : (lineBreak indent depth).all isBlank = true := by
  simp [lineBreak, isBlank]

/-- `ensure_ascii=False, indent=` -/
def Layout.indented (indent : Nat) : Layout where
  escaping := .plain
  opening depth := lineBreak indent depth
  separating depth := lineBreak indent depth
  colon := [' ']
  closing depth := lineBreak indent depth
  opening_blank := lineBreak_blank indent
  separating_blank := lineBreak_blank indent
  colon_blank := rfl
  closing_blank := lineBreak_blank indent

section Print

variable {F : Type u} [FloatRepr F] (layout : Layout)

omit [FloatRepr F] in
def printString (text : Text) : Text := '"' :: text.flatMap layout.escaping.write ++ ['"']

mutual

def print (depth : Nat) : Json F → Text
  | .null => "null"
  | .bool true => "true"
  | .bool false => "false"
  | .int value => intToken value
  | .float value => FloatRepr.repr value
  | .string text => printString layout text
  | .array [] => ['[', ']']
  | .array (item :: items) =>
      '[' :: layout.opening (depth + 1) ++ print (depth + 1) item ++
        printItems (depth + 1) items ++ layout.closing depth ++ [']']
  | .object [] => ['\x7b', '\x7d']
  | .object (member :: members) =>
      '\x7b' :: layout.opening (depth + 1) ++ printMember (depth + 1) member ++
        printMembers (depth + 1) members ++ layout.closing depth ++ ['\x7d']
termination_by structural value => value

def printItems (depth : Nat) : List (Json F) → Text
  | [] => []
  | item :: items =>
      ',' :: layout.separating depth ++ print depth item ++ printItems depth items
termination_by structural items => items

def printMember (depth : Nat) : Text × Json F → Text
  | (name, value) => printString layout name ++ ':' :: layout.colon ++ print depth value
termination_by structural member => member

def printMembers (depth : Nat) : List (Text × Json F) → Text
  | [] => []
  | member :: members =>
      ',' :: layout.separating depth ++ printMember depth member ++ printMembers depth members
termination_by structural members => members

end

end Print

section Read

variable {F : Type u} [FloatRepr F]

def skipBlank (text : Text) : Text := text.dropWhile isBlank

def readToken (token : Text) : Option (Json F) :=
  if token = "null" then some .null
  else if token = "true" then some (.bool true)
  else if token = "false" then some (.bool false)
  else if isFloatToken token then (FloatRepr.parse token).map .float
  else (readInt token).map .int

mutual

def readValue : Nat → Text → Option (Json F × Text)
  | 0, _ => none
  | _ + 1, '"' :: rest =>
      (readString rest.length rest).map fun (text, rest) => (.string text, rest)
  | fuel + 1, '[' :: rest =>
      match skipBlank rest with
      | ']' :: rest => some (.array [], rest)
      | text =>
          (readValue fuel text).bind fun (item, rest) =>
            (readItems fuel rest).map fun (items, rest) => (.array (item :: items), rest)
  | fuel + 1, '\x7b' :: rest =>
      match skipBlank rest with
      | '\x7d' :: rest => some (.object [], rest)
      | text =>
          (readMember fuel text).bind fun (member, rest) =>
            (readMembers fuel rest).map fun (members, rest) =>
              (.object (Keyed.update [] (member :: members)), rest)
  | _ + 1, text =>
      (readToken (text.takeWhile isTokenChar)).map fun value =>
        (value, text.dropWhile isTokenChar)

/-- The items of an array after the first one, up to its bracket. -/
def readItems : Nat → Text → Option (List (Json F) × Text)
  | 0, _ => none
  | fuel + 1, text =>
      match skipBlank text with
      | ']' :: rest => some ([], rest)
      | ',' :: rest =>
          (readValue fuel (skipBlank rest)).bind fun (item, rest) =>
            (readItems fuel rest).map fun (items, rest) => (item :: items, rest)
      | _ => none

def readMember : Nat → Text → Option ((Text × Json F) × Text)
  | 0, _ => none
  | fuel + 1, '"' :: rest =>
      (readString rest.length rest).bind fun (name, rest) =>
        match skipBlank rest with
        | ':' :: rest =>
            (readValue fuel (skipBlank rest)).map fun (value, rest) => ((name, value), rest)
        | _ => none
  | _ + 1, _ => none

/-- The members of an object after the first one, up to its brace. -/
def readMembers : Nat → Text → Option (List (Text × Json F) × Text)
  | 0, _ => none
  | fuel + 1, text =>
      match skipBlank text with
      | '\x7d' :: rest => some ([], rest)
      | ',' :: rest =>
          (readMember fuel (skipBlank rest)).bind fun (member, rest) =>
            (readMembers fuel rest).map fun (members, rest) => (member :: members, rest)
      | _ => none

end

/-- `json.loads` -/
def loads (text : Text) : Option (Json F) :=
  match readValue (2 * text.length + 1) (skipBlank text) with
  | some (value, rest) => if skipBlank rest = [] then some value else none
  | none => none

end Read

/-! ## Reading back -/

section RoundTrip

variable {F : Type u}

mutual

def Distinct : Json F → Prop
  | .array items => DistinctItems items
  | .object members => (members.map Prod.fst).Nodup ∧ DistinctMembers members
  | _ => True
termination_by structural value => value

def DistinctItems : List (Json F) → Prop
  | [] => True
  | item :: items => Distinct item ∧ DistinctItems items
termination_by structural items => items

def DistinctMember : Text × Json F → Prop
  | (_, value) => Distinct value
termination_by structural member => member

def DistinctMembers : List (Text × Json F) → Prop
  | [] => True
  | member :: members => DistinctMember member ∧ DistinctMembers members
termination_by structural members => members

end

/-- What follows a value does not go on with it. -/
def Delimited (rest : Text) : Prop := ∀ char after, rest = char :: after → isTokenChar char = false

theorem delimited_cons {char : Char} (mark : isTokenChar char = false) (rest : Text) :
    Delimited (char :: rest) := by
  rintro other after same
  obtain ⟨rfl, -⟩ := List.cons.inj same
  exact mark

theorem isTokenChar_of_isBlank {char : Char} (blank : isBlank char = true) :
    isTokenChar char = false := by
  simp only [isBlank, Bool.or_eq_true, decide_eq_true_eq] at blank
  rcases blank with ((rfl | rfl) | rfl) | rfl <;> decide

theorem delimited_blanks {blanks : Text} (blank : blanks.all isBlank = true) {rest : Text}
    (delimited : Delimited rest) : Delimited (blanks ++ rest) := by
  cases blanks with
  | nil => exact delimited
  | cons char blanks =>
      exact delimited_cons
        (isTokenChar_of_isBlank (List.all_eq_true.mp blank char List.mem_cons_self)) _

theorem skipBlank_append {blanks : Text} (blank : blanks.all isBlank = true) (rest : Text) :
    skipBlank (blanks ++ rest) = skipBlank rest := by
  induction blanks with
  | nil => rfl
  | cons char blanks inductionHypothesis =>
      simp only [List.all_cons, Bool.and_eq_true] at blank
      simpa [skipBlank, blank.1] using inductionHypothesis blank.2

theorem skipBlank_cons {char : Char} (visible : isBlank char = false) (rest : Text) :
    skipBlank (char :: rest) = char :: rest := by
  simp [skipBlank, visible]

theorem takeWhile_token {token rest : Text} (chars : token.all isTokenChar = true)
    (delimited : Delimited rest) :
    (token ++ rest).takeWhile isTokenChar = token ∧
      (token ++ rest).dropWhile isTokenChar = rest := by
  induction token with
  | nil =>
      cases rest with
      | nil => exact ⟨rfl, rfl⟩
      | cons char after => simp [delimited char after rfl]
  | cons char token inductionHypothesis =>
      simp only [List.all_cons, Bool.and_eq_true] at chars
      simpa [chars.1] using inductionHypothesis chars.2

theorem intToken_not_float (value : Int) : isFloatToken (intToken value) = false := by
  have plain : (intToken value).any (fun char => char = '.' || char = 'e') = false := by
    apply List.any_eq_false.mpr
    intro char among
    rcases intToken_chars value char among with digit | rfl
    · simp only [Bool.or_eq_true, decide_eq_true_eq, not_or]
      constructor <;> rintro rfl <;> exact absurd digit (by decide)
    · decide
  have named : intToken value ∉ [("NaN" : Text), "Infinity", "-Infinity"] := by
    intro among
    have letter : 'N' ∈ intToken value ∨ 'I' ∈ intToken value := by
      simp only [List.mem_cons, List.not_mem_nil, or_false] at among
      rcases among with same | same | same <;> rw [same] <;> decide
    rcases letter with among | among <;>
      exact absurd (intToken_chars value _ among) (by decide)
  simp only [isFloatToken, plain, named, decide_false, Bool.false_and, Bool.or_false,
    Bool.and_false]

theorem intToken_all (value : Int) : (intToken value).all isTokenChar = true := by
  apply List.all_eq_true.mpr
  intro char among
  rcases intToken_chars value char among with digit | rfl
  · simp [isTokenChar, Char.isAlphanum, digit]
  · decide

theorem intToken_ne_nil (value : Int) : intToken value ≠ [] := by
  cases value <;> simp [intToken]

variable [FloatRepr F]

/-- A float is not written like a literal. -/
theorem isFloatToken_head {token : Text} (isToken : isFloatToken token = true) :
    ∃ char rest, token = char :: rest ∧ char ≠ 'n' ∧ char ≠ 't' ∧ char ≠ 'f' := by
  simp only [isFloatToken, Bool.and_eq_true, Bool.or_eq_true, decide_eq_true_eq,
    List.mem_cons, List.not_mem_nil, or_false] at isToken
  rcases isToken.2 with ⟨-, first⟩ | rfl | rfl | rfl
  · cases token with
    | nil => simp at first
    | cons char rest =>
        simp only [List.head?_cons, Option.any_some, Bool.or_eq_true, decide_eq_true_eq] at first
        refine ⟨char, rest, rfl, ?_⟩
        refine ⟨?_, ?_, ?_⟩ <;> rintro rfl <;> exact absurd first (by decide)
  · exact ⟨'N', _, rfl, by decide⟩
  · exact ⟨'I', _, rfl, by decide⟩
  · exact ⟨'-', _, rfl, by decide⟩

theorem isFloatToken_all {token : Text} (isToken : isFloatToken token = true) :
    token.all isTokenChar = true := by
  simp only [isFloatToken, Bool.and_eq_true] at isToken
  exact isToken.1

theorem readToken_int (value : Int) : readToken (F := F) (intToken value) = some (.int value) := by
  have digits := intToken_chars value
  have literal : ∀ word : Text, 'u' ∈ word ∨ 'a' ∈ word → intToken value ≠ word := by
    rintro word letter rfl
    rcases letter with among | among <;>
      exact absurd (digits _ among) (by decide)
  unfold readToken
  rw [if_neg (literal _ (by decide)), if_neg (literal _ (by decide)),
    if_neg (literal _ (by decide)), intToken_not_float, readInt_intToken]
  rfl

theorem readToken_float (value : F) :
    readToken (FloatRepr.repr value) = some (.float value) := by
  have isToken := FloatRepr.isToken value
  obtain ⟨char, rest, shape, notN, notT, notF⟩ := isFloatToken_head isToken
  have literal : ∀ letter word, char ≠ letter → FloatRepr.repr value ≠ letter :: word :=
    fun letter word other same => other (List.cons.inj (shape.symm.trans same)).1
  have notNull : FloatRepr.repr value ≠ ("null" : Text) := literal 'n' _ notN
  have notTrue : FloatRepr.repr value ≠ ("true" : Text) := literal 't' _ notT
  have notFalse : FloatRepr.repr value ≠ ("false" : Text) := literal 'f' _ notF
  unfold readToken
  rw [if_neg notNull, if_neg notTrue, if_neg notFalse, if_pos isToken, FloatRepr.parse_repr]
  rfl

theorem readValue_token {token rest : Text} {value : Json F} {fuel : Nat}
    (chars : token.all isTokenChar = true) (nonempty : token ≠ [])
    (reads : readToken token = some value) (delimited : Delimited rest)
    (enough : 2 * token.length ≤ fuel) : readValue fuel (token ++ rest) = some (value, rest) := by
  obtain ⟨char, more, rfl⟩ := List.exists_cons_of_ne_nil nonempty
  obtain ⟨fuel, rfl⟩ : ∃ less, fuel = less + 1 := ⟨fuel - 1, by simp at enough; omega⟩
  have first : isTokenChar char = true := List.all_eq_true.mp chars char List.mem_cons_self
  obtain ⟨taken, dropped⟩ := takeWhile_token chars delimited
  have scalar : readValue (F := F) (fuel + 1) (char :: more ++ rest) =
      (readToken ((char :: more ++ rest).takeWhile isTokenChar)).map fun value =>
        (value, (char :: more ++ rest).dropWhile isTokenChar) := by
    have notQuote : char ≠ '"' := by rintro rfl; exact absurd first (by decide)
    have notBracket : char ≠ '[' := by rintro rfl; exact absurd first (by decide)
    have notBrace : char ≠ '\x7b' := by rintro rfl; exact absurd first (by decide)
    rw [List.cons_append]
    unfold readValue
    split <;> simp_all
  rw [scalar, taken, dropped, reads]
  rfl

theorem printString_length (layout : Layout) (text : Text) :
    text.length + 2 ≤ (printString layout text).length := by
  have body : text.length ≤ (text.flatMap layout.escaping.write).length := by
    induction text with
    | nil => simp
    | cons char text inductionHypothesis =>
        have first := List.length_pos_iff.mpr (layout.escaping.write_ne_nil char)
        simp only [List.flatMap_cons, List.length_append, List.length_cons]
        omega
  simp only [printString, List.cons_append, List.length_cons, List.length_append,
    List.length_nil]
  omega

theorem readString_print (layout : Layout) (text rest : Text) :
    ∃ body, printString layout text ++ rest = '"' :: body ∧
      readString body.length body = some (text, rest) := by
  refine ⟨text.flatMap layout.escaping.write ++ '"' :: rest, by simp [printString], ?_⟩
  apply readString_escaped
  have size := printString_length layout text
  simp only [printString, List.cons_append, List.length_cons, List.length_append,
    List.length_nil] at size ⊢
  omega

/-- A printed value begins with a character that is no blank and closes nothing. -/
theorem print_head (layout : Layout) (depth : Nat) (value : Json F) :
    ∃ char rest, print layout depth value = char :: rest ∧ isBlank char = false ∧ char ≠ ']' := by
  have token : ∀ token : Text, token.all isTokenChar = true → token ≠ [] →
      ∃ char rest, token = char :: rest ∧ isBlank char = false ∧ char ≠ ']' := by
    intro token chars nonempty
    obtain ⟨char, rest, rfl⟩ := List.exists_cons_of_ne_nil nonempty
    have first : isTokenChar char = true := List.all_eq_true.mp chars char List.mem_cons_self
    refine ⟨char, rest, rfl, ?_, ?_⟩
    · by_contra blank
      simp [isTokenChar_of_isBlank ((Bool.not_eq_false _).mp blank)] at first
    · rintro rfl
      exact absurd first (by decide)
  cases value with
  | null => exact token _ rfl (by simp [print])
  | bool value => cases value <;> exact token _ rfl (by simp [print])
  | int value => exact token _ (intToken_all value) (intToken_ne_nil value)
  | float value =>
      have isToken := FloatRepr.isToken value
      obtain ⟨char, rest, shape, -⟩ := isFloatToken_head isToken
      exact token (FloatRepr.repr value) (isFloatToken_all isToken) (by simp [shape])
  | string text => exact ⟨'"', _, rfl, rfl, by decide⟩
  | array items => cases items <;> exact ⟨'[', _, rfl, rfl, by decide⟩
  | object members => cases members <;> exact ⟨'\x7b', _, rfl, rfl, by decide⟩

theorem readValue_array {opening written tail rest : Text} {item : Json F}
    {items : List (Json F)} {fuel : Nat} (blank : opening.all isBlank = true)
    (head : ∃ char more, written = char :: more ∧ isBlank char = false ∧ char ≠ ']')
    (first : readValue fuel (written ++ tail) = some (item, tail))
    (later : readItems fuel tail = some (items, rest)) :
    readValue (fuel + 1) ('[' :: (opening ++ (written ++ tail))) =
      some (.array (item :: items), rest) := by
  obtain ⟨char, more, rfl, visible, open_⟩ := head
  have skipped : skipBlank (opening ++ (char :: more ++ tail)) = char :: more ++ tail := by
    rw [skipBlank_append blank]
    exact skipBlank_cons visible _
  simp only [readValue, skipped]
  split
  next closed => exact absurd (List.cons.inj closed).1 open_
  next => simp only [first, Option.bind_some, later, Option.map_some]

theorem readValue_object {opening written tail rest : Text} {member : Text × Json F}
    {members : List (Text × Json F)} {fuel : Nat} (blank : opening.all isBlank = true)
    (head : ∃ more, written = '"' :: more)
    (distinct : ((member :: members).map Prod.fst).Nodup)
    (first : readMember fuel (written ++ tail) = some (member, tail))
    (later : readMembers fuel tail = some (members, rest)) :
    readValue (fuel + 1) ('\x7b' :: (opening ++ (written ++ tail))) =
      some (.object (member :: members), rest) := by
  obtain ⟨more, rfl⟩ := head
  have skipped : skipBlank (opening ++ ('"' :: more ++ tail)) = '"' :: more ++ tail := by
    rw [skipBlank_append blank]
    exact skipBlank_cons rfl _
  simp only [readValue, skipped]
  split
  next closed => exact absurd (List.cons.inj closed).1 (by decide)
  next => simp only [first, Option.bind_some, later, Option.map_some, Keyed.update_nil distinct]

theorem readItems_cons {between written tail rest : Text} {item : Json F}
    {items : List (Json F)} {fuel : Nat} (blank : between.all isBlank = true)
    (head : ∃ char more, written = char :: more ∧ isBlank char = false ∧ char ≠ ']')
    (first : readValue fuel (written ++ tail) = some (item, tail))
    (later : readItems fuel tail = some (items, rest)) :
    readItems (fuel + 1) (',' :: (between ++ (written ++ tail))) = some (item :: items, rest) := by
  obtain ⟨char, more, rfl, visible, -⟩ := head
  have skipped : skipBlank (between ++ (char :: more ++ tail)) = char :: more ++ tail := by
    rw [skipBlank_append blank]
    exact skipBlank_cons visible _
  have comma : ∀ text, skipBlank (',' :: text) = ',' :: text := fun text => skipBlank_cons rfl text
  simp only [readItems, comma, skipped, first, Option.bind_some, later, Option.map_some]

theorem readMembers_cons {between written tail rest : Text} {member : Text × Json F}
    {members : List (Text × Json F)} {fuel : Nat} (blank : between.all isBlank = true)
    (head : ∃ more, written = '"' :: more)
    (first : readMember fuel (written ++ tail) = some (member, tail))
    (later : readMembers fuel tail = some (members, rest)) :
    readMembers (fuel + 1) (',' :: (between ++ (written ++ tail))) =
      some (member :: members, rest) := by
  obtain ⟨more, rfl⟩ := head
  have skipped : skipBlank (between ++ ('"' :: more ++ tail)) = '"' :: more ++ tail := by
    rw [skipBlank_append blank]
    exact skipBlank_cons rfl _
  have comma : ∀ text, skipBlank (',' :: text) = ',' :: text := fun text => skipBlank_cons rfl text
  simp only [readMembers, comma, skipped, first, Option.bind_some, later, Option.map_some]

/-- What follows an item or a member, up to the end of its container. -/
theorem delimited_items (layout : Layout) (depth : Nat) (items : List (Json F)) {blanks : Text}
    (blank : blanks.all isBlank = true) (rest : Text) :
    Delimited (printItems layout depth items ++ (blanks ++ ']' :: rest)) := by
  cases items with
  | nil => exact delimited_blanks blank (delimited_cons (by decide) rest)
  | cons item items => exact delimited_cons (by decide) _

theorem delimited_members (layout : Layout) (depth : Nat) (members : List (Text × Json F))
    {blanks : Text} (blank : blanks.all isBlank = true) (rest : Text) :
    Delimited (printMembers layout depth members ++ (blanks ++ '\x7d' :: rest)) := by
  cases members with
  | nil => exact delimited_blanks blank (delimited_cons (by decide) rest)
  | cons member members => exact delimited_cons (by decide) _

theorem printMember_head (layout : Layout) (depth : Nat) (member : Text × Json F) :
    ∃ more, printMember layout depth member = '"' :: more := by
  obtain ⟨name, value⟩ := member
  exact ⟨_, rfl⟩

theorem readMember_print (layout : Layout) (depth : Nat) (name : Text) {value : Json F}
    {rest : Text} {fuel : Nat}
    (read : readValue fuel (print layout depth value ++ rest) = some (value, rest)) :
    readMember (fuel + 1) (printMember layout depth (name, value) ++ rest) =
      some ((name, value), rest) := by
  obtain ⟨body, shape, reads⟩ := readString_print layout name
    (':' :: (layout.colon ++ (print layout depth value ++ rest)))
  obtain ⟨char, more, valueShape, visible, -⟩ := print_head layout depth value
  have colon : ∀ text, skipBlank (':' :: text) = ':' :: text := fun text => skipBlank_cons rfl text
  have skipped : skipBlank (layout.colon ++ (print layout depth value ++ rest)) =
      print layout depth value ++ rest := by
    rw [skipBlank_append layout.colon_blank, valueShape]
    exact skipBlank_cons visible _
  simp only [printMember, List.append_assoc, List.cons_append, shape, readMember, reads,
    Option.bind_some, colon, skipped, read, Option.map_some]

mutual

theorem readValue_print (layout : Layout) (depth : Nat) (value : Json F)
    (distinct : value.Distinct) {rest : Text} (delimited : Delimited rest) {fuel : Nat}
    (enough : 2 * (print layout depth value).length ≤ fuel) :
    readValue fuel (print layout depth value ++ rest) = some (value, rest) := by
  match value with
  | .null => exact readValue_token rfl (by simp [print]) (by rfl) delimited enough
  | .bool true => exact readValue_token rfl (by simp [print]) (by rfl) delimited enough
  | .bool false => exact readValue_token rfl (by simp [print]) (by rfl) delimited enough
  | .int value =>
      exact readValue_token (intToken_all value) (intToken_ne_nil value) (readToken_int value)
        delimited enough
  | .float value =>
      have isToken := FloatRepr.isToken value
      obtain ⟨char, more, shape, -⟩ := isFloatToken_head isToken
      exact @readValue_token _ _ (FloatRepr.repr value) _ _ _ (isFloatToken_all isToken)
        (by simp [shape]) (readToken_float value) delimited enough
  | .string text =>
      obtain ⟨body, shape, reads⟩ := readString_print layout text rest
      obtain ⟨fuel, rfl⟩ : ∃ less, fuel = less + 1 := by
        have size := printString_length layout text
        simp only [print] at enough
        exact ⟨fuel - 1, by omega⟩
      simp only [print, shape, readValue, reads, Option.map_some]
  | .array [] =>
      obtain ⟨fuel, rfl⟩ : ∃ less, fuel = less + 1 := by
        simp only [print, List.length_cons, List.length_nil] at enough
        exact ⟨fuel - 1, by omega⟩
      rfl
  | .object [] =>
      obtain ⟨fuel, rfl⟩ : ∃ less, fuel = less + 1 := by
        simp only [print, List.length_cons, List.length_nil] at enough
        exact ⟨fuel - 1, by omega⟩
      rfl
  | .array (item :: items) =>
      simp only [Distinct, DistinctItems] at distinct
      simp only [print, List.cons_append, List.length_cons, List.length_append, List.length_nil,
        List.append_assoc, List.nil_append] at enough ⊢
      obtain ⟨fuel, rfl⟩ : ∃ less, fuel = less + 1 := ⟨fuel - 1, by omega⟩
      apply readValue_array (layout.opening_blank _) (print_head layout (depth + 1) item)
      · apply readValue_print layout (depth + 1) item distinct.1
        · exact delimited_items layout (depth + 1) items (layout.closing_blank depth) rest
        · omega
      · exact readItems_print layout (depth + 1) items distinct.2 (layout.closing_blank depth)
          (by omega)
  | .object ((name, value) :: members) =>
      simp only [Distinct, DistinctMembers, DistinctMember] at distinct
      simp only [print, List.cons_append, List.length_cons, List.length_append, List.length_nil,
        List.append_assoc, List.nil_append] at enough ⊢
      have nested : (print layout (depth + 1) value).length <
          (printMember layout (depth + 1) (name, value)).length := by
        simp only [printMember, List.length_append, List.length_cons]
        omega
      obtain ⟨fuel, rfl⟩ : ∃ less, fuel = less + 2 := ⟨fuel - 2, by omega⟩
      apply readValue_object (layout.opening_blank _) (printMember_head layout (depth + 1) _)
        distinct.1
      · apply readMember_print
        apply readValue_print layout (depth + 1) value distinct.2.1
        · exact delimited_members layout (depth + 1) members (layout.closing_blank depth) rest
        · omega
      · exact readMembers_print layout (depth + 1) members distinct.2.2
          (layout.closing_blank depth) (by omega)
termination_by sizeOf value

theorem readItems_print (layout : Layout) (depth : Nat) (items : List (Json F))
    (distinct : DistinctItems items) {blanks : Text} (blank : blanks.all isBlank = true)
    {rest : Text} {fuel : Nat} (enough : 2 * (printItems layout depth items).length + 1 ≤ fuel) :
    readItems fuel (printItems layout depth items ++ (blanks ++ ']' :: rest)) =
      some (items, rest) := by
  match items with
  | [] =>
      obtain ⟨fuel, rfl⟩ : ∃ less, fuel = less + 1 := ⟨fuel - 1, by omega⟩
      have closed : skipBlank (blanks ++ ']' :: rest) = ']' :: rest := by
        rw [skipBlank_append blank]
        exact skipBlank_cons rfl rest
      simp only [printItems, List.nil_append, readItems, closed]
  | item :: items =>
      obtain ⟨fuel, rfl⟩ : ∃ less, fuel = less + 1 := ⟨fuel - 1, by omega⟩
      simp only [DistinctItems] at distinct
      simp only [printItems, List.cons_append, List.length_cons, List.length_append,
        List.append_assoc] at enough ⊢
      apply readItems_cons (layout.separating_blank depth) (print_head layout depth item)
      · apply readValue_print layout depth item distinct.1
        · exact delimited_items layout depth items blank rest
        · omega
      · exact readItems_print layout depth items distinct.2 blank (by omega)
termination_by sizeOf items

theorem readMembers_print (layout : Layout) (depth : Nat) (members : List (Text × Json F))
    (distinct : DistinctMembers members) {blanks : Text} (blank : blanks.all isBlank = true)
    {rest : Text} {fuel : Nat}
    (enough : 2 * (printMembers layout depth members).length + 1 ≤ fuel) :
    readMembers fuel (printMembers layout depth members ++ (blanks ++ '\x7d' :: rest)) =
      some (members, rest) := by
  match members with
  | [] =>
      obtain ⟨fuel, rfl⟩ : ∃ less, fuel = less + 1 := ⟨fuel - 1, by omega⟩
      have closed : skipBlank (blanks ++ '\x7d' :: rest) = '\x7d' :: rest := by
        rw [skipBlank_append blank]
        exact skipBlank_cons rfl rest
      simp only [printMembers, List.nil_append, readMembers, closed]
  | (name, value) :: members =>
      simp only [DistinctMembers, DistinctMember] at distinct
      simp only [printMembers, List.cons_append, List.length_cons, List.length_append,
        List.append_assoc] at enough ⊢
      have nested : (print layout depth value).length <
          (printMember layout depth (name, value)).length := by
        simp only [printMember, List.length_append, List.length_cons]
        omega
      obtain ⟨fuel, rfl⟩ : ∃ less, fuel = less + 2 := ⟨fuel - 2, by omega⟩
      apply readMembers_cons (layout.separating_blank depth) (printMember_head layout depth _)
      · apply readMember_print
        apply readValue_print layout depth value distinct.1
        · exact delimited_members layout depth members blank rest
        · omega
      · exact readMembers_print layout depth members distinct.2 blank (by omega)
termination_by sizeOf members

end

theorem loads_print (layout : Layout) {value : Json F} (distinct : value.Distinct) {blanks : Text}
    (blank : blanks.all isBlank = true) :
    loads (print layout 0 value ++ blanks) = some value := by
  obtain ⟨char, more, shape, visible, -⟩ := print_head layout 0 value
  have skipped : skipBlank (print layout 0 value ++ blanks) = print layout 0 value ++ blanks := by
    rw [shape]
    exact skipBlank_cons visible _
  have delimited : Delimited blanks := by
    have nothing : Delimited [] := nofun
    have ended := delimited_blanks blank nothing
    rwa [List.append_nil] at ended
  have ended : skipBlank blanks = [] := by
    have skipped := skipBlank_append blank []
    rwa [List.append_nil] at skipped
  have read := readValue_print layout 0 value distinct delimited
    (show 2 * (print layout 0 value).length ≤ 2 * (print layout 0 value ++ blanks).length + 1 by
      simp only [List.length_append]; omega)
  simp only [loads, skipped, read, ended, if_true]

end RoundTrip

/-! ## Sorted keys -/

section SortKeys

variable {F : Type u}

/-- The order of members by their names. -/
def nameLe (first second : Text × Json F) : Prop := first.1 ≤ second.1

instance : DecidableRel (@nameLe F) := fun first second =>
  inferInstanceAs (Decidable (first.1 ≤ second.1))

instance : Std.Total (@nameLe F) := ⟨fun first second => le_total first.1 second.1⟩

instance : IsTrans (Text × Json F) nameLe := ⟨fun _ _ _ => le_trans⟩

mutual

/-- The members of all objects in the order of their names, as `sort_keys=True` writes them. -/
def sortKeys : Json F → Json F
  | .array items => .array (sortItems items)
  | .object members => .object ((sortMembers members).insertionSort nameLe)
  | value => value
termination_by structural value => value

def sortItems : List (Json F) → List (Json F)
  | [] => []
  | item :: items => sortKeys item :: sortItems items
termination_by structural items => items

def sortMember : Text × Json F → Text × Json F
  | (name, value) => (name, sortKeys value)
termination_by structural member => member

def sortMembers : List (Text × Json F) → List (Text × Json F)
  | [] => []
  | member :: members => sortMember member :: sortMembers members
termination_by structural members => members

end

/-- Equal up to the order of members, as dictionaries compare. -/
def Alike (first second : Json F) : Prop := first.sortKeys = second.sortKeys

/-- `json.dumps` with `sort_keys=True`. -/
def dumps [FloatRepr F] (layout : Layout) (value : Json F) : Text := print layout 0 value.sortKeys

theorem Alike.symm {first second : Json F} (alike : first.Alike second) : second.Alike first :=
  Eq.symm alike

theorem Alike.trans {first second third : Json F} (left : first.Alike second)
    (right : second.Alike third) : first.Alike third :=
  Eq.trans left right

theorem sortMembers_eq_map (members : List (Text × Json F)) :
    sortMembers members = members.map sortMember := by
  induction members with
  | nil => rfl
  | cons member members inductionHypothesis => simp [sortMembers, inductionHypothesis]

@[simp]
theorem sortMember_fst (member : Text × Json F) : (sortMember member).1 = member.1 := by
  obtain ⟨name, value⟩ := member
  rfl

theorem map_fst_sortMembers (members : List (Text × Json F)) :
    (sortMembers members).map Prod.fst = members.map Prod.fst := by
  simp [sortMembers_eq_map]

theorem sortMembers_insertionSort (members : List (Text × Json F)) :
    sortMembers (members.insertionSort nameLe) = (sortMembers members).insertionSort nameLe := by
  rw [sortMembers_eq_map, sortMembers_eq_map]
  apply List.map_insertionSort
  intro first _ second _
  simp only [nameLe, sortMember_fst]

mutual

/-- Sorted members stay as they are. -/
theorem sortKeys_sortKeys (value : Json F) : value.sortKeys.sortKeys = value.sortKeys := by
  match value with
  | .null => rfl
  | .bool _ => rfl
  | .int _ => rfl
  | .float _ => rfl
  | .string _ => rfl
  | .array items => simp only [sortKeys, sortItems_sortItems items]
  | .object members =>
      simp only [sortKeys, sortMembers_insertionSort, sortMembers_sortMembers members]
      rw [List.Pairwise.insertionSort_eq (List.pairwise_insertionSort _ _)]
termination_by sizeOf value

theorem sortItems_sortItems (items : List (Json F)) :
    sortItems (sortItems items) = sortItems items := by
  match items with
  | [] => rfl
  | item :: items => simp only [sortItems, sortKeys_sortKeys item, sortItems_sortItems items]
termination_by sizeOf items

theorem sortMembers_sortMembers (members : List (Text × Json F)) :
    sortMembers (sortMembers members) = sortMembers members := by
  match members with
  | [] => rfl
  | (name, value) :: members =>
      simp only [sortMembers, sortMember, sortKeys_sortKeys value,
        sortMembers_sortMembers members]
termination_by sizeOf members

end

theorem distinctMembers_iff {members : List (Text × Json F)} :
    DistinctMembers members ↔ ∀ member ∈ members, DistinctMember member := by
  induction members with
  | nil => simp [DistinctMembers]
  | cons member members inductionHypothesis => simp [DistinctMembers, inductionHypothesis]

mutual

theorem distinct_sortKeys (value : Json F) (distinct : value.Distinct) :
    value.sortKeys.Distinct := by
  match value with
  | .null => trivial
  | .bool _ => trivial
  | .int _ => trivial
  | .float _ => trivial
  | .string _ => trivial
  | .array items =>
      simp only [Distinct] at distinct
      simp only [sortKeys, Distinct]
      exact distinctItems_sortItems items distinct
  | .object members =>
      simp only [Distinct] at distinct
      simp only [sortKeys, Distinct]
      have sorted := List.perm_insertionSort (@nameLe F) (sortMembers members)
      refine ⟨?_, ?_⟩
      · rw [(sorted.map Prod.fst).nodup_iff, map_fst_sortMembers]
        exact distinct.1
      · have kept := distinctMembers_sortMembers members distinct.2
        rw [distinctMembers_iff] at kept ⊢
        exact fun member among => kept member (sorted.mem_iff.mp among)
termination_by sizeOf value

theorem distinctItems_sortItems (items : List (Json F)) (distinct : DistinctItems items) :
    DistinctItems (sortItems items) := by
  match items with
  | [] => trivial
  | item :: items =>
      simp only [DistinctItems] at distinct
      simp only [sortItems, DistinctItems]
      exact ⟨distinct_sortKeys item distinct.1, distinctItems_sortItems items distinct.2⟩
termination_by sizeOf items

theorem distinctMembers_sortMembers (members : List (Text × Json F))
    (distinct : DistinctMembers members) : DistinctMembers (sortMembers members) := by
  match members with
  | [] => trivial
  | (name, value) :: members =>
      simp only [DistinctMembers, DistinctMember] at distinct
      simp only [sortMembers, sortMember, DistinctMembers, DistinctMember]
      exact ⟨distinct_sortKeys value distinct.1, distinctMembers_sortMembers members distinct.2⟩
termination_by sizeOf members

end

/-- `value.get(name)`, null when absent. -/
def get (name : Text) : Json F → Json F
  | .object members => (Keyed.get? members name).getD .null
  | _ => .null

theorem get?_sortMembers (members : List (Text × Json F)) (name : Text) :
    Keyed.get? (sortMembers members) name = (Keyed.get? members name).map sortKeys := by
  induction members with
  | nil => rfl
  | cons member members inductionHypothesis =>
      obtain ⟨first, value⟩ := member
      by_cases same : first = name
      · simp [sortMembers, sortMember, Keyed.get?, same]
      · simpa [sortMembers, sortMember, Keyed.get?, same] using inductionHypothesis

/-- Sorting the members changes what is found under a name only in order. -/
theorem get_sortKeys {value : Json F} (distinct : value.Distinct) (name : Text) :
    value.sortKeys.get name = (value.get name).sortKeys := by
  cases value with
  | object members =>
      simp only [Distinct] at distinct
      have sorted := List.perm_insertionSort (@nameLe F) (sortMembers members)
      have names : ((sortMembers members).map Prod.fst).Nodup := by
        rw [map_fst_sortMembers]
        exact distinct.1
      simp only [sortKeys, get, ← Keyed.get?_of_perm sorted.symm names, get?_sortMembers]
      cases Keyed.get? members name <;> rfl
  | _ => rfl

variable [FloatRepr F]

/-- What is dumped is read back up to the order of members, with blanks after it. -/
theorem loads_dumps_append (layout : Layout) {value : Json F} (distinct : value.Distinct)
    {blanks : Text} (blank : blanks.all isBlank = true) :
    loads (dumps layout value ++ blanks) = some value.sortKeys :=
  loads_print layout (distinct_sortKeys value distinct) blank

theorem loads_dumps (layout : Layout) {value : Json F} (distinct : value.Distinct) :
    loads (dumps layout value) = some value.sortKeys := by
  have blank : ([] : Text).all isBlank = true := rfl
  simpa using loads_dumps_append layout distinct blank

theorem alike_of_dumps {layout : Layout} {first second : Json F} (distinct : first.Distinct)
    (otherDistinct : second.Distinct) (same : dumps layout first = dumps layout second) :
    first.Alike second := by
  have loaded := loads_dumps layout distinct
  rw [same, loads_dumps layout otherDistinct] at loaded
  exact (Option.some.inj loaded).symm

end SortKeys

end Json

end LlmWikiServe
