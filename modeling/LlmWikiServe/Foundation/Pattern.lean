import LlmWikiServe.Foundation.Unicode

/-!
# Backtracking patterns

Regular expressions with the semantics of a backtracking matcher: a pattern maps a
position to the positions it can end at, in the order they are tried, and a match is
the first of them.  Anchors, boundaries and look-around are tests on the text before
and after a position.
-/

namespace LlmWikiServe

/-- A regular expression over characters. -/
inductive Pattern where
  | empty
  | one (accepts : Char → Bool)
  | seq (first second : Pattern)
  | alt (first second : Pattern)
  /-- Repetition that tries more before less. -/
  | star (body : Pattern)
  /-- Repetition that tries less before more. -/
  | lazyStar (body : Pattern)
  | group (index : Nat) (body : Pattern)
  /-- A zero-width test, given the text before (reversed) and after the position. -/
  | guard (test : Text → Text → Bool)

namespace Pattern

/-- A position in a text: what precedes it in reverse, what follows it, and the groups
recorded so far, latest first. -/
structure Cursor where
  before : Text
  after : Text
  groups : List (Nat × Text)

def Cursor.start (text : Text) : Cursor := ⟨[], text, []⟩

/-- The ends of a greedy repetition, which must advance in every round. -/
def repeatGreedy (body : Cursor → List Cursor) : Nat → Cursor → List Cursor
  | 0, cursor => [cursor]
  | rounds + 1, cursor =>
      ((body cursor).filter fun next => next.after.length < cursor.after.length).flatMap
        (repeatGreedy body rounds) ++ [cursor]

/-- The ends of a lazy repetition, which must advance in every round. -/
def repeatLazy (body : Cursor → List Cursor) : Nat → Cursor → List Cursor
  | 0, cursor => [cursor]
  | rounds + 1, cursor =>
      cursor :: ((body cursor).filter fun next =>
        next.after.length < cursor.after.length).flatMap (repeatLazy body rounds)

/-- The positions a pattern can end at, in the order a backtracking matcher tries them. -/
def run : Pattern → Cursor → List Cursor
  | empty, cursor => [cursor]
  | one accepts, cursor =>
      match cursor.after with
      | [] => []
      | char :: rest =>
          if accepts char then [⟨char :: cursor.before, rest, cursor.groups⟩] else []
  | seq first second, cursor => (run first cursor).flatMap (run second)
  | alt first second, cursor => run first cursor ++ run second cursor
  | star body, cursor => repeatGreedy (run body) cursor.after.length cursor
  | lazyStar body, cursor => repeatLazy (run body) cursor.after.length cursor
  | group index body, cursor =>
      (run body cursor).map fun next =>
        { next with
          groups := (index, cursor.after.take (cursor.after.length - next.after.length)) ::
            next.groups }
  | guard test, cursor => if test cursor.before cursor.after then [cursor] else []

/-! ## Derived forms -/

def all (parts : List Pattern) : Pattern := parts.foldr seq empty

/-- The alternatives of a pattern, tried in order. -/
def any : List Pattern → Pattern
  | [] => guard fun _ _ => false
  | [last] => last
  | first :: rest => alt first (any rest)

def char (expected : Char) : Pattern := one fun actual => actual = expected

def text (expected : Text) : Pattern := all (expected.map char)

def plus (body : Pattern) : Pattern := seq body (star body)

def lazyPlus (body : Pattern) : Pattern := seq body (lazyStar body)

def opt (body : Pattern) : Pattern := alt body empty

/-- `body{0,most}`. -/
def upTo (body : Pattern) : Nat → Pattern
  | 0 => empty
  | most + 1 => opt (seq body (upTo body most))

/-- `body{least,most}`. -/
def times (body : Pattern) (least most : Nat) : Pattern :=
  all (List.replicate least body ++ [upTo body (most - least)])

/-- `body{least,}`. -/
def atLeast (body : Pattern) (least : Nat) : Pattern :=
  all (List.replicate least body ++ [star body])

/-- `^` of a multi-line pattern. -/
def lineStart : Pattern := guard fun before _ => before.head?.all (· = '\n')

/-- `$` of a multi-line pattern. -/
def lineEnd : Pattern := guard fun _ after => after.head?.all (· = '\n')

/-- `$` of a pattern that is not multi-line. -/
def textEnd : Pattern := guard fun _ after => after = [] || after = ['\n']

/-- `.` -/
def dot : Pattern := one fun actual => actual ≠ '\n'

/-- `\s` -/
def space : Pattern := one Text.isSpace

/-! ## Matching -/

structure Match where
  /-- The text before the match. -/
  before : Text
  text : Text
  groups : List (Nat × Text)
  /-- The text after the match. -/
  after : Text

/-- The text of a group, `none` when the group did not take part. -/
def Match.group? (found : Match) (index : Nat) : Option Text :=
  (found.groups.find? fun entry => entry.1 = index).map Prod.snd

def matchFrom (pattern : Pattern) (before after : Text) : Option Match :=
  (run pattern ⟨before, after, []⟩).head?.map fun stop =>
    ⟨before.reverse, after.take (after.length - stop.after.length), stop.groups, stop.after⟩

/-- `re.match`. -/
def matchStart (pattern : Pattern) (text : Text) : Option Match := matchFrom pattern [] text

/-- The leftmost non-overlapping matches from a position on, skipping `pending` characters. -/
def findFrom (pattern : Pattern) : Nat → Text → Text → List Match
  | pending + 1, before, char :: rest => findFrom pattern pending (char :: before) rest
  | _ + 1, _, [] => []
  | 0, _, [] => []
  | 0, before, char :: rest =>
      match matchFrom pattern before (char :: rest) with
      | none => findFrom pattern 0 (char :: before) rest
      | some found => found :: findFrom pattern (found.text.length - 1) (char :: before) rest

/-- `re.finditer` of a pattern that matches no empty text. -/
def findAll (pattern : Pattern) (text : Text) : List Match := findFrom pattern 0 [] text

/-- `re.search`. -/
def search (pattern : Pattern) (text : Text) : Option Match := (findAll pattern text).head?

/-- The replacement of every match, skipping `pending` characters of the last one. -/
def subFrom (pattern : Pattern) (replacement : Match → Text) : Nat → Text → Text → Text
  | pending + 1, before, char :: rest =>
      subFrom pattern replacement pending (char :: before) rest
  | _ + 1, _, [] => []
  | 0, _, [] => []
  | 0, before, char :: rest =>
      match matchFrom pattern before (char :: rest) with
      | none => char :: subFrom pattern replacement 0 (char :: before) rest
      | some found =>
          replacement found ++
            subFrom pattern replacement (found.text.length - 1) (char :: before) rest

/-- `re.sub` of a pattern that matches no empty text. -/
def sub (pattern : Pattern) (replacement : Match → Text) (text : Text) : Text :=
  subFrom pattern replacement 0 [] text

/-- The pieces between matches, `piece` being read in reverse. -/
def splitFrom (pattern : Pattern) : Text → Nat → Text → Text → List Text
  | piece, pending + 1, before, char :: rest =>
      splitFrom pattern piece pending (char :: before) rest
  | piece, _, _, [] => [piece.reverse]
  | piece, 0, before, char :: rest =>
      match matchFrom pattern before (char :: rest) with
      | some found =>
          piece.reverse ::
            splitFrom pattern [] (found.text.length - 1) (char :: before) rest
      | none => splitFrom pattern (char :: piece) 0 (char :: before) rest

/-- `re.split` by a pattern that matches no empty text. -/
def split (pattern : Pattern) (text : Text) : List Text := splitFrom pattern [] 0 [] text

/-! ## Character classes -/

/-- `[A-Za-z]` -/
def isLetter (char : Char) : Bool :=
  ('a' ≤ char && char ≤ 'z') || ('A' ≤ char && char ≤ 'Z')

/-- `[0-9]` -/
def isAsciiDigit (char : Char) : Bool := '0' ≤ char && char ≤ '9'

/-- `[가-힣]` -/
def isHangul (char : Char) : Bool := '가' ≤ char && char ≤ '힣'

/-- A character that a case-insensitive pattern for an ASCII lowercase letter accepts. -/
def folds (letter actual : Char) : Bool :=
  actual = letter || actual = letter.toUpper ||
    (letter = 'i' && (actual = 'ı' || actual = 'İ')) || (letter = 's' && actual = 'ſ') ||
    (letter = 'k' && actual = '\u212A')

/-- A text in ASCII lower case, matched without regard to case. -/
def folded (expected : Text) : Pattern :=
  all (expected.map fun letter => one (folds letter))

/-- `[a-z]` of a case-insensitive pattern. -/
def isFoldedLetter (char : Char) : Bool :=
  isLetter char || char = 'ı' || char = 'İ' || char = 'ſ' || char = '\u212A'

end Pattern

end LlmWikiServe
