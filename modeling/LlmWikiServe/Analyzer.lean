import LlmWikiServe.Foundation.Pattern

/-!
# Analyzers

The token streams search works on: the legacy tokenizer, the English one with its
stemmer as a parameter, and the exact compound tokens such as `v1.2-rc` that the English
profile indexes as a whole.
-/

namespace LlmWikiServe

inductive AnalyzerProfile where
  | legacy
  | english
  deriving DecidableEq

/-- The `snowballstemmer` package. -/
class Stemming where
  stemWord : Text → Text

/-- A stemmer that leaves words alone. -/
@[reducible]
def Stemming.identity : Stemming where
  stemWord word := word

def isAsciiAlnum (char : Char) : Bool := Pattern.isLetter char || Pattern.isAsciiDigit char

def isExactBoundaryWordChar (char : Char) : Bool := isAsciiAlnum char || Pattern.isHangul char

/-- `[A-Za-z0-9][A-Za-z0-9_.-]*(?:[가-힣]+)?|[가-힣]+` -/
def tokenPattern : Pattern :=
  let hangul := Pattern.plus (.one Pattern.isHangul)
  let wordChar := Pattern.one fun char => isAsciiAlnum char || char ∈ ("_.-" : Text)
  .alt (Pattern.all [.one isAsciiAlnum, .star wordChar, Pattern.opt hangul]) hangul

/-- `^([A-Za-z0-9]+)([가-힣]+)$` -/
def asciiHangulParts (token : Text) : Option (Text × Text) :=
  let front := token.takeWhile isAsciiAlnum
  let back := token.dropWhile isAsciiAlnum
  if front ≠ [] ∧ back ≠ [] ∧ back.all Pattern.isHangul then some (front, back) else none

/-- `^[가-힣]+$` -/
def isHangulToken (token : Text) : Bool := token ≠ [] && token.all Pattern.isHangul

/-- The pairs of adjacent characters. -/
def bigrams (token : Text) : List Text :=
  (List.range (token.length - 1)).map fun index => Text.slice index 2 token

section Tokenizers

variable [Unicode]

def legacyTokens (raw : Text) : List Text :=
  let token := Text.lower raw
  match asciiHangulParts token with
  | some (front, back) => [token, front, back]
  | none =>
      if isHangulToken token && 2 < token.length then token :: bigrams token else [token]

def tokenizeLegacy (text : Text) : List Text :=
  (Pattern.findAll tokenPattern text).flatMap fun found => legacyTokens found.text

def luceneEnglishStopwords : List Text :=
  ["a", "an", "and", "are", "as", "at", "be", "but", "by", "for", "if", "in", "into", "is", "it",
    "no", "not", "of", "on", "or", "such", "that", "the", "their", "then", "there", "these", "they",
    "this", "to", "was", "will", "with"]

def englishApostrophes : List Char := ['\'', '’']

omit [Unicode] in
/-- The raw tokens of a text, `fuel` bounding its length. -/
def scanEnglishFrom : Nat → Text → List Text
  | 0, _ => []
  | _, [] => []
  | fuel + 1, char :: rest =>
      let text := char :: rest
      if isAsciiAlnum char then
        let word := text.takeWhile isAsciiAlnum
        match text.dropWhile isAsciiAlnum with
        | [] => [word]
        | next :: after =>
            if Pattern.isHangul next then
              (word ++ (next :: after).takeWhile Pattern.isHangul) ::
                scanEnglishFrom fuel ((next :: after).dropWhile Pattern.isHangul)
            else if next ∈ englishApostrophes then
              -- The case of the possessive is the authored one.
              if after.head? = some 's' then
                (word ++ [next, 's']) :: scanEnglishFrom fuel after.tail
              else (word ++ [next]) :: scanEnglishFrom fuel after
            else word :: scanEnglishFrom fuel (next :: after)
      else if Pattern.isHangul char then
        text.takeWhile Pattern.isHangul :: scanEnglishFrom fuel (text.dropWhile Pattern.isHangul)
      else scanEnglishFrom fuel rest

def normalizeEnglishPossessive (token : Text) : Text :=
  let normalized := Text.casefold token
  if Text.endsWith normalized "'s" || Text.endsWith normalized "’s" then
    normalized.dropLast.dropLast
  else if Text.endsWith normalized "'" || Text.endsWith normalized "’" then normalized.dropLast
  else normalized

/-- `text.isdigit()` -/
def isDigitText (text : Text) : Bool := text ≠ [] && text.all Unicode.digit

variable [Stemming]

def englishAnalyzedToken (token : Text) : Text :=
  let normalized := normalizeEnglishPossessive token
  if normalized = [] ∨ normalized ∈ luceneEnglishStopwords then []
  else if isDigitText normalized then normalized
  else Stemming.stemWord normalized

def englishTokens (raw : Text) : List Text :=
  let token := Text.lower raw
  match asciiHangulParts token with
  | some (front, back) => [token, front, back]
  | none =>
      if isHangulToken token then
        token :: if 2 < token.length then bigrams token else []
      else [englishAnalyzedToken token].filter (· ≠ [])

def tokenizeEnglish (text : Text) : List Text :=
  (scanEnglishFrom text.length text).flatMap englishTokens

def tokenize : AnalyzerProfile → Text → List Text
  | .english, text => tokenizeEnglish text
  | .legacy, text => tokenizeLegacy text

/-- The values without repetitions, in order of first occurrence. -/
def uniqueTokens (tokens : List Text) : List Text := tokens.reverse.dedup.reverse

end Tokenizers

/-! ## Exact compounds -/

section Compounds

variable [Unicode]

def exactCompoundSeparators : List Char := ['.', '_', '-']

/-- The end of the run of accepted characters from a position on. -/
def consume (accepts : Char → Bool) (text : Text) (start : Nat) : Nat :=
  start + ((text.drop start).takeWhile accepts).length

/-- The character at a position passes a test. -/
def charAt (test : Char → Bool) (text : Text) (index : Nat) : Bool := text[index]?.any test

structure CompoundScan where
  cursor : Nat
  separatorGroups : Nat := 0
  lastValidEnd : Option Nat := none
  rejectCursor : Nat

/-- Read the separated groups of a compound. -/
def scanCompound (text : Text) : Nat → CompoundScan → CompoundScan
  | 0, scan => scan
  | fuel + 1, scan =>
      let next := scan.cursor + 1
      if charAt (· ∈ exactCompoundSeparators) text scan.cursor && charAt isAsciiAlnum text next then
        let cursor := consume isAsciiAlnum text next
        let hangulEnd := consume Pattern.isHangul text cursor
        scanCompound text fuel
          { cursor := cursor
            separatorGroups := scan.separatorGroups + 1
            lastValidEnd :=
              if charAt isExactBoundaryWordChar text hangulEnd then scan.lastValidEnd
              else some hangulEnd
            rejectCursor := hangulEnd }
      else scan

/-- The spans of the exact compounds from a position on, with their folded tokens. -/
def exactCompoundSpansFrom (text : Text) : Nat → Nat → List (Nat × Nat × Text)
  | 0, _ => []
  | fuel + 1, index =>
      if text.length ≤ index then []
      else if !charAt isAsciiAlnum text index ||
          (0 < index && charAt isExactBoundaryWordChar text (index - 1)) then
        exactCompoundSpansFrom text fuel (index + 1)
      else
        let start := consume isAsciiAlnum text index
        let scan := scanCompound text text.length { cursor := start, rejectCursor := start }
        if scan.separatorGroups = 0 then exactCompoundSpansFrom text fuel scan.cursor
        else
          match scan.lastValidEnd with
          | none =>
              if charAt isExactBoundaryWordChar text scan.rejectCursor then
                exactCompoundSpansFrom text fuel
                  (consume isExactBoundaryWordChar text scan.rejectCursor)
              else exactCompoundSpansFrom text fuel (max scan.rejectCursor (index + 1))
          | some stop =>
              (index, stop, Text.casefold (Text.slice index (stop - index) text)) ::
                exactCompoundSpansFrom text fuel stop

def exactCompoundTokenSpans (text : Text) : List (Nat × Nat × Text) :=
  exactCompoundSpansFrom text (text.length + 1) 0

def exactCompoundTokens (profile : AnalyzerProfile) (text : Text) : List Text :=
  match profile with
  | .english => uniqueTokens ((exactCompoundTokenSpans text).map fun span => span.2.2)
  | .legacy => []

def singleCompoundRemainderChars : Text := "\"'\x60“”‘’()[]\x7b\x7d.,;:!?"

def singleExactCompoundQueryToken (profile : AnalyzerProfile) (query : Text) : Text :=
  match profile, exactCompoundTokenSpans query with
  | .english, [(start, stop, token)] =>
      let remainder := Text.strip (query.take start ++ query.drop stop)
      if Text.strip (Text.stripBy (· ∈ singleCompoundRemainderChars) remainder) = [] then token
      else []
  | _, _ => []

end Compounds

end LlmWikiServe
