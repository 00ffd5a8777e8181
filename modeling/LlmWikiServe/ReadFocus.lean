import LlmWikiServe.PageParagraphs
import LlmWikiServe.Search

/-!
# Focused reads

A page is split at its headings into numbered sections.  A focused read returns the sections that
are asked for by number or by name, or that a query scores high, within a budget of characters;
a plain read cuts the text at the budget and tells which sections did not fit.
-/

namespace LlmWikiServe

open VectorChunks (keptLines)

class Compatibility [Unicode] where
  /-- `unicodedata.normalize("NFKC", text)`. -/
  normalizeNfkc : Text → Text
  normalizeNfkc_ascii : ∀ text, (∀ char ∈ text, char.toNat < 128) → normalizeNfkc text = text
  normalizeNfkc_nonempty : ∀ text, text ≠ [] → normalizeNfkc text ≠ []
  decimal_digit : ∀ char, char.isDigit = true → Unicode.decimal char = true

/-- The logarithm of the interpreter. -/
class Scores where
  /-- `math.log` -/
  log : ℚ → ℚ

def focusedReadDefaultMaxChars : Nat := 8000

def focusedQueryMaxSections : Nat := 6

def focusedQueryRelativeThreshold : ℚ := 35 / 100

def focusedQueryMinScore : ℚ := 1

def minUnitWeight : ℚ := 1 / 10

def headingWeight : ℚ := 3

def bodyRepeatBonus : ℚ := 1 / 4

def bodyRepeatCap : Nat := 4

def preambleIndex : Text := "0"

def preambleHeading : Text := "(preamble)"

/-- `[ \t]` -/
def inlineBlank : Pattern := .one fun char => char = ' ' || char = '\t'

/-- `^(#{1,6})[ \t]+(.+?)[ \t]*#*[ \t]*$` -/
def sectionHeadingPattern : Pattern :=
  .all
    [.group 1 (.times (.char '#') 1 6), .plus inlineBlank, .group 2 (.lazyPlus .dot),
      .star inlineBlank, .star (.char '#'), .star inlineBlank, .textEnd]

/-- `^[ \t]*(```|~~~)` -/
def fencePattern : Pattern :=
  .seq (.star inlineBlank) (.group 1 (.any [.text "\x60\x60\x60", .text "~~~"]))

/-! ## Sections -/

structure MarkdownSection where
  index : Text
  level : Nat
  heading : Text
  path : List Text
  text : Text
  deriving DecidableEq

def MarkdownSection.isDescendantOf (self other : MarkdownSection) : Bool :=
  other.index ≠ preambleIndex && Text.startsWith self.index (other.index ++ ".")

def MarkdownSection.outlineLabel (self : MarkdownSection) : Text :=
  self.index ++ ' ' :: self.heading ++ " (" ++ Text.ofNat self.text.length ++ ")"

structure Head where
  start : Nat
  level : Nat
  heading : Text

def headingOf? (line : Text) : Option (Nat × Text) :=
  (Pattern.matchStart sectionHeadingPattern
      (Text.rstripBy (fun char => char = '\r' || char = '\n') line)).map fun found =>
    (((found.group? 1).getD []).length, Text.strip ((found.group? 2).getD []))

def isFenceLine (line : Text) : Bool := (Pattern.matchStart fencePattern line).isSome

def headsFrom (offset : Nat) (inFence : Bool) : List Text → List Head
  | [] => []
  | line :: rest =>
      if isFenceLine line then headsFrom (offset + line.length) (!inFence) rest
      else if inFence then headsFrom (offset + line.length) inFence rest
      else
        match headingOf? line with
        | some (level, heading) =>
            ⟨offset, level, heading⟩ :: headsFrom (offset + line.length) inFence rest
        | none => headsFrom (offset + line.length) inFence rest

/-- A heading that sections may still come below. -/
structure OpenSection where
  level : Nat
  index : Text
  heading : Text

/-- The sections of the headings, given the open ones, innermost first, and how many each number
has below it. -/
def sectionsFrom (text : Text) (stack : List OpenSection) (childCounts : List (Text × Nat)) :
    List Head → List MarkdownSection
  | [] => []
  | head :: rest =>
      let stop := (rest.head?.map Head.start).getD text.length
      let stack := stack.dropWhile fun opened => head.level ≤ opened.level
      let parentIndex := (stack.head?.map OpenSection.index).getD []
      let count := (Keyed.get? childCounts parentIndex).getD 0 + 1
      let index :=
        if parentIndex = [] then Text.ofNat count else parentIndex ++ '.' :: Text.ofNat count
      ⟨index, head.level, head.heading, stack.reverse.map OpenSection.heading ++ [head.heading],
          (text.take stop).drop head.start⟩ ::
        sectionsFrom text (⟨head.level, index, head.heading⟩ :: stack)
          (Keyed.set childCounts parentIndex count) rest

/-- Where the first heading starts, the end of the text without one. -/
def firstStart (text : Text) : Nat :=
  ((headsFrom 0 false (keptLines text)).head?.map Head.start).getD text.length

/-- What comes before the first heading, unless it is blank. -/
def preambleSection (text : Text) : List MarkdownSection :=
  if Text.strip (text.take (firstStart text)) = [] then []
  else [⟨preambleIndex, 0, preambleHeading, [], text.take (firstStart text)⟩]

/-- Split Markdown into heading-delimited sections with hierarchical numbers. -/
def splitMarkdownSections (text : Text) : List MarkdownSection :=
  preambleSection text ++ sectionsFrom text [] [] (headsFrom 0 false (keptLines text))

/-! ## Scores of a query -/

section Queries

variable [Unicode] [Compatibility]

def normalizeText (value : Text) : Text := Text.casefold (Compatibility.normalizeNfkc value)

def koreanParticles : List Text :=
  (["에서는", "으로는", "에서", "으로", "에게", "까지", "부터", "처럼", "보다", "이란", "라는", "이다",
      "입니다", "은", "는", "이", "가", "을", "를", "의", "에", "로", "와", "과", "도", "만",
      "란"] : List Text).mergeSort fun first second => second.length ≤ first.length

omit [Unicode] [Compatibility] in
def stripKoreanParticle (token : Text) : Text :=
  if !token.any Pattern.isHangul then token
  else
    match koreanParticles.find? fun particle =>
        Text.endsWith token particle && 2 ≤ token.length - particle.length with
    | some particle => token.take (token.length - particle.length)
    | none => token

/-- `re.findall(r"\w+", text)` -/
def wordTokens (text : Text) : List Text :=
  (Pattern.findAll (.plus (.one Text.isWord)) text).map Pattern.Match.text

def queryTerms (query : Text) : List Text :=
  ((wordTokens (normalizeText query)).map stripKoreanParticle).foldl
    (fun terms term => if 2 ≤ term.length && term ∉ terms then terms ++ [term] else terms) []

omit [Unicode] [Compatibility] in
/-- The set of the two-letter parts of long Korean terms, and of the other terms. -/
def termBigrams (terms : List Text) : List Text :=
  (terms.flatMap fun term =>
    if term.any Pattern.isHangul && 2 < term.length then
      (List.range (term.length - 1)).map fun position => Text.slice position 2 term
    else [term]).dedup

def textBigrams (text : Text) : List Text := termBigrams (wordTokens text)

/-- `" ".join(section.path)` -/
def headingText (entry : MarkdownSection) : Text := Text.join " " entry.path

variable [Scores]

omit [Unicode] [Compatibility] [Scores] in
/-- `text.count(term)` of a term that is not empty. -/
def timesIn (text term : Text) : Nat := (Pattern.findAll (.text term) text).length

omit [Unicode] [Compatibility] in
/-- The weight of what stands in this many of the sections. -/
def unitWeight (total containing : Nat) : ℚ :=
  max (Scores.log ((total + 1 : ℚ) / (containing + 1))) minUnitWeight

/-- Inverse section frequency within the page. -/
def unitWeights (sections : List MarkdownSection) (terms bigrams : List Text) :
    List (Text × ℚ) :=
  let texts := sections.map fun entry => normalizeText (headingText entry ++ '\n' :: entry.text)
  let grams := texts.map textBigrams
  let weighted := terms.foldl (fun weights term =>
    Keyed.set weights term
      (unitWeight sections.length (texts.countP fun text => Text.contains term text))) []
  bigrams.foldl (fun weights gram =>
    Keyed.setDefault weights gram
      (unitWeight sections.length (grams.countP fun found => gram ∈ found))) weighted

omit [Scores] in
def scoreSection (entry : MarkdownSection) (terms bigrams : List Text)
    (weights : List (Text × ℚ)) : ℚ :=
  let heading := normalizeText (headingText entry)
  let body := normalizeText entry.text
  let weightOf (unit : Text) : ℚ := (Keyed.get? weights unit).getD 1
  let termScore (term : Text) : ℚ :=
    let count := timesIn body term
    (if Text.contains term heading then headingWeight * weightOf term else 0) +
      (if count = 0 then 0
        else weightOf term * (1 + bodyRepeatBonus * (min (count - 1) bodyRepeatCap : Nat)))
  let gramScore (gram : Text) : ℚ :=
    weightOf gram / bigrams.length *
      ((if gram ∈ textBigrams heading then headingWeight / 2 else 0) +
        (if gram ∈ textBigrams body then 1 else 0))
  roundRat 3 ((terms.map termScore).sum + (bigrams.map gramScore).sum)

def sectionScores (sections : List MarkdownSection) (query : Text) : List (Text × ℚ) :=
  let terms := queryTerms query
  let bigrams := termBigrams terms
  let weights := unitWeights sections terms bigrams
  sections.map fun entry => (entry.index, scoreSection entry terms bigrams weights)

/-! ## Requested sections -/

/-- `\d+(?:\.\d+)*` -/
def sectionNumberPattern : Pattern :=
  let digits := Pattern.plus (.one Unicode.decimal)
  .all [digits, .star (.seq (.char '.') digits), .guard fun _ after => after = []]

omit [Compatibility] [Scores] in
def isSectionNumber (wanted : Text) : Bool :=
  (Pattern.matchStart sectionNumberPattern wanted).isSome

omit [Scores] in
/-- What a request asks for. -/
def wantedOf (spec : Text) : Text :=
  normalizeText (Text.strip (Text.lstripBy (· = '#') (Text.strip spec)))

omit [Scores] in
/-- The sections a request names: by number, by the whole heading, or by a part of it. -/
def requestedRoots (sections : List MarkdownSection) (wanted : Text) : List MarkdownSection :=
  if isSectionNumber wanted then sections.filter fun entry => entry.index = wanted
  else
    let exact := sections.filter fun entry => normalizeText entry.heading = wanted
    if exact = [] then
      sections.filter fun entry => Text.contains wanted (normalizeText entry.heading)
    else exact

omit [Unicode] [Compatibility] [Scores] in
def chooseBelow (sections chosen : List MarkdownSection) (root : MarkdownSection) :
    List MarkdownSection :=
  sections.foldl (fun chosen entry =>
    if (entry = root || entry.isDescendantOf root) && entry ∉ chosen then chosen ++ [entry]
    else chosen) chosen

omit [Scores] in
/-- Resolve section numbers or heading names, exact and then as a part, with what is below. -/
def matchRequestedSections (sections : List MarkdownSection) (requested : List Text) :
    List MarkdownSection × List Text :=
  requested.foldl (fun state spec =>
    let wanted := wantedOf spec
    if wanted = [] then state
    else
      let roots := requestedRoots sections wanted
      if roots = [] then (state.1, state.2 ++ [spec])
      else (roots.foldl (chooseBelow sections) state.1, state.2)) ([], [])

end Queries

/-! ## Budgets -/

/-- `text.rfind("\n")` -/
def lastNewline? (text : Text) : Option Nat :=
  (text.reverse.findIdx? (· = '\n')).map fun fromEnd => text.length - 1 - fromEnd

/-- The text cut at the budget, at the end of a line where one is near. -/
def clipText (text : Text) (budget : Nat) : Text :=
  if text.length ≤ budget then text
  else
    let clipped := text.take budget
    match lastNewline? clipped with
    | some lineBreak => if 3 * budget ≤ 5 * lineBreak then clipped.take (lineBreak + 1) else clipped
    | none => clipped

/-- What is included so far, what remains, and the characters used. -/
structure Filling where
  included : List (Text × Text) := []
  remaining : List MarkdownSection := []
  used : Nat := 0

def Filling.add (budget : Nat) (filling : Filling) (entry : MarkdownSection) : Filling :=
  if filling.used + entry.text.length ≤ budget then
    { filling with
      included := Keyed.set filling.included entry.index entry.text
      used := filling.used + entry.text.length }
  else if filling.included = [] then
    { filling with
      included := Keyed.set filling.included entry.index (clipText entry.text budget)
      used := filling.used + (clipText entry.text budget).length }
  else { filling with remaining := filling.remaining ++ [entry] }

/-- Pick sections in rank order until the budget is used; the first is clipped if it must be. -/
def fillBudget (ranked : List MarkdownSection) (budget : Nat) : Filling :=
  ranked.foldl (Filling.add budget) {}

/-! ## Payloads -/

section Payloads

variable [Unicode] [Compatibility] [Scores]

structure FocusedSelection where
  chosen : List MarkdownSection
  matched : Bool
  unmatched : List Text
  scores : List (Text × ℚ)

def queryCandidates (sections chosen : List MarkdownSection) (scores : List (Text × ℚ)) :
    List MarkdownSection :=
  let top := ((scores.map Prod.snd).max?).getD 0
  let threshold := max (top * focusedQueryRelativeThreshold) focusedQueryMinScore
  let scoreOf (entry : MarkdownSection) : ℚ := (Keyed.get? scores entry.index).getD 0
  let candidates := sections.filter fun entry =>
    threshold ≤ scoreOf entry && entry ∉ chosen
  (candidates.mergeSort fun first second => scoreOf second ≤ scoreOf first).take
    focusedQueryMaxSections

def selectSections (sections : List MarkdownSection) (query : Text) (requested : List Text) :
    FocusedSelection :=
  let (named, unmatched) := matchRequestedSections sections requested
  let scores := if query = [] then [] else sectionScores sections query
  let candidates := if query = [] then [] else queryCandidates sections named scores
  let chosen := named ++ candidates
  { chosen := if chosen = [] then sections.take 1 else chosen
    matched := chosen ≠ []
    unmatched
    scores }

structure SelectedSection where
  index : Text
  heading : Text
  chars : Nat
  score : Option ℚ
  deriving DecidableEq

/-- The payload of a focused read.  Fields that a read may leave out are optional. -/
structure FocusedRead where
  /-- The fields taken over from the page. -/
  copied : Metadata
  updatedAt : Value
  tags : Value
  readMode : Text := "focused"
  query : Option Text
  requestedSections : Option (List Text)
  matched : Bool
  outline : List Text
  selectedSections : List SelectedSection
  text : Text
  totalChars : Nat
  returnedChars : Nat
  maxChars : Nat
  truncated : Bool
  remainingSections : List Text
  unmatchedSections : Option (List Text)
  links : Option Value

omit [Unicode] [Compatibility] [Scores] in
def orderedSections (sections : List MarkdownSection) (included : List (Text × Text)) :
    List (MarkdownSection × Text) :=
  sections.filterMap fun entry =>
    (Keyed.get? included entry.index).map fun kept => (entry, kept)

variable [Interpreter]

omit [Unicode] [Compatibility] [Scores] in
/-- `str(page.get("text") or "")` -/
def readText (page : Metadata) : Text :=
  (((Keyed.get? page "text").getD .none).orElse (.str [])).toText

def focusedReadPayload (page : Metadata) (query : Option Text) (requested : Option (List Text))
    (maxChars : Option Nat) (includeLinks : Option Bool) : FocusedRead :=
  let text := readText page
  let budget := maxChars.getD focusedReadDefaultMaxChars
  let sections := splitMarkdownSections text
  let queryText := Text.strip (query.getD [])
  let asked := requested.getD []
  let selection := selectSections sections queryText asked
  let filling := fillBudget selection.chosen budget
  let clipped := selection.chosen.any fun entry =>
    (Keyed.get? filling.included entry.index).any fun kept => kept.length < entry.text.length
  let ordered := orderedSections sections filling.included
  let body := (ordered.map Prod.snd).flatten
  { copied :=
      (["id", "title", "path", "role", "summary", "review_state", "status"] :
        List Text).filterMap fun key => (Keyed.get? page key).map fun value => (key, value)
    updatedAt := (Keyed.get? page "updated_at").getD (.str [])
    tags := (Keyed.get? page "tags").getD (.list [])
    query := if queryText = [] then none else some queryText
    requestedSections := if asked = [] then none else some asked
    matched := selection.matched
    outline := sections.map MarkdownSection.outlineLabel
    selectedSections := ordered.map fun entry =>
      ⟨entry.1.index, entry.1.heading, entry.2.length,
        Keyed.get? selection.scores entry.1.index⟩
    text := body
    totalChars := text.length
    returnedChars := body.length
    maxChars := budget
    truncated := filling.remaining ≠ [] || clipped
    remainingSections := filling.remaining.map MarkdownSection.outlineLabel
    unmatchedSections := if selection.unmatched = [] then none else some selection.unmatched
    links := if includeLinks = some true then some ((Keyed.get? page "links").getD (.list []))
      else none }

omit [Unicode] [Compatibility] [Scores] [Interpreter] in
/-- The sections, given in reverse, that end beyond what is kept of the text, from their end. -/
def sectionsBeyond (kept : Nat) : Nat → List MarkdownSection → List MarkdownSection
  | _, [] => []
  | stop, entry :: before =>
      let remaining := sectionsBeyond kept (stop - entry.text.length) before
      if kept < stop then entry :: remaining else remaining

omit [Unicode] [Compatibility] [Scores] in
def plainReadPayload (page : Metadata) (maxChars : Option Nat) (includeLinks : Option Bool) :
    Metadata :=
  let payload :=
    if includeLinks = some false then page.filter fun entry => entry.1 ≠ ("links" : Text) else page
  let text := readText payload
  match maxChars with
  | none => payload
  | some maxChars =>
      if text.length ≤ maxChars then payload
      else
        let clipped := clipText text maxChars
        let remaining :=
          (sectionsBeyond clipped.length text.length (splitMarkdownSections text).reverse).map
            MarkdownSection.outlineLabel
        let payload := Keyed.set payload "text" (.str clipped)
        let payload := Keyed.set payload "truncated" (.bool true)
        let payload := Keyed.set payload "total_chars" (.int text.length)
        let payload := Keyed.set payload "returned_chars" (.int clipped.length)
        Keyed.set payload "remaining_sections" (.list (remaining.reverse.map .str))

end Payloads

end LlmWikiServe
