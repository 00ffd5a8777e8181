import LlmWikiServe.Search

/-!
# Guided retrieval

What a context suggests to an agent that searches on: cards of pages and folders, terms and
exact identifiers, with the checks that keep sensitive text out of them and a budget of
characters; and the channels of a query with variants.
-/

namespace LlmWikiServe

inductive RequestError where
  /-- `LlmWikiUserError`. -/
  | user (message : Text)
  /-- A field of a response model refuses its value. -/
  | validation (field message : Text)
  deriving DecidableEq

/-! ## Response models -/

inductive OrientationSource where
  | authored
  | projectionExtractive
  | none
  deriving DecidableEq

def OrientationSource.text : OrientationSource → Text
  | .authored => "authored"
  | .projectionExtractive => "projection_extractive"
  | .none => "none"

inductive FallbackMode where
  | literal
  | hybrid
  | vector
  deriving DecidableEq

def FallbackMode.text : FallbackMode → Text
  | .literal => "literal"
  | .hybrid => "hybrid"
  | .vector => "vector"

structure FolderCard where
  path : Text
  pageCount : Nat
  terms : List Text

structure PageCard where
  pageId : Text
  title : Text
  path : Text
  headings : List Text
  terms : List Text
  exactIdentifiers : List Text
  excerpt : Text

structure RetrievalGuidance where
  orientationSource : OrientationSource
  folderCards : List FolderCard := []
  pageCards : List PageCard := []
  suggestedTerms : List Text := []
  exactIdentifiers : List Text := []
  fallbackModes : List FallbackMode

def retrievalGuidanceSchemaVersion : Text := "llmwiki.retrieval_guidance.v1"

def contentTrust : Text := "untrusted_source_evidence"

def maxQueryVariants : Nat := 2

def maxLexicalChannels : Nat := 1 + maxQueryVariants

def guidanceCharacterBudget : Nat := 4000

section Validation

variable [Unicode]

omit [Unicode] in
def checkItems {α : Type} (field : Text) (most : Nat) (values : List α) :
    Except RequestError Unit :=
  if values.length ≤ most then .ok ()
  else
    .error (.validation field
      (("List should have at most " : Text) ++ Text.ofNat most ++
        (" items after validation, not " : Text) ++ Text.ofNat values.length))

omit [Unicode] in
def checkCharacters (field : Text) (most : Nat) (value : Text) : Except RequestError Unit :=
  if value = [] then .error (.validation field "String should have at least 1 character")
  else if value.length ≤ most then .ok ()
  else
    .error (.validation field
      (("String should have at most " : Text) ++ Text.ofNat most ++ (" characters" : Text)))

/-- The trimmed values, which must be distinct without regard to case. -/
def trimmedUniqueFrom (fieldName : Text) (maxItemChars : Nat) :
    List Text → List Text → Except RequestError (List Text)
  | _, [] => .ok []
  | seen, value :: rest => do
      let text := Text.strip value
      let refuse := fun message : Text =>
        (Except.error (.validation fieldName (fieldName ++ message)) :
          Except RequestError (List Text))
      if text = [] then refuse " entries must be non-empty strings"
      else if maxItemChars < text.length then
        refuse ((" entries must be at most " : Text) ++ Text.ofNat maxItemChars ++
          (" characters" : Text))
      else if Text.casefold text ∈ seen then refuse " entries must be unique"
      else
        let others ← trimmedUniqueFrom fieldName maxItemChars (Text.casefold text :: seen) rest
        return text :: others

def trimmedUniqueStrings (fieldName : Text) (maxItems maxItemChars : Nat) (values : List Text) :
    Except RequestError (List Text) := do
  checkItems fieldName maxItems values
  trimmedUniqueFrom fieldName maxItemChars [] values

omit [Unicode] in
def trimRequiredText (field : Text) (most : Nat) (value : Text) : Except RequestError Text := do
  checkCharacters field most value
  let text := Text.strip value
  if text = [] then .error (.validation field "field must be a non-empty string") else return text

omit [Unicode] in
/-- A path whose first part is a drive letter. -/
def hasDrive (parts : List Text) : Bool :=
  match parts.head? with
  | some [_, colon] => colon = ':'
  | _ => false

omit [Unicode] in
def safeRelativePath (fieldName value : Text) : Except RequestError Text :=
  let text := Text.strip value
  let refuse := fun message : Text =>
    (Except.error (.validation fieldName (fieldName ++ message)) : Except RequestError Text)
  let parts := Text.splitOn '/' text
  if text = [] then refuse " must be non-empty"
  else if 1024 < text.length then refuse " must be at most 1024 characters"
  else if '\\' ∈ text || Text.startsWith text "/" || Text.contains "://" text then
    refuse " must be a source-relative path using / separators"
  else if parts.any fun part => part = [] || part = (".." : Text) then
    refuse " must not contain empty or .. path segments"
  else if hasDrive parts then refuse " must not be an absolute path"
  else .ok text

def FolderCard.validate (card : FolderCard) : Except RequestError FolderCard := do
  let path ← safeRelativePath "path" card.path
  let terms ← trimmedUniqueStrings "terms" 8 120 card.terms
  return { card with path, terms }

def PageCard.validate (card : PageCard) : Except RequestError PageCard := do
  let pageId ← trimRequiredText "page_id" 512 card.pageId
  let title ← trimRequiredText "title" 240 card.title
  let path ← safeRelativePath "path" card.path
  let headings ← trimmedUniqueStrings "headings" 8 160 card.headings
  let terms ← trimmedUniqueStrings "terms" 12 120 card.terms
  let exactIdentifiers ← trimmedUniqueStrings "exact_identifiers" 8 240 card.exactIdentifiers
  let excerpt ← trimRequiredText "excerpt" 240 card.excerpt
  return { pageId, title, path, headings, terms, exactIdentifiers, excerpt }

omit [Unicode] in
def fallbackModeOrder : List FallbackMode := [.literal, .hybrid, .vector]

omit [Unicode] in
def validateFallbackModes (modes : List FallbackMode) : Except RequestError (List FallbackMode) :=
  if !decide modes.Nodup then
    .error (.validation "fallback_modes" "fallback_modes entries must be unique")
  else if modes ≠ fallbackModeOrder.filter (· ∈ modes) then
    .error (.validation "fallback_modes"
      "fallback_modes must be ordered as literal, hybrid, vector")
  else .ok modes

def RetrievalGuidance.validate (guidance : RetrievalGuidance) :
    Except RequestError RetrievalGuidance := do
  checkItems "folder_cards" 8 guidance.folderCards
  checkItems "page_cards" 12 guidance.pageCards
  let suggestedTerms ← trimmedUniqueStrings "suggested_terms" 16 120 guidance.suggestedTerms
  let exactIdentifiers ← trimmedUniqueStrings "exact_identifiers" 16 240 guidance.exactIdentifiers
  let fallbackModes ← validateFallbackModes guidance.fallbackModes
  return { guidance with suggestedTerms, exactIdentifiers, fallbackModes }

end Validation

/-! ## JSON of a guidance -/

def jsonEscape (char : Char) : Text :=
  if char = '"' then ['\\', '"']
  else if char = '\\' then ['\\', '\\']
  else if char = '\n' then ['\\', 'n']
  else if char = '\r' then ['\\', 'r']
  else if char = '\t' then ['\\', 't']
  else if char.toNat = 8 then ['\\', 'b']
  else if char.toNat = 12 then ['\\', 'f']
  else if char.toNat < 32 then
    ("\\u00" : Text) ++ [Nat.digitChar (char.toNat / 16), Nat.digitChar (char.toNat % 16)]
  else [char]

def jsonString (text : Text) : Text := '"' :: text.flatMap jsonEscape ++ ['"']

def jsonArray (items : List Text) : Text := '[' :: Text.join "," items ++ [']']

def jsonObject (fields : List (Text × Text)) : Text :=
  '\x7b' :: Text.join "," (fields.map fun field => jsonString field.1 ++ ':' :: field.2) ++
    ['\x7d']

def jsonStrings (texts : List Text) : Text := jsonArray (texts.map jsonString)

def FolderCard.json (card : FolderCard) : Text :=
  jsonObject
    [("path", jsonString card.path), ("page_count", Text.ofNat card.pageCount),
      ("terms", jsonStrings card.terms)]

def PageCard.json (card : PageCard) : Text :=
  jsonObject
    [("page_id", jsonString card.pageId), ("title", jsonString card.title),
      ("path", jsonString card.path), ("headings", jsonStrings card.headings),
      ("terms", jsonStrings card.terms),
      ("exact_identifiers", jsonStrings card.exactIdentifiers),
      ("excerpt", jsonString card.excerpt)]

/-- `guidance.model_dump_json()` -/
def RetrievalGuidance.jsonFor (characterBudget : Nat) (guidance : RetrievalGuidance) : Text :=
  jsonObject
    [("schema_version", jsonString retrievalGuidanceSchemaVersion),
      ("orientation_source", jsonString guidance.orientationSource.text),
      ("content_trust", jsonString contentTrust),
      ("max_query_variants", Text.ofNat maxQueryVariants),
      ("character_budget", Text.ofNat characterBudget),
      ("folder_cards", jsonArray (guidance.folderCards.map FolderCard.json)),
      ("page_cards", jsonArray (guidance.pageCards.map PageCard.json)),
      ("suggested_terms", jsonStrings guidance.suggestedTerms),
      ("exact_identifiers", jsonStrings guidance.exactIdentifiers),
      ("fallback_modes", jsonStrings (guidance.fallbackModes.map FallbackMode.text))]

def RetrievalGuidance.json (guidance : RetrievalGuidance) : Text :=
  guidance.jsonFor guidanceCharacterBudget

/-- Remove the last item of the first list that has any. -/
def RetrievalGuidance.trimOnce (guidance : RetrievalGuidance) : Option RetrievalGuidance :=
  if guidance.pageCards ≠ [] then
    some { guidance with pageCards := guidance.pageCards.dropLast }
  else if guidance.folderCards ≠ [] then
    some { guidance with folderCards := guidance.folderCards.dropLast }
  else if guidance.suggestedTerms ≠ [] then
    some { guidance with suggestedTerms := guidance.suggestedTerms.dropLast }
  else if guidance.exactIdentifiers ≠ [] then
    some { guidance with exactIdentifiers := guidance.exactIdentifiers.dropLast }
  else none

/-- The items that trimming can remove. -/
def RetrievalGuidance.size (guidance : RetrievalGuidance) : Nat :=
  guidance.pageCards.length + guidance.folderCards.length + guidance.suggestedTerms.length +
    guidance.exactIdentifiers.length

theorem RetrievalGuidance.size_trimOnce {guidance trimmed : RetrievalGuidance}
    (step : guidance.trimOnce = some trimmed) : trimmed.size < guidance.size := by
  have shorter : ∀ {α : Type} {values : List α}, values ≠ [] →
      values.dropLast.length < values.length := by
    intro α values nonempty
    have positive := List.length_pos_of_ne_nil nonempty
    rw [List.length_dropLast]
    omega
  unfold trimOnce at step
  split_ifs at step with cards folders terms identifiers <;>
    obtain rfl := Option.some.inj step
  · have less := shorter cards
    simp only [size]
    omega
  · have less := shorter folders
    simp only [size]
    omega
  · have less := shorter terms
    simp only [size]
    omega
  · have less := shorter identifiers
    simp only [size]
    omega

/-- Trim until the dump fits the declared budget or nothing is left to remove. -/
def trimGuidanceFor (characterBudget : Nat) (guidance : RetrievalGuidance) : RetrievalGuidance :=
  if (guidance.jsonFor characterBudget).length ≤ characterBudget then guidance
  else
    match _step : guidance.trimOnce with
    | none => guidance
    | some trimmed => trimGuidanceFor characterBudget trimmed
termination_by guidance.size
decreasing_by exact RetrievalGuidance.size_trimOnce _step

def trimGuidanceToBudget (guidance : RetrievalGuidance) : RetrievalGuidance :=
  trimGuidanceFor guidanceCharacterBudget guidance

/-! ## Clean and safe text -/

section Cleaning

variable [Unicode]

/-- `\b` -/
def wordBoundary : Pattern :=
  .guard fun before after =>
    before.head?.any Text.isWord != after.head?.any Text.isWord

/-- `[^\W\d_][\w-]{1,119}` -/
def termPattern : Pattern :=
  .seq (.one fun char => Unicode.alphanumeric char && !Unicode.decimal char && char ≠ '_')
    (Pattern.times (.one fun char => Text.isWord char || char = '-') 1 119)

/-- The five alternatives of `_EXACT_IDENTIFIER_RE`. -/
def exactIdentifierPattern : Pattern :=
  let word := Pattern.one Text.isWord
  let wordOrDash := Pattern.one fun char => Text.isWord char || char = '-'
  let start := Pattern.one fun char => Pattern.isLetter char || char = '_'
  let capital := Pattern.one fun char => 'A' ≤ char && char ≤ 'Z'
  let digits := Pattern.plus (.one Unicode.decimal)
  let mixed := Pattern.plus (.one fun char => Text.isWord char || Pattern.isHangul char)
  let separator := Pattern.one fun char => char ∈ ("./:@#-" : Text)
  Pattern.any
    [Pattern.all [start, .star word, Pattern.plus (Pattern.all [separator, word, .star wordOrDash])],
      Pattern.all [start, .star word, capital, .star word],
      Pattern.all [Pattern.atLeast capital 2, Pattern.char '-', digits],
      Pattern.all
        [Pattern.opt (Pattern.char 'v'), digits, Pattern.plus (.seq (Pattern.char '.') digits),
          Pattern.opt (.seq (.one (· ∈ ("-+" : Text)))
            (Pattern.plus (.one fun char => Text.isWord char || char ∈ (".-" : Text))))],
      .seq mixed (Pattern.plus (.seq (.one (· ∈ ("-_/.:" : Text))) mixed))]

omit [Unicode] in
/-- `!?\[([^\]]+)\]\([^)]+\)` -/
def markdownLinkPattern : Pattern :=
  Pattern.all
    [Pattern.opt (Pattern.char '!'), Pattern.char '[', .group 1 (Pattern.plus (.one (· ≠ ']'))),
      Pattern.text "](", Pattern.plus (.one (· ≠ ')')), Pattern.char ')']

omit [Unicode] in
/-- `\[\[([^\]|]+)(?:\|([^\]]+))?\]\]` -/
def aliasedWikilinkPattern : Pattern :=
  Pattern.all
    [Pattern.text "[[", .group 1 (Pattern.plus (.one fun char => char ≠ ']' && char ≠ '|')),
      Pattern.opt (.seq (Pattern.char '|') (.group 2 (Pattern.plus (.one (· ≠ ']'))))),
      Pattern.text "]]"]

omit [Unicode] in
/-- `<[^>]+>` -/
def htmlTagPattern : Pattern :=
  Pattern.all [Pattern.char '<', Pattern.plus (.one (· ≠ '>')), Pattern.char '>']

omit [Unicode] in
/-- `first[separators]?second` without regard to case. -/
def compoundWord (first second : Text) : Pattern :=
  Pattern.all
    [Pattern.folded first, Pattern.opt (.one (· ∈ ("_-" : Text))), Pattern.folded second]

/-- `key: value` of a credential. -/
def credentialPattern : Pattern :=
  let names := Pattern.any
    [Pattern.folded "authorization", Pattern.folded "password", Pattern.folded "passwd",
      Pattern.folded "secret", compoundWord "api" "key", compoundWord "access" "token",
      Pattern.folded "bearer", Pattern.folded "credential", Pattern.folded "cookie",
      compoundWord "session" "id", compoundWord "client" "secret", compoundWord "private" "key"]
  Pattern.all
    [wordBoundary, names, Pattern.opt (Pattern.folded "s"), wordBoundary, .star Pattern.space,
      .one (· ∈ (":=" : Text))]

/-- `Bearer`, provider tokens and access keys. -/
def tokenPatterns : List Pattern :=
  let letterOrDigit := fun char => Pattern.isFoldedLetter char || Pattern.isAsciiDigit char
  let mark := fun char : Char => char = '_' || char = '-'
  [Pattern.all
      [wordBoundary, Pattern.folded "bearer", Pattern.plus Pattern.space,
        Pattern.atLeast (.one fun char => letterOrDigit char || char = '.' || mark char) 12],
    Pattern.all
      [wordBoundary,
        Pattern.any
          [Pattern.folded "sk", Pattern.folded "sk-proj", Pattern.folded "ghp",
            Pattern.folded "gho", Pattern.folded "github_pat",
            .seq (Pattern.folded "xox")
              (Pattern.any (("baprs" : Text).map fun letter => .one (Pattern.folds letter)))],
        .one mark, Pattern.atLeast (.one fun char => letterOrDigit char || mark char) 12],
    Pattern.all
      [wordBoundary, Pattern.folded "akia", Pattern.times (.one letterOrDigit) 16 16,
        wordBoundary]]

omit [Unicode] in
/-- A digit between two. -/
def digitFrom (least most : Char) : Pattern := .one fun char => least ≤ char && char ≤ most

/-- The private hosts of `_SENSITIVE_TEXT_RE`. -/
def privateHostPattern : Pattern :=
  let decimal := Pattern.one Unicode.decimal
  let block (start : Text) : Pattern :=
    Pattern.all
      [Pattern.char '[', Pattern.folded start,
        Pattern.plus (.one fun char =>
          Pattern.isAsciiDigit char || ('a' ≤ char && char ≤ 'f') || ('A' ≤ char && char ≤ 'F') ||
            char = ':'),
        Pattern.char ']']
  Pattern.any
    [Pattern.folded "localhost", Pattern.text "127.0.0.1", Pattern.text "0.0.0.0",
      Pattern.text "10.", Pattern.text "192.168.", Pattern.text "169.254.",
      Pattern.all
        [Pattern.text "100.",
          Pattern.any
            [.seq (Pattern.char '6') (digitFrom '4' '9'), .seq (digitFrom '7' '9') decimal,
              Pattern.all [Pattern.char '1', digitFrom '0' '1', decimal],
              .seq (Pattern.text "12") (digitFrom '0' '7')],
          Pattern.char '.'],
      Pattern.all
        [Pattern.text "172.",
          Pattern.any
            [.seq (Pattern.char '1') (digitFrom '6' '9'), .seq (Pattern.char '2') decimal,
              .seq (Pattern.char '3') (digitFrom '0' '1')],
          Pattern.char '.'],
      Pattern.text "[::1]", block "fc", block "fd"]

/-- URLs of local services, with credentials and of private hosts, and bare private hosts. -/
def locationPatterns : List Pattern :=
  let http := Pattern.all
    [Pattern.folded "http", Pattern.opt (Pattern.folded "s"), Pattern.text "://"]
  let hostChar := Pattern.one fun char =>
    Pattern.isFoldedLetter char || Pattern.isAsciiDigit char || char = '-'
  let hostCharOrDot := Pattern.one fun char =>
    Pattern.isFoldedLetter char || Pattern.isAsciiDigit char || char = '.' || char = '-'
  [Pattern.all
      [wordBoundary, Pattern.any [Pattern.folded "redis", Pattern.folded "file"],
        Pattern.text "://"],
    Pattern.all
      [http, .star (.one fun char => !Text.isSpace char && char ≠ '/'), Pattern.char '@'],
    .seq http privateHostPattern,
    Pattern.all
      [wordBoundary,
        Pattern.any
          [Pattern.folded "localhost",
            .seq (Pattern.plus (.seq (Pattern.plus hostChar) (Pattern.char '.')))
              (Pattern.any
                [Pattern.folded "local", Pattern.folded "internal", Pattern.folded "corp",
                  Pattern.folded "lan"]),
            Pattern.all
              [Pattern.any
                [Pattern.folded "internal", Pattern.folded "intranet", Pattern.folded "private",
                  Pattern.folded "vpn"],
                .one (· ∈ (".-" : Text)), Pattern.plus hostCharOrDot]],
        wordBoundary]]

omit [Unicode] in
/-- Absolute paths of Windows and of home, root and temporary directories. -/
def absolutePathPatterns : List Pattern :=
  let rest := Pattern.plus (.one fun char => !Text.isSpace char && char ≠ ')')
  [Pattern.all
      [.one Pattern.isFoldedLetter, Pattern.char ':', .one fun char => char = '\\' || char = '/',
        rest],
    Pattern.all
      [Pattern.char '/',
        Pattern.any
          [Pattern.folded "users", Pattern.folded "home", Pattern.folded "root",
            Pattern.folded "var", Pattern.folded "tmp"],
        Pattern.char '/', rest]]

def sensitiveTextPattern : Pattern :=
  Pattern.any
    (credentialPattern :: tokenPatterns ++ locationPatterns ++ absolutePathPatterns)

omit [Unicode] in
def sensitiveStandaloneTerms : List Text :=
  ["authorization", "bearer", "client_secret", "credential", "credentials", "cookie", "password",
    "passwd", "private", "private_key", "secret", "session", "session_id", "token"]

omit [Unicode] in
def boilerplatePrefixes : List Text :=
  ["table of contents", "toc", "navigation", "breadcrumbs", "copyright", "license"]

omit [Unicode] in
def commonTerms : List Text :=
  ["about", "after", "also", "and", "are", "before", "between", "from", "for", "into", "markdown",
    "note", "notes", "page", "pages", "that", "the", "this", "wiki", "with"]

def sensitiveText (text : Text) : Bool :=
  let candidate := Text.strip text
  candidate ≠ [] &&
    (decide (Text.replaceChar '-' '_' (Text.casefold candidate) ∈ sensitiveStandaloneTerms) ||
      (Pattern.search sensitiveTextPattern candidate).isSome)

omit [Unicode] in
def cleanInline (text : Text) (maxChars : Nat) : Text :=
  let cleaned := Text.join " " (Text.split (Text.replaceChar '\x00' ' ' text))
  if cleaned.length ≤ maxChars then cleaned
  else if maxChars ≤ 3 then cleaned.take maxChars
  else Text.rstrip (cleaned.take (maxChars - 3)) ++ ("..." : Text)

/-- The values that are safe and not seen before, `maxItems` of them at most. -/
def uniquePreservingFrom (maxChars : Nat) : Nat → List Text → List Text → List Text
  | _, _, [] => []
  | 0, _, _ => []
  | room + 1, seen, value :: rest =>
      let text := cleanInline value maxChars
      let key := Text.casefold (Unicode.normalizeNfc text)
      if text = [] || sensitiveText text || key ∈ seen then
        uniquePreservingFrom maxChars (room + 1) seen rest
      else text :: uniquePreservingFrom maxChars room (key :: seen) rest

def uniquePreservingOrder (values : List Text) (maxItems maxChars : Nat) : List Text :=
  uniquePreservingFrom maxChars maxItems [] values

def termsFromText (text : Text) : List Text :=
  if sensitiveText text then []
  else
    let terms := (Pattern.findAll termPattern text).map fun found => cleanInline found.text 120
    uniquePreservingOrder
      (terms.filter fun term =>
        2 ≤ term.length && Text.casefold term ∉ commonTerms && !sensitiveText term) 32 120

def exactIdentifiersFromText (text : Text) : List Text :=
  let found := (Pattern.findAll exactIdentifierPattern text).map Pattern.Match.text
  uniquePreservingOrder (found.filter fun identifier => !sensitiveText identifier) 32 240

omit [Unicode] in
/-- The characters `str.splitlines` splits at. -/
def isLineBreak (char : Char) : Bool :=
  let code := char.toNat
  (10 ≤ code && code ≤ 13) || (28 ≤ code && code ≤ 30) || code = 0x85 || code = 0x2028 ||
    code = 0x2029

omit [Unicode] in
/-- The lines of a text after the characters of `line`, read in reverse. -/
def splitlinesFrom : Text → Text → List Text
  | line, [] => if line = [] then [] else [line.reverse]
  | line, '\r' :: '\n' :: rest => line.reverse :: splitlinesFrom [] rest
  | line, char :: rest =>
      if isLineBreak char then line.reverse :: splitlinesFrom [] rest
      else splitlinesFrom (char :: line) rest

omit [Unicode] in
/-- `text.splitlines()` -/
def splitlines (text : Text) : List Text := splitlinesFrom [] text

omit [Unicode] in
/-- The prose of some lines, without headings' and lists' marks, tables and fenced blocks. -/
def proseLines : Bool → List Text → List Text
  | _, [] => []
  | inFence, rawLine :: rest =>
      let line := Text.strip rawLine
      if Text.startsWith line "\x60\x60\x60" || Text.startsWith line "~~~" then
        proseLines (!inFence) rest
      else if inFence then proseLines inFence rest
      else
        let line := Text.strip (Text.lstripBy (· = '#') line)
        let line := Text.strip (Text.lstripBy (· ∈ ("-*0123456789. " : Text)) line)
        if line ≠ [] && !Text.startsWith line "|" then line :: proseLines inFence rest
        else proseLines inFence rest

omit [Unicode] in
def cleanMarkdownInline (text : Text) (maxChars : Nat) : Text :=
  let unlinked := Pattern.sub markdownLinkPattern (fun found => (found.group? 1).getD []) text
  let plain := Pattern.sub aliasedWikilinkPattern
    (fun found => ((found.group? 2).or (found.group? 1)).getD []) unlinked
  let untagged := Pattern.sub htmlTagPattern (fun _ => [' ']) plain
  cleanInline (Text.join " " (proseLines false (splitlines untagged))) maxChars

def boilerplateText (text : Text) : Bool :=
  text.length < 16 || boilerplatePrefixes.any fun start => Text.startsWith (Text.casefold text) start

omit [Unicode] in
/-- The parts between blank lines. -/
def paragraphs (text : Text) : List Text :=
  let blankLine := Pattern.all [Pattern.char '\n', .star Pattern.space, Pattern.char '\n']
  (Pattern.split blankLine text).filter fun part => Text.strip part ≠ []

/-- The first clean paragraph, the summary coming first, that may be quoted. -/
def safeExcerpt (page : WikiPage) : Text :=
  (((page.summary :: paragraphs page.text).map fun candidate =>
    cleanMarkdownInline candidate 240).find? fun text =>
      text ≠ [] && !boilerplateText text && !sensitiveText text).getD []

def safeProjectedPath (path : Text) : Option Text :=
  let text := Text.replaceChar '\\' '/' (Text.strip path)
  let parts := Text.splitOn '/' text
  if text = [] || 1024 < text.length || sensitiveText text then none
  else if text.any fun char => char.toNat < 32 then none
  else if Text.startsWith text "/" || Text.contains "://" text then none
  else if parts.any fun part => part ∈ [([] : Text), ".", ".."] then none
  else if hasDrive parts then none
  else if parts.any fun part =>
      Text.replaceChar '-' '_' (Text.casefold (Text.beforeLast '.' part)) ∈
        sensitiveStandaloneTerms then none
  else some text

def parentFolder (path : Text) : Option Text :=
  (safeProjectedPath path).map fun safe =>
    if '/' ∈ safe then (if Text.beforeLast '/' safe = [] then "." else Text.beforeLast '/' safe)
    else "."

end Cleaning

/-! ## Cards -/

section Cards

variable [Unicode]

omit [Unicode] in
def isAuthoredOrientationPage (page : WikiPage) : Bool :=
  page.role ∈ [PageRole.hot, .index, .overview]

def authoredOrientationPages (pages : List WikiPage) (includeDrafts : Bool) : List WikiPage :=
  (sortBy orientationLe (visiblePages pages includeDrafts)).filter isAuthoredOrientationPage

def pageTermsForGuidance (page : WikiPage) : List Text :=
  uniquePreservingOrder
    (termsFromText page.title ++ page.headings.flatMap termsFromText ++
      page.tags.flatMap termsFromText) 12 120

def pageExactIdentifiers (page : WikiPage) (excerpt : Text) : List Text :=
  let candidates := (safeProjectedPath page.path).toList ++ page.sourceRefs ++ page.tags ++
    exactIdentifiersFromText (Text.join " " (page.title :: page.headings ++ [excerpt]))
  uniquePreservingOrder candidates 8 240

def pageCard (page : WikiPage) : Except RequestError (Option PageCard) :=
  match safeProjectedPath page.path with
  | none => .ok none
  | some path =>
      let excerpt := safeExcerpt page
      let pageId := cleanInline page.id 512
      let title := cleanInline (if page.title = [] then page.id else page.title) 240
      if excerpt = [] then .ok none
      else if pageId = [] || sensitiveText pageId then .ok none
      else if title = [] || sensitiveText title then .ok none
      else
        (PageCard.validate
          { pageId, title, path
            headings := uniquePreservingOrder page.headings 8 160
            terms := (pageTermsForGuidance page).take 12
            exactIdentifiers := (pageExactIdentifiers page excerpt).take 8
            excerpt }).map some

/-- The terms of a folder's pages by frequency, each in its first spelling. -/
def folderTerms (pages : List WikiPage) : List Text :=
  let counts := Keyed.group Text.casefold (pages.flatMap pageTermsForGuidance)
  let le := fun first second : Text × List Text =>
    if first.2.length = second.2.length then decide (first.1 ≤ second.1)
    else second.2.length < first.2.length
  (sortBy le counts).filterMap fun count => count.2.head?

/-- The number of distinct texts of a list among others. -/
def overlap (texts queryTerms : List Text) : Nat := (texts.dedup.filter (· ∈ queryTerms)).length

/-- Order by overlap with the query, page count and path. -/
def folderCardLe (queryTerms : List Text) (first second : FolderCard) : Bool :=
  let firstOverlap := overlap first.terms queryTerms
  let secondOverlap := overlap second.terms queryTerms
  if firstOverlap = secondOverlap then
    if first.pageCount = second.pageCount then decide (first.path ≤ second.path)
    else second.pageCount < first.pageCount
  else secondOverlap < firstOverlap

def folderCardsFromPages (pages : List WikiPage) (query : Text) :
    Except RequestError (List FolderCard) := do
  let placed := pages.filterMap fun page =>
    (parentFolder page.path).map fun folder => (folder, page)
  let cards ← (Keyed.group Prod.fst placed).mapM fun folder =>
    FolderCard.validate
      { path := folder.1
        pageCount := folder.2.length
        terms := (folderTerms (folder.2.map Prod.snd)).take 8 }
  return sortBy (folderCardLe (termsFromText query)) cards

/-- Order by overlap with the query, role and path. -/
def extractiveLe (queryTerms : List Text) (first second : WikiPage) : Bool :=
  let firstOverlap := overlap (pageTermsForGuidance first) queryTerms
  let secondOverlap := overlap (pageTermsForGuidance second) queryTerms
  if firstOverlap = secondOverlap then orientationLe first second
  else secondOverlap < firstOverlap

def projectionExtractivePages (pages : List WikiPage) (query : Text) : List WikiPage :=
  (sortBy (extractiveLe (termsFromText query)) pages).take 24

omit [Unicode] in
def availableFallbackModes (modes : List FallbackMode) : List FallbackMode :=
  fallbackModeOrder.filter (· ∈ modes)

def guidanceFromPages (pages : List WikiPage) (query : Text)
    (orientationSource : OrientationSource) (fallbackModes : List FallbackMode)
    (folderSourcePages : List WikiPage) : Except RequestError RetrievalGuidance := do
  let cards ← pages.mapM pageCard
  let pageCards := (cards.filterMap id).take 12
  let folderCards := (← folderCardsFromPages folderSourcePages query).take 8
  RetrievalGuidance.validate
    { orientationSource, folderCards, pageCards
      suggestedTerms := uniquePreservingOrder
        (termsFromText query ++ pageCards.flatMap PageCard.terms ++
          folderCards.flatMap FolderCard.terms) 16 120
      exactIdentifiers := uniquePreservingOrder
        (pageCards.flatMap PageCard.exactIdentifiers ++ pageCards.map PageCard.path) 16 240
      fallbackModes := availableFallbackModes fallbackModes }

def RetrievalGuidance.isEmpty (guidance : RetrievalGuidance) : Bool :=
  guidance.pageCards.isEmpty && guidance.folderCards.isEmpty && guidance.suggestedTerms.isEmpty

def emptyGuidance (fallbackModes : List FallbackMode) : Except RequestError RetrievalGuidance :=
  RetrievalGuidance.validate
    { orientationSource := .none, fallbackModes := availableFallbackModes fallbackModes }

/-- The guidance of a context, from the authored hub pages or else from all visible pages of a
plain Markdown root. -/
def buildRetrievalGuidance (adapter : Text) (pages : List WikiPage) (query : Text)
    (includeDrafts : Bool) (fallbackModes : List FallbackMode) :
    Except RequestError RetrievalGuidance := do
  let visible := visiblePages pages includeDrafts
  let authored := authoredOrientationPages pages includeDrafts
  if authored ≠ [] then
    let guidance ← guidanceFromPages authored query .authored fallbackModes authored
    return trimGuidanceToBudget guidance
  else if adapter = ("generic-markdown" : Text) ∧ visible ≠ [] then
    let selected := projectionExtractivePages visible query
    let guidance ← guidanceFromPages selected query .projectionExtractive fallbackModes visible
    if guidance.isEmpty then emptyGuidance fallbackModes
    else return trimGuidanceToBudget guidance
  else emptyGuidance fallbackModes

theorem buildRetrievalGuidance_visible (adapter : Text) (pages : List WikiPage) (query : Text)
    (fallbackModes : List FallbackMode) :
    buildRetrievalGuidance adapter pages query false fallbackModes =
      buildRetrievalGuidance adapter (visiblePages pages false) query true fallbackModes := rfl

end Cards

/-! ## Query variants -/

section Variants

variable [Unicode]

omit [Unicode] in
def variantText : Value → Except RequestError Text
  | .str item =>
      if Text.strip item = [] then
        .error (.user "query_variants entries must be non-empty strings")
      else .ok (Text.strip item)
  | _ => .error (.user "query_variants entries must be strings")

omit [Unicode] in
def validateQueryVariants : Value → Except RequestError (List Text)
  | .none => .ok []
  | .sequence .list items => checkVariants items
  | .sequence .tuple items => checkVariants items
  | _ => .error (.user "query_variants must be an array of up to 2 strings")
where
  checkVariants (items : List Value) : Except RequestError (List Text) :=
    if maxQueryVariants < items.length then
      .error (.user "query_variants accepts at most 2 supplied variants")
    else items.mapM variantText

/-- The queries of a request: its own, or with variants those that differ from each other. -/
def effectiveLexicalQueryChannels (query : Text) (queryVariants : Value) (mode : SearchMode) :
    Except RequestError (List Text) := do
  let variants ← validateQueryVariants queryVariants
  if variants = [] then return [query]
  else if mode ≠ .lexical then
    .error (.user "query_variants is supported only with mode=lexical")
  else if Text.strip query = [] then
    .error (.user "query is required when query_variants are supplied")
  else
    let channels := Keyed.firstWins (fun candidate => Text.casefold (Unicode.normalizeNfc candidate))
      (Text.strip query :: variants)
    return channels.take maxLexicalChannels

end Variants

end LlmWikiServe
