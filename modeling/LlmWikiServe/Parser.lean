import LlmWikiServe.Foundation.Pattern
import LlmWikiServe.FileTree
import LlmWikiServe.Models

/-!
# Pages from Markdown files

The reader of one Markdown or Org file: frontmatter, title, identifier, links, tags,
headings and summary.  The YAML and JSON readers are parameters.
-/

namespace LlmWikiServe

/-- Why a document could not be read. -/
inductive DocumentError where
  /-- `yaml.YAMLError` or `json.JSONDecodeError`. -/
  | syntax_
  /-- Any other exception, such as the `ValueError` of an impossible date. -/
  | raised (message : Text)

/-- The document readers: `yaml.safe_load` and `json.loads`. -/
class Documents where
  safeLoad : Text → Except DocumentError Value
  jsonLoads : Text → Except DocumentError Value

/-- A reader of blocks of lines `key: text`, a fragment of YAML; it takes no JSON. -/
@[reducible]
def Documents.lines : Documents where
  safeLoad block :=
    .ok (.dict ((Text.splitOn '\n' block).filterMap fun line =>
      if ':' ∈ line then
        some (.str (Text.beforeFirst ':' line),
          .str (Text.strip ((line.dropWhile (· ≠ ':')).drop 1)))
      else none))
  jsonLoads _ := .error .syntax_

structure WikiRootError where
  message : Text
  code : Text
  safeMessage : Text
  statusCode : Nat
  deriving DecidableEq

/-- What loading a root can raise. -/
inductive LoadError where
  | wikiRoot (error : WikiRootError)
  /-- `UnicodeDecodeError`, with the bytes that are no UTF-8. -/
  | decode (octets : List UInt8)
  /-- An exception of a document reader. -/
  | document (message : Text)
  /-- The model refuses a mapping with other than string keys. -/
  | validation (entries : List (Value × Value))
  /-- `OkfV02ValidationError`. -/
  | okf (message : Text)
  /-- A value is iterated that cannot be. -/
  | notIterable (value : Value)

/-- A computation that succeeds does so step by step. -/
theorem bind_eq_ok {ε α β : Type} {first : Except ε α} {rest : α → Except ε β} {result : β} :
    (first >>= rest) = .ok result ↔ ∃ value, first = .ok value ∧ rest value = .ok result := by
  cases first with
  | error error => simp [bind, Except.bind]
  | ok value => simp [bind, Except.bind]

/-- Every result of a traversal that succeeds comes from one of its inputs. -/
theorem mem_of_mapM_ok {α β : Type} {action : α → Except LoadError β} {inputs : List α}
    {outputs : List β} (succeeded : inputs.mapM action = .ok outputs) {output : β}
    (outputIn : output ∈ outputs) : ∃ input ∈ inputs, action input = .ok output := by
  induction inputs generalizing outputs with
  | nil =>
      obtain rfl : [] = outputs := Except.ok.inj succeeded
      exact absurd outputIn List.not_mem_nil
  | cons head tail inductionHypothesis =>
      rw [List.mapM_cons, bind_eq_ok] at succeeded
      obtain ⟨first, headDone, succeeded⟩ := succeeded
      rw [bind_eq_ok] at succeeded
      obtain ⟨others, tailDone, succeeded⟩ := succeeded
      obtain rfl : first :: others = outputs := Except.ok.inj succeeded
      rcases List.mem_cons.mp outputIn with rfl | later
      · exact ⟨head, List.mem_cons_self, headDone⟩
      · obtain ⟨input, inputIn, done⟩ := inductionHypothesis tailDone later
        exact ⟨input, List.mem_cons_of_mem head inputIn, done⟩

/-- `path.read_text(encoding="utf-8")` of a file with this content. -/
def Content.readText : Content → Except LoadError Text
  | .text decoded => .ok (Text.universalNewlines decoded)
  | .binary octets => .error (.decode octets)

/-- A mapping a model field takes, which has string keys. -/
def stringKeys (entries : List (Value × Value)) : Except LoadError Metadata :=
  match stringKeys? entries with
  | some metadata => .ok metadata
  | none => .error (.validation entries)

theorem stringKeys_eq_ok {entries : List (Value × Value)} {metadata : Metadata} :
    stringKeys entries = .ok metadata ↔ stringKeys? entries = some metadata := by
  unfold stringKeys
  split
  next found => simp [found]
  next missing => simp [missing]

inductive WikilinkAliasMode where
  | targetFirst
  | targetLast
  deriving DecidableEq

/-! ## Text helpers -/

section Helpers

variable [Unicode]

def cleanText (value : Text) : Text := Text.join " " (Text.split value)

/-- `value.endswith(".md") or value.endswith(".org")` -/
def hasPageEnding (value : Text) : Bool :=
  Text.endsWith value ".md" || Text.endsWith value ".org"

def cleanId (value : Text) : Text :=
  let value := Text.replaceChar '\\' '/' (Text.strip value)
  if hasPageEnding value then Text.beforeLast '.' value else value

/-- The values not seen before, compared without regard to case. -/
def uniqueFrom (seen : List Text) : List Text → List Text
  | [] => []
  | value :: rest =>
      let key := Text.lower value
      if key = [] ∨ key ∈ seen then uniqueFrom seen rest
      else value :: uniqueFrom (key :: seen) rest

def unique (values : List Text) : List Text := uniqueFrom [] values

omit [Unicode] in
def cleanTexts (values : List Text) : List Text := (values.map cleanText).filter (· ≠ [])

def stringList [Interpreter] (value : Value) : List Text :=
  match value with
  | .str text => unique (cleanTexts [text])
  | .sequence .list items => unique (cleanTexts (items.map Value.toText))
  | _ => []

end Helpers

/-! ## Patterns -/

/-- `\[\[([^\]]+)\]\]` -/
def wikilinkPattern : Pattern :=
  Pattern.all
    [Pattern.text "[[", .group 1 (Pattern.plus (.one (· ≠ ']'))), Pattern.text "]]"]

/-- `\[[^\]]+\]\(([^)]+?\.(?:md|org))(?:#[^)]+)?\)` -/
def mdLinkPattern : Pattern :=
  let target := Pattern.all
    [Pattern.lazyPlus (.one (· ≠ ')')), Pattern.char '.',
      Pattern.any [Pattern.text "md", Pattern.text "org"]]
  Pattern.all
    [Pattern.char '[', Pattern.plus (.one (· ≠ ']')), Pattern.text "](", .group 1 target,
      Pattern.opt (.seq (Pattern.char '#') (Pattern.plus (.one (· ≠ ')')))), Pattern.char ')']

/-- `^(#{1,6})\s+(.+?)\s*$` -/
def headingPattern : Pattern :=
  Pattern.all
    [Pattern.lineStart, .group 1 (Pattern.times (Pattern.char '#') 1 6),
      Pattern.plus Pattern.space, .group 2 (Pattern.lazyPlus Pattern.dot),
      .star Pattern.space, Pattern.lineEnd]

/-- `^#{1,6}\s+` -/
def headingMarkPattern : Pattern :=
  Pattern.all
    [Pattern.lineStart, Pattern.times (Pattern.char '#') 1 6, Pattern.plus Pattern.space]

/-- `[A-Za-z0-9가-힣]` -/
def isTagStart (char : Char) : Bool :=
  Pattern.isLetter char || Pattern.isAsciiDigit char || Pattern.isHangul char

/-- A tag may go on with `_`, `.`, `-` and a slash. -/
def isTagChar (char : Char) : Bool :=
  isTagStart char || char = '_' || char = '.' || char = '/' || char = '-'

/-- `(?<![\w/])#(` tag start, tag characters `)` -/
def inlineTagPattern [Unicode] : Pattern :=
  Pattern.all
    [.guard fun before _ => before.head?.all fun char => !(Text.isWord char || char = '/'),
      Pattern.char '#', .group 1 (.seq (.one isTagStart) (.star (.one isTagChar)))]

/-- `(?im)^\s*tags::\s*(.+?)\s*$` -/
def logseqTagsPattern : Pattern :=
  Pattern.all
    [Pattern.lineStart, .star Pattern.space, Pattern.folded "tags", Pattern.text "::",
      .star Pattern.space, .group 1 (Pattern.lazyPlus Pattern.dot), .star Pattern.space,
      Pattern.lineEnd]

/-- `match.group(index)` of a group that takes part in every match. -/
def Pattern.Match.groupText (found : Pattern.Match) (index : Nat) : Text :=
  (found.group? index).getD []

/-! ## Parts of a page -/

def firstHeading (text : Text) : Text :=
  match Pattern.search headingPattern text with
  | some found => cleanText (found.groupText 2)
  | none => []

def headingTexts (body : Text) : List Text :=
  (Pattern.findAll headingPattern body).map fun found => cleanText (found.groupText 2)

def titleFromPath (path : RelPath) (decodeNamespaceTitle : Bool) : Text :=
  let stem := RelPath.stem path.name
  let decoded := if decodeNamespaceTitle then Text.replace "___" "/" stem else stem
  Text.replaceChar '-' ' ' decoded

def summaryLimit : Nat := 360

def summaryText (text : Text) : Text :=
  let cleaned := cleanText (Pattern.sub headingMarkPattern (fun _ => []) text)
  if cleaned.length ≤ summaryLimit then cleaned
  else Text.rstrip (cleaned.take (summaryLimit - 1)) ++ ("..." : Text)

def markdownLinkTarget (value : Text) : Text :=
  let target := Text.replaceChar '\\' '/' (Text.strip (Text.beforeFirst '#' value))
  let stem := if hasPageEnding target then Text.beforeLast '.' target else target
  Text.removePrefix stem "./"

/-- The target of `[[target|alias]]`, or of `[[alias|target]]` in Dendron. -/
def wikilinkTarget (wikilinkAlias : WikilinkAliasMode) (value : Text) : Text :=
  let target :=
    if wikilinkAlias = .targetLast ∧ '|' ∈ value then (value.dropWhile (· ≠ '|')).tail
    else Text.beforeFirst '|' value
  markdownLinkTarget target

section Parts

variable [Unicode]

def extractLinks (wikilinkAlias : WikilinkAliasMode) (text : Text) : List Text :=
  let wikilinks := (Pattern.findAll wikilinkPattern text).map fun found =>
    wikilinkTarget wikilinkAlias (found.groupText 1)
  let mdLinks := (Pattern.findAll mdLinkPattern text).map fun found =>
    markdownLinkTarget (found.groupText 1)
  unique ((wikilinks ++ mdLinks).filter (· ≠ []))

def validInlineTag (value : Text) : Bool := value.any Unicode.alphabetic

def extractInlineTags (text : Text) : List Text :=
  let inlineTags := (Pattern.findAll inlineTagPattern text).map fun found =>
    Text.stripBy (· ∈ (".,;:!?" : Text)) (found.groupText 1)
  let logseqTags := (Pattern.findAll logseqTagsPattern text).flatMap fun found =>
    (Text.split (Text.replaceChar ',' ' ' (found.groupText 1))).map (Text.stripBy (· = '#'))
  unique (cleanTexts
    ((inlineTags.filter validInlineTag ++ logseqTags).map (Text.stripBy (· = '#'))))

def hubRole (name : Text) : Option PageRole :=
  let name := Text.lower name
  if name = ("hot.md" : Text) then some .hot
  else if name ∈ [("index.md" : Text), ("quickstart.md" : Text)] then some .index
  else if name = ("overview.md" : Text) then some .overview
  else none

/-- The role of the page at a path; `hubRoots` are paths like it. -/
def pageRole (hubRoots : List RelPath) (path : RelPath) : PageRole :=
  match hubRole path.name with
  | none => .topic
  | some role => if path.dropLast = [] ∨ path.dropLast ∈ hubRoots then role else .topic

/-! ## Frontmatter -/

/-- The mapping between the frontmatter marks, and the body.  Without marks, or with a block
that is no YAML, the whole text is the body. -/
def splitFrontmatter [Documents] (raw : Text) :
    Except LoadError (List (Value × Value) × Text) :=
  if !Text.startsWith raw "---\n" then .ok ([], raw)
  else
    match Text.find? "\n---" (raw.drop 4) with
    | none => .ok ([], raw)
    | some stop =>
        let block := (raw.drop 4).take stop
        let body := raw.drop (4 + stop + 4)
        match Documents.safeLoad block with
        | .error .syntax_ => .ok ([], raw)
        | .error (.raised message) => .error (.document message)
        | .ok (.dict entries) => .ok (entries, body)
        | .ok _ => .ok ([], body)

variable [Interpreter]

/-- `clean_text(str(frontmatter.get(first) or frontmatter.get(second) or ""))` -/
def cleanField (frontmatter : Metadata) (first second : Text) : Text :=
  cleanText
    (((frontmatter.getD first).orElse (frontmatter.getD second)).orElse (.str [])).toText

def reviewStates : List (Text × ReviewState) :=
  [("approved", .approved), ("reviewed", .reviewed), ("verified", .verified), ("draft", .draft),
    ("proposed", .proposed), ("needs_review", .needsReview)]

def normalizeReviewState (frontmatter : Metadata) : ReviewState :=
  let value := Text.lower (cleanField frontmatter "review_state" "state")
  (Keyed.get? reviewStates value).getD .unknown

/-! ## The page -/

/-- How an adapter has its pages read. -/
structure PageOptions where
  wikilinkAlias : WikilinkAliasMode := .targetFirst
  decodeNamespaceTitle : Bool := false
  hubRoots : List RelPath := []

/-- The page of a file given by the string keys of its frontmatter and its body. -/
def markdownPage (options : PageOptions) (path : RelPath) (frontmatter : Metadata)
    (body : Text) : WikiPage :=
  let rel := RelPath.asPosix path
  let fallbackTitle := Value.orElse (.str (firstHeading body))
    (.str (titleFromPath path options.decodeNamespaceTitle))
  let named := Value.orElse (frontmatter.getD "id") (frontmatter.getD "object_id")
  { id := cleanId (named.orElse (.str rel)).toText
    title := cleanText ((frontmatter.getD "title").orElse fallbackTitle).toText
    path := rel
    role := pageRole options.hubRoots path
    text := Text.strip body
    summary := summaryText body
    frontmatter := frontmatter
    reviewState := normalizeReviewState frontmatter
    status := cleanText ((frontmatter.getD "status").orElse (.str [])).toText
    sourceRefs :=
      stringList ((frontmatter.getD "source_refs").orElse (frontmatter.getD "sources"))
    tags := unique (stringList (frontmatter.getD "tags") ++ extractInlineTags body)
    links := extractLinks options.wikilinkAlias body
    headings := (headingTexts body).take 40
    updatedAt := cleanField frontmatter "updated_at" "last_updated" }

def parsePage [Documents] (options : PageOptions) (path : RelPath) (content : Content) :
    Except LoadError WikiPage := do
  let raw ← content.readText
  let (entries, body) ← splitFrontmatter raw
  let frontmatter ← stringKeys entries
  return { markdownPage options path (textKeys entries) body with frontmatter := frontmatter }

end Parts

end LlmWikiServe
