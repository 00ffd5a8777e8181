import LlmWikiServe.Foundation.Json
import LlmWikiServe.Foundation.Backtracking
import LlmWikiServe.Foundation.Spans
import LlmWikiServe.Guidance
import LlmWikiServe.Signature

/-!
# Chunks of a page

The text of a page is read line by line into paragraphs under a breadcrumb of headings,
and a paragraph is cut into segments at its words; every segment is embedded behind the
title and the breadcrumb.
-/

namespace LlmWikiServe.VectorChunks

open Text (WordMatch squeeze slice)

/-! ## Lines -/

/-- The lines of a text with their ends, after the characters of `line`, read in reverse. -/
def keptLinesFrom : Text → Text → List Text
  | line, [] => if line = [] then [] else [line.reverse]
  | line, '\r' :: '\n' :: rest => ('\n' :: '\r' :: line).reverse :: keptLinesFrom [] rest
  | line, char :: rest =>
      if isLineBreak char then (char :: line).reverse :: keptLinesFrom [] rest
      else keptLinesFrom (char :: line) rest

/-- `text.splitlines(keepends=True)` -/
def keptLines (text : Text) : List Text := keptLinesFrom [] text

/-- `VECTOR_TEXT_SCHEMA_ID` -/
def textSchemaId : Text := "llmwiki-vector-text-v1"

/-- `MAX_CHUNK_CHARS` -/
def maxChunkChars : Nat := 1200

/-- `TARGET_CHUNK_TERMS` -/
def targetChunkTerms : Nat := 180

def normalizedPageText (text : Text) : Text :=
  Text.replaceChar '\r' '\n' (Text.replace "\r\n" "\n" text)

structure Heading where
  level : Nat
  label : Text

/-- `^(#{1,6})\s+(.+?)\s*#*\s*$` -/
def headingPattern : Pattern :=
  .all
    [.guard fun before _ => before = [], .group 1 (.times (.char '#') 1 6), .plus .space,
      .group 2 (.lazyPlus .dot), .star .space, .star (.char '#'), .star .space, .textEnd]

def heading? (line : Text) : Option Heading :=
  (Pattern.matchStart headingPattern (Text.strip line)).map fun found =>
    { level := ((found.group? 1).getD []).length
      label := squeeze ((found.group? 2).getD []) }

/-! ## Paragraphs -/

structure Paragraph where
  text : Text
  start : Nat
  end_ : Nat
  breadcrumb : List Text

/-- The variables of the loop over the lines. -/
structure LineScan where
  paragraphs : List Paragraph := []
  breadcrumb : List Text := []
  paragraphStart : Option Nat := none
  paragraphEnd : Nat := 0
  offset : Nat := 0

def flushParagraph (text : Text) (scan : LineScan) : List Paragraph :=
  match scan.paragraphStart with
  | none => scan.paragraphs
  | some start =>
      if scan.paragraphEnd ≤ start then scan.paragraphs
      else
        let body := slice start (scan.paragraphEnd - start) text
        if Text.strip body = [] then scan.paragraphs
        else scan.paragraphs ++ [⟨body, start, scan.paragraphEnd, scan.breadcrumb⟩]

/-- `breadcrumb[: level - 1]` and the label. -/
def enterHeading (breadcrumb : List Text) (heading : Heading) : List Text :=
  breadcrumb.take (heading.level - 1) ++ [heading.label]

def withoutLineFeed (rawLine : Text) : Text :=
  if Text.endsWith rawLine "\n" then rawLine.dropLast else rawLine

def scanLine (text : Text) (scan : LineScan) (rawLine : Text) : LineScan :=
  let line := withoutLineFeed rawLine
  let offset := scan.offset + rawLine.length
  match heading? line with
  | some heading =>
      { scan with
        paragraphs := flushParagraph text scan
        breadcrumb := enterHeading scan.breadcrumb heading
        paragraphStart := none
        offset := offset }
  | none =>
      if Text.strip line = [] then
        { scan with
          paragraphs := flushParagraph text scan
          paragraphStart := none
          offset := offset }
      else
        { scan with
          paragraphStart := some (scan.paragraphStart.getD scan.offset)
          paragraphEnd := scan.offset + line.length
          offset := offset }

def scanLines (text : Text) (lines : List Text) : LineScan := lines.foldl (scanLine text) {}

def pageParagraphs (page : WikiPage) : List Paragraph :=
  let text := normalizedPageText page.text
  flushParagraph text (scanLines text (keptLines text))

/-! ## Segments -/

structure Segment where
  text : Text
  start : Nat
  end_ : Nat

/-- The pieces of a text from a cursor on, each as long as a chunk may be. -/
def cutSegments (text : Text) (absoluteStart : Nat) : Nat → Nat → List Segment
  | 0, _ => []
  | rounds + 1, cursor =>
      if cursor < text.length then
        let next := min text.length (cursor + maxChunkChars)
        ⟨slice cursor (next - cursor) text, absoluteStart + cursor, absoluteStart + next⟩ ::
          cutSegments text absoluteStart rounds next
      else []

def paragraphSegment (paragraph : Paragraph) (first last : WordMatch) : List Segment :=
  let text := slice first.start (last.end_ - first.start) paragraph.text
  let absoluteStart := paragraph.start + first.start
  if text.length ≤ maxChunkChars then
    [⟨text, absoluteStart, paragraph.start + last.end_⟩]
  else cutSegments text absoluteStart text.length 0

/-- The variables of the loop over the words. -/
structure WordScan where
  segments : List Segment := []
  first : WordMatch
  last : WordMatch
  termCount : Nat := 0

def scanWord (paragraph : Paragraph) (maxChars : Nat) (scan : WordScan) (found : WordMatch) :
    WordScan :=
  let wouldExceedChars := maxChars < found.end_ - scan.first.start
  let wouldExceedTerms := targetChunkTerms ≤ scan.termCount
  if scan.termCount ≠ 0 ∧ (wouldExceedChars ∨ wouldExceedTerms) then
    { segments := scan.segments ++ paragraphSegment paragraph scan.first scan.last
      first := found
      last := found
      termCount := 1 }
  else { scan with last := found, termCount := scan.termCount + 1 }

def splitParagraph (paragraph : Paragraph) (maxChars : Nat) : List Segment :=
  match Text.wordMatches paragraph.text with
  | [] => []
  | found :: rest =>
      let scan := (found :: rest).foldl (scanWord paragraph maxChars) { first := found, last := found }
      scan.segments ++ paragraphSegment paragraph scan.first scan.last

/-! ## Chunks -/

section Chunks

variable [Unicode]

def chunkPrefix (page : WikiPage) (breadcrumb : List Text) : Text :=
  let title := Text.strip page.title
  let heading := Text.join " > " (breadcrumb.filter fun item => Text.strip item ≠ [])
  let parts :=
    if heading ≠ [] ∧ Text.casefold heading ≠ Text.casefold title then [title, heading]
    else [title]
  Text.join " " ((parts.filter fun part => Text.strip part ≠ []).map squeeze)

omit [Unicode] in
def boundedChunkText (chunkPrefix body : Text) : Text :=
  let combined := Text.join " " ([chunkPrefix, body].filter fun part => Text.strip part ≠ [])
  let clean := squeeze combined
  if clean.length ≤ maxChunkChars then clean
  else
    let trimmed := clean.take maxChunkChars
    -- The text before the last blank, when the blank is not before the middle.
    let front := Text.beforeLast ' ' trimmed
    if ' ' ∈ trimmed ∧ maxChunkChars / 2 ≤ front.length then Text.rstrip front
    else Text.rstrip trimmed

structure VectorChunk where
  page : WikiPage
  chunkId : Text
  ordinal : Nat
  start : Nat
  end_ : Nat
  headingHash : Text
  pageContentHash : Text
  text : Text

variable [Hashing]

omit [Unicode] in
def pageContentHash (page : WikiPage) : Text :=
  let payload : Json Json.Decimal :=
    .object
      [("id", .string page.id), ("title", .string page.title), ("role", .string page.role.text),
        ("text", .string (normalizedPageText page.text)), ("summary", .string page.summary),
        ("review_state", .string page.reviewState.text), ("status", .string page.status)]
  "sha256:" ++ Hashing.sha256 (Json.dumps .compact payload)

omit [Unicode] in
def headingHash (breadcrumb : List Text) : Text := Hashing.sha256 (Text.join " > " breadcrumb)

/-- The room for the body of a chunk behind a prefix. -/
def segmentLimit (chunkPrefix : Text) : Nat := max 200 (maxChunkChars - chunkPrefix.length - 1)

/-- The segments of a paragraph with the texts embedded for them, those with none left out. -/
def paragraphTexts (page : WikiPage) (paragraph : Paragraph) : List (Segment × Text) :=
  let prefix_ := chunkPrefix page paragraph.breadcrumb
  ((splitParagraph paragraph (segmentLimit prefix_)).map fun segment =>
    (segment, boundedChunkText prefix_ segment.text)).filter fun entry => entry.2 ≠ []

omit [Unicode] in
def vectorChunk (page : WikiPage) (breadcrumb : List Text) (entry : Segment × Text)
    (ordinal : Nat) : VectorChunk :=
  let payload : Json Json.Decimal :=
    .array
      [.string textSchemaId, .string page.id, .string (pageContentHash page),
        .string (headingHash breadcrumb), .int ordinal, .int entry.1.start, .int entry.1.end_]
  { page := page
    chunkId := Hashing.sha256 (Json.dumps .compact payload)
    ordinal := ordinal
    start := entry.1.start
    end_ := entry.1.end_
    headingHash := headingHash breadcrumb
    pageContentHash := pageContentHash page
    text := entry.2 }

def pageChunks (page : WikiPage) : List VectorChunk :=
  let entries := (pageParagraphs page).flatMap fun paragraph =>
    (paragraphTexts page paragraph).map fun entry => (paragraph.breadcrumb, entry)
  entries.zipIdx.map fun entry => vectorChunk page entry.1.1 entry.1.2 entry.2

def buildVectorChunks (pages : List WikiPage) : List VectorChunk := pages.flatMap pageChunks

end Chunks

end LlmWikiServe.VectorChunks
