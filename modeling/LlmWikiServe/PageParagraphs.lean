import LlmWikiServe.VectorChunks

/-!
# Paragraphs and their breadcrumbs

The paragraphs of a page are its runs of body lines: they stand in order, apart from every
heading line, and hold every body line.  The breadcrumb of a paragraph is compared with the
headings that enclose it.
-/

namespace LlmWikiServe.VectorChunks

open Text (slice isSpace)

/-! ## Lines at their places -/

def linesFrom : Nat → List Text → List (Nat × Text)
  | _, [] => []
  | offset, line :: rest => (offset, line) :: linesFrom (offset + line.length) rest

def textLines (text : Text) : List (Nat × Text) := linesFrom 0 (keptLines text)

def headingOf (rawLine : Text) : Option Heading := heading? (withoutLineFeed rawLine)

/-- A line that is neither blank nor a heading. -/
def IsBody (rawLine : Text) : Prop :=
  headingOf rawLine = none ∧ Text.strip (withoutLineFeed rawLine) ≠ []

theorem linesFrom_append (offset : Nat) (before after : List Text) :
    linesFrom offset (before ++ after) =
      linesFrom offset before ++ linesFrom (offset + before.flatten.length) after := by
  induction before generalizing offset with
  | nil => simp [linesFrom]
  | cons line rest inductionHypothesis =>
      simp [linesFrom, inductionHypothesis, Nat.add_assoc]

theorem linesFrom_concat (before : List Text) (rawLine : Text) :
    linesFrom 0 (before ++ [rawLine]) =
      linesFrom 0 before ++ [(before.flatten.length, rawLine)] := by
  simp [linesFrom_append, linesFrom]

theorem linesFrom_bounds {offset : Nat} {lines : List Text} {entry : Nat × Text}
    (among : entry ∈ linesFrom offset lines) :
    offset ≤ entry.1 ∧ entry.1 + entry.2.length ≤ offset + lines.flatten.length := by
  induction lines generalizing offset with
  | nil => exact absurd among List.not_mem_nil
  | cons line rest inductionHypothesis =>
      simp only [List.flatten_cons, List.length_append]
      rcases List.mem_cons.mp among with rfl | later
      · exact ⟨le_rfl, by simp only; omega⟩
      · have inside := inductionHypothesis later
        exact ⟨by omega, by omega⟩

theorem exists_line {offset place : Nat} {lines : List Text} {char : Char}
    (read : lines.flatten[place]? = some char) :
    ∃ line ∈ linesFrom offset lines, line.1 ≤ offset + place ∧
      offset + place < line.1 + line.2.length ∧ line.2[offset + place - line.1]? = some char := by
  induction lines generalizing offset place with
  | nil => simp at read
  | cons line rest inductionHypothesis =>
      rw [List.flatten_cons] at read
      rcases Nat.lt_or_ge place line.length with here | beyond
      · rw [List.getElem?_append_left here] at read
        refine ⟨_, List.mem_cons_self, by simp, by simpa using here, ?_⟩
        simpa using read
      · rw [List.getElem?_append_right beyond] at read
        obtain ⟨found, foundIn, low, high, placed⟩ :=
          @inductionHypothesis (offset + line.length) _ read
        have shift : offset + line.length + (place - line.length) = offset + place := by omega
        rw [shift] at low high placed
        exact ⟨found, List.mem_cons_of_mem _ foundIn, low, high, placed⟩

theorem keptLinesFrom_flatten (line text : Text) :
    (keptLinesFrom line text).flatten = line.reverse ++ text := by
  induction line, text using keptLinesFrom.induct with
  | case1 => simp [keptLinesFrom]
  | case2 line nonempty => simp [keptLinesFrom, nonempty]
  | case3 line rest inductionHypothesis => simp [keptLinesFrom, inductionHypothesis]
  | case4 line char rest other ends inductionHypothesis =>
      rw [keptLinesFrom, if_pos ends]
      · simp [inductionHypothesis]
      · exact other
  | case5 line char rest other goesOn inductionHypothesis =>
      rw [keptLinesFrom, if_neg goesOn, inductionHypothesis]
      · simp
      · exact other

theorem keptLines_flatten (text : Text) : (keptLines text).flatten = text :=
  keptLinesFrom_flatten [] text

theorem exists_textLine {text : Text} {place : Nat} {char : Char}
    (read : text[place]? = some char) :
    ∃ line ∈ textLines text, line.1 ≤ place ∧ place < line.1 + line.2.length ∧
      line.2[place - line.1]? = some char := by
  rw [← keptLines_flatten text] at read
  have found := @exists_line 0 place _ _ read
  simpa [textLines] using found

theorem withoutLineFeed_cases (rawLine : Text) :
    rawLine = withoutLineFeed rawLine ∨ rawLine = withoutLineFeed rawLine ++ ['\n'] := by
  unfold withoutLineFeed
  split
  next ends =>
    right
    have suffix : ['\n'] <:+ rawLine := List.isSuffixOf_iff_suffix.mp ends
    obtain ⟨front, rfl⟩ := suffix
    simp
  next => exact .inl rfl

theorem length_withoutLineFeed_le (rawLine : Text) :
    (withoutLineFeed rawLine).length ≤ rawLine.length := by
  rcases withoutLineFeed_cases rawLine with same | same
  · exact (congrArg List.length same).ge
  · have longer := congrArg List.length same
    simp only [List.length_append, List.length_singleton] at longer
    omega

/-- A character of a line that is no blank does not belong to its end. -/
theorem getElem?_withoutLineFeed {rawLine : Text} {place : Nat} {char : Char}
    (read : rawLine[place]? = some char) (solid : isSpace char = false) :
    (withoutLineFeed rawLine)[place]? = some char := by
  rcases withoutLineFeed_cases rawLine with same | same
  · rwa [← same]
  · rw [same, List.getElem?_append] at read
    split at read
    · exact read
    · have feed : char = '\n' := by
        rcases Nat.eq_zero_or_pos (place - (withoutLineFeed rawLine).length) with zero | positive
        · simpa [zero] using read.symm
        · obtain ⟨more, shape⟩ := Nat.exists_eq_add_of_lt positive
          simp [shape] at read
      subst feed
      exact absurd solid (by decide)

theorem strip_eq_nil_of_blank {text : Text} (blank : ∀ char ∈ text, isSpace char = true) :
    Text.strip text = [] := by
  have dropped : Text.lstripBy isSpace text = [] := List.dropWhile_eq_nil_iff.mpr blank
  rw [Text.strip, Text.stripBy, dropped]
  rfl

theorem exists_solid {text : Text} (visible : Text.strip text ≠ []) :
    ∃ char ∈ text, isSpace char = false := by
  by_contra none_
  push Not at none_
  exact visible (strip_eq_nil_of_blank fun char charIn => by simpa using none_ char charIn)

theorem strip_ne_nil {text : Text} {char : Char} (charIn : char ∈ text)
    (solid : isSpace char = false) : Text.strip text ≠ [] :=
  List.ne_nil_of_mem (Text.mem_stripBy charIn solid)

theorem getElem?_line {before after : List Text} {rawLine : Text} {place : Nat}
    (low : before.flatten.length ≤ place) (high : place < before.flatten.length + rawLine.length) :
    (before.flatten ++ rawLine ++ after.flatten)[place]? =
      rawLine[place - before.flatten.length]? := by
  rw [List.append_assoc, List.getElem?_append_right low, List.getElem?_append_left (by omega)]

/-! ## Breadcrumbs -/

def breadcrumbOf (headings : List Heading) : List Text := headings.foldl enterHeading []

def headingsUpTo (position : Nat) (lines : List (Nat × Text)) : List Heading :=
  lines.filterMap fun line =>
    if line.1 + line.2.length ≤ position then headingOf line.2 else none

theorem headingOf_nil : headingOf [] = none := by decide

theorem length_pos_of_headingOf {rawLine : Text} (heading : (headingOf rawLine).isSome) :
    0 < rawLine.length := by
  apply List.length_pos_iff.mpr
  rintro rfl
  simp [headingOf_nil] at heading

theorem headingsUpTo_concat {before : List Text} {rawLine : Text} {position : Nat}
    (within : position ≤ before.flatten.length) :
    headingsUpTo position (linesFrom 0 (before ++ [rawLine])) =
      headingsUpTo position (linesFrom 0 before) := by
  rw [linesFrom_concat, headingsUpTo, headingsUpTo, List.filterMap_append]
  suffices later : (if before.flatten.length + rawLine.length ≤ position then headingOf rawLine
      else none) = none by
    rw [List.filterMap_cons, later, List.filterMap_nil, List.append_nil]
  cases found : headingOf rawLine with
  | none => simp
  | some heading =>
      have positive := @length_pos_of_headingOf rawLine (by simp [found])
      rw [if_neg (by omega)]

/-! ## The loop over the lines -/

def Paragraph.span (paragraph : Paragraph) : Nat × Nat := (paragraph.start, paragraph.end_)

/-- Where the paragraph that is read starts, or would start. -/
def LineScan.openStart (scan : LineScan) : Nat := scan.paragraphStart.getD scan.offset

/-- A body line starts at a position. -/
def Begins (lines : List (Nat × Text)) (position : Nat) : Prop :=
  ∃ line ∈ lines, IsBody line.2 ∧ line.1 = position

theorem Begins.concat {before : List Text} {position : Nat}
    (begins : Begins (linesFrom 0 before) position) (rawLine : Text) :
    Begins (linesFrom 0 (before ++ [rawLine])) position := by
  obtain ⟨line, lineIn, body, here⟩ := begins
  refine ⟨line, ?_, body, here⟩
  rw [linesFrom_concat]
  exact List.mem_append_left _ lineIn

/-- What the loop knows after some lines of a text. -/
structure Scanned (text : Text) (before : List Text) (scan : LineScan) : Prop where
  offset : scan.offset = before.flatten.length
  ordered : Spans.Ordered 0 scan.openStart (scan.paragraphs.map Paragraph.span)
  stored : ∀ paragraph ∈ scan.paragraphs,
    paragraph.text = slice paragraph.start (paragraph.end_ - paragraph.start) text
  opened : ∀ start ∈ scan.paragraphStart,
    start < scan.paragraphEnd ∧ scan.paragraphEnd ≤ scan.offset ∧
      Text.strip (slice start (scan.paragraphEnd - start) text) ≠ []
  apart : ∀ line ∈ linesFrom 0 before, (headingOf line.2).isSome →
    line.1 + line.2.length ≤ scan.openStart ∧
      ∀ paragraph ∈ scan.paragraphs,
        paragraph.end_ ≤ line.1 ∨ line.1 + line.2.length ≤ paragraph.start
  covered : ∀ line ∈ linesFrom 0 before, IsBody line.2 →
    (∃ paragraph ∈ scan.paragraphs,
      paragraph.start ≤ line.1 ∧ line.1 + (withoutLineFeed line.2).length ≤ paragraph.end_) ∨
    ∃ start ∈ scan.paragraphStart,
      start ≤ line.1 ∧ line.1 + (withoutLineFeed line.2).length ≤ scan.paragraphEnd
  begins : (∀ paragraph ∈ scan.paragraphs, Begins (linesFrom 0 before) paragraph.start) ∧
    ∀ start ∈ scan.paragraphStart, Begins (linesFrom 0 before) start
  breadcrumb : scan.breadcrumb = breadcrumbOf (before.filterMap headingOf)
  labelled : ∀ paragraph ∈ scan.paragraphs,
    paragraph.breadcrumb = breadcrumbOf (headingsUpTo paragraph.start (linesFrom 0 before))

theorem Scanned.start (text : Text) : Scanned text [] {} where
  offset := rfl
  ordered := .nil le_rfl
  stored := by simp
  opened := by simp
  apart := by simp [linesFrom]
  covered := by simp [linesFrom]
  begins := by simp
  breadcrumb := rfl
  labelled := by simp

section Step

variable {text : Text} {before : List Text} {scan : LineScan} {rawLine : Text}

def openParagraph (text : Text) (scan : LineScan) : List Paragraph :=
  scan.paragraphStart.toList.map fun start =>
    ⟨slice start (scan.paragraphEnd - start) text, start, scan.paragraphEnd, scan.breadcrumb⟩

theorem flushParagraph_eq (known : Scanned text before scan) :
    flushParagraph text scan = scan.paragraphs ++ openParagraph text scan := by
  unfold flushParagraph openParagraph
  split
  next closed => simp [closed]
  next start opened =>
    have facts := known.opened start opened
    rw [if_neg (by omega), if_neg facts.2.2, opened]
    rfl

theorem Scanned.openStart_le (known : Scanned text before scan) :
    scan.openStart ≤ scan.offset := by
  unfold LineScan.openStart
  cases opened : scan.paragraphStart with
  | none => exact le_rfl
  | some start =>
      have facts := known.opened start opened
      simp only [Option.getD_some]
      omega

theorem Scanned.flushed_ordered (known : Scanned text before scan) :
    Spans.Ordered 0 scan.offset ((flushParagraph text scan).map Paragraph.span) := by
  rw [flushParagraph_eq known, List.map_append]
  refine known.ordered.append ?_
  unfold openParagraph LineScan.openStart
  cases opened : scan.paragraphStart with
  | none => exact .nil le_rfl
  | some start =>
      have facts := known.opened start opened
      exact (Spans.Ordered.singleton facts.1).weaken le_rfl facts.2.1

theorem Scanned.flushed_bounds (known : Scanned text before scan) {paragraph : Paragraph}
    (among : paragraph ∈ flushParagraph text scan) :
    paragraph.start < paragraph.end_ ∧ paragraph.end_ ≤ before.flatten.length := by
  have inside := known.flushed_ordered.bounds (List.mem_map_of_mem among)
  rw [known.offset] at inside
  exact inside.2

theorem mem_openParagraph {start : Nat} (opened : start ∈ scan.paragraphStart) :
    (⟨slice start (scan.paragraphEnd - start) text, start, scan.paragraphEnd,
      scan.breadcrumb⟩ : Paragraph) ∈ openParagraph text scan := by
  rw [openParagraph, Option.mem_def.mp opened]
  exact List.mem_singleton_self _

theorem Scanned.headingsUpTo_openStart (known : Scanned text before scan) :
    headingsUpTo scan.openStart (linesFrom 0 before) = before.filterMap headingOf := by
  have lines : ∀ (offset : Nat) (lines : List Text),
      lines.filterMap headingOf = (linesFrom offset lines).filterMap fun line => headingOf line.2 := by
    intro offset lines
    induction lines generalizing offset with
    | nil => rfl
    | cons line rest inductionHypothesis =>
        simp only [linesFrom, List.filterMap_cons, inductionHypothesis (offset + line.length)]
  rw [lines 0 before, headingsUpTo]
  apply List.filterMap_congr
  intro line among
  cases found : headingOf line.2 with
  | none => simp
  | some heading => rw [if_pos (known.apart line among (by simp [found])).1]

theorem Scanned.close (known : Scanned text before scan) (closes : ¬ IsBody rawLine) :
    Scanned text (before ++ [rawLine])
      { scan with
        paragraphs := flushParagraph text scan
        breadcrumb := breadcrumbOf ((before ++ [rawLine]).filterMap headingOf)
        paragraphStart := none
        offset := scan.offset + rawLine.length } where
  offset := by simp [known.offset]
  ordered := known.flushed_ordered.weaken le_rfl (by simp [LineScan.openStart])
  stored := by
    intro paragraph among
    rw [flushParagraph_eq known] at among
    rcases List.mem_append.mp among with earlier | now
    · exact known.stored paragraph earlier
    · simp only [openParagraph, List.mem_map, Option.mem_toList] at now
      obtain ⟨start, _, rfl⟩ := now
      rfl
  opened := by simp
  apart := by
    intro line among heading
    rw [linesFrom_concat] at among
    rcases List.mem_append.mp among with earlier | now
    · have inside := linesFrom_bounds earlier
      refine ⟨?_, fun paragraph paragraphIn => ?_⟩
      · simp only [LineScan.openStart, Option.getD_none, known.offset]
        omega
      · rw [flushParagraph_eq known] at paragraphIn
        rcases List.mem_append.mp paragraphIn with stored | open_
        · exact (known.apart line earlier heading).2 paragraph stored
        · simp only [openParagraph, List.mem_map, Option.mem_toList] at open_
          obtain ⟨start, opened, rfl⟩ := open_
          right
          have ends := (known.apart line earlier heading).1
          rw [LineScan.openStart, opened, Option.getD_some] at ends
          exact ends
    · rw [List.mem_singleton.mp now]
      refine ⟨by simp [LineScan.openStart, known.offset], fun paragraph paragraphIn => .inl ?_⟩
      exact (known.flushed_bounds paragraphIn).2
  covered := by
    intro line among body
    rw [linesFrom_concat] at among
    rcases List.mem_append.mp among with earlier | now
    · left
      rw [flushParagraph_eq known]
      rcases known.covered line earlier body with
        ⟨paragraph, paragraphIn, inside⟩ | ⟨start, opened, inside⟩
      · exact ⟨paragraph, List.mem_append_left _ paragraphIn, inside⟩
      · exact ⟨_, List.mem_append_right _ (mem_openParagraph opened), inside⟩
    · rw [List.mem_singleton.mp now] at body
      exact absurd body closes
  begins := by
    refine ⟨fun paragraph among => ?_, by simp⟩
    rw [flushParagraph_eq known] at among
    rcases List.mem_append.mp among with earlier | now
    · exact (known.begins.1 paragraph earlier).concat rawLine
    · simp only [openParagraph, List.mem_map, Option.mem_toList] at now
      obtain ⟨start, opened, rfl⟩ := now
      exact (known.begins.2 start opened).concat rawLine
  breadcrumb := rfl
  labelled := by
    intro paragraph among
    have inside := known.flushed_bounds among
    rw [headingsUpTo_concat (by omega)]
    rw [flushParagraph_eq known] at among
    rcases List.mem_append.mp among with earlier | now
    · exact known.labelled paragraph earlier
    · simp only [openParagraph, List.mem_map, Option.mem_toList] at now
      obtain ⟨start, opened, rfl⟩ := now
      have here := known.headingsUpTo_openStart
      rw [LineScan.openStart, opened, Option.getD_some] at here
      rw [here]
      exact known.breadcrumb

theorem Scanned.extend {after : List Text} (known : Scanned text before scan)
    (whole : text = before.flatten ++ rawLine ++ after.flatten) (body : IsBody rawLine) :
    Scanned text (before ++ [rawLine])
      { scan with
        paragraphStart := some (scan.paragraphStart.getD scan.offset)
        paragraphEnd := scan.offset + (withoutLineFeed rawLine).length
        offset := scan.offset + rawLine.length } where
  offset := by simp [known.offset]
  ordered := known.ordered
  stored := known.stored
  opened := by
    intro start opened
    obtain rfl : scan.openStart = start := Option.some.inj opened
    have low := known.openStart_le
    have short := length_withoutLineFeed_le rawLine
    obtain ⟨char, charIn, solid⟩ := exists_solid body.2
    have positive := List.length_pos_of_mem charIn
    refine ⟨by simp only; omega, by simp only; omega, ?_⟩
    -- A visible character of the line is one of the paragraph.
    obtain ⟨index, read⟩ := List.getElem?_of_mem charIn
    have bound := (List.getElem?_eq_some_iff.mp read).1
    have offset := known.offset
    apply strip_ne_nil _ solid
    apply @Text.mem_slice text scan.openStart _ (scan.offset + index) _ _ (by omega)
    · simp only
      omega
    · rw [whole, getElem?_line (by omega) (by omega), offset, Nat.add_sub_cancel_left]
      rcases withoutLineFeed_cases rawLine with same | same
      · rwa [same]
      · rw [same, List.getElem?_append_left bound]
        exact read
  apart := by
    intro line among heading
    rw [linesFrom_concat] at among
    rcases List.mem_append.mp among with earlier | now
    · exact known.apart line earlier heading
    · rw [List.mem_singleton.mp now, body.1] at heading
      simp at heading
  covered := by
    intro line among lineBody
    rw [linesFrom_concat] at among
    have offset := known.offset
    have low := known.openStart_le
    rcases List.mem_append.mp among with earlier | now
    · have inside := linesFrom_bounds earlier
      have short := length_withoutLineFeed_le line.2
      rcases known.covered line earlier lineBody with held | ⟨start, opened, held⟩
      · exact .inl held
      · right
        refine ⟨start, ?_, held.1, ?_⟩
        · rw [Option.mem_def] at opened ⊢
          simp [opened]
        · simp only
          omega
    · rw [List.mem_singleton.mp now]
      right
      refine ⟨scan.openStart, rfl, by simp only; omega, ?_⟩
      simp only
      omega
  begins := by
    refine ⟨fun paragraph among => (known.begins.1 paragraph among).concat rawLine, ?_⟩
    intro start opened
    obtain rfl : scan.openStart = start := Option.some.inj opened
    cases earlier : scan.paragraphStart with
    | none =>
        have here : scan.openStart = before.flatten.length := by
          rw [LineScan.openStart, earlier, Option.getD_none, known.offset]
        rw [here, linesFrom_concat]
        exact ⟨_, List.mem_append_right _ List.mem_cons_self, body, rfl⟩
    | some first =>
        rw [LineScan.openStart, earlier, Option.getD_some]
        exact (known.begins.2 first earlier).concat rawLine
  breadcrumb := by
    rw [List.filterMap_append, known.breadcrumb]
    simp [body.1]
  labelled := by
    intro paragraph among
    have inside := known.ordered.bounds (List.mem_map_of_mem among)
    have low := known.openStart_le
    rw [known.offset] at low
    rw [known.labelled paragraph among, headingsUpTo_concat]
    exact le_trans (Nat.le_of_lt inside.2.1) (inside.2.2.trans low)

theorem Scanned.step {after : List Text} (known : Scanned text before scan)
    (whole : text = before.flatten ++ rawLine ++ after.flatten) :
    Scanned text (before ++ [rawLine]) (scanLine text scan rawLine) := by
  have noBody : (headingOf rawLine).isSome ∨ Text.strip (withoutLineFeed rawLine) = [] →
      ¬ IsBody rawLine := by
    rintro (heading | blank) body
    · simp [body.1] at heading
    · exact body.2 blank
  simp only [scanLine]
  split
  next heading found =>
    have entered : enterHeading scan.breadcrumb heading =
        breadcrumbOf ((before ++ [rawLine]).filterMap headingOf) := by
      rw [List.filterMap_append, breadcrumbOf, List.foldl_append, known.breadcrumb, breadcrumbOf]
      have here : headingOf rawLine = some heading := found
      simp [here]
    rw [entered]
    exact known.close (noBody (.inl (by simp [headingOf, found])))
  next found =>
    split
    next blank =>
      have same : scan.breadcrumb = breadcrumbOf ((before ++ [rawLine]).filterMap headingOf) := by
        have here : headingOf rawLine = none := found
        rw [List.filterMap_append, known.breadcrumb]
        simp [here]
      have closed := known.close (noBody (.inr blank))
      rw [← same] at closed
      exact closed
    next visible => exact known.extend whole ⟨found, visible⟩

theorem Scanned.run {lines : List Text} (within : before <+: lines) :
    Scanned lines.flatten before (scanLines lines.flatten before) := by
  induction before using List.reverseRecOn with
  | nil => exact .start _
  | append_singleton before rawLine inductionHypothesis =>
      rw [scanLines, List.foldl_append]
      obtain ⟨after, rfl⟩ := within
      refine @Scanned.step _ _ _ _ after (inductionHypothesis ⟨[rawLine] ++ after, by simp⟩) ?_
      simp

end Step

/-! ## The paragraphs of a page -/

structure Paragraphed (text : Text) (paragraphs : List Paragraph) : Prop where
  ordered : Spans.Ordered 0 text.length (paragraphs.map Paragraph.span)
  stored : ∀ paragraph ∈ paragraphs,
    paragraph.text = slice paragraph.start (paragraph.end_ - paragraph.start) text
  apart : ∀ line ∈ textLines text, (headingOf line.2).isSome →
    ∀ paragraph ∈ paragraphs,
      paragraph.end_ ≤ line.1 ∨ line.1 + line.2.length ≤ paragraph.start
  covered : ∀ line ∈ textLines text, IsBody line.2 → ∃ paragraph ∈ paragraphs,
    paragraph.start ≤ line.1 ∧ line.1 + (withoutLineFeed line.2).length ≤ paragraph.end_
  begins : ∀ paragraph ∈ paragraphs, Begins (textLines text) paragraph.start
  labelled : ∀ paragraph ∈ paragraphs,
    paragraph.breadcrumb = breadcrumbOf (headingsUpTo paragraph.start (textLines text))

theorem pageParagraphs_spec (page : WikiPage) :
    Paragraphed (normalizedPageText page.text) (pageParagraphs page) := by
  have read := Scanned.run (List.prefix_refl (keptLines (normalizedPageText page.text)))
  rw [keptLines_flatten] at read
  -- The end of the text closes the last paragraph as an empty line does.
  have closed := @Scanned.close _ _ _ [] read fun body => body.2 (by decide)
  have more : ∀ line ∈ textLines (normalizedPageText page.text),
      line ∈ linesFrom 0 (keptLines (normalizedPageText page.text) ++ [[]]) := by
    intro line among
    rw [linesFrom_concat]
    exact List.mem_append_left _ among
  have bounds := read.flushed_ordered
  rw [read.offset, keptLines_flatten] at bounds
  exact {
    ordered := bounds
    stored := closed.stored
    apart := fun line among heading => (closed.apart line (more line among) heading).2
    covered := by
      intro line among body
      rcases closed.covered line (more line among) body with held | ⟨start, opened, -⟩
      · exact held
      · exact absurd opened (by simp)
    begins := by
      intro paragraph among
      obtain ⟨line, lineIn, body, here⟩ := closed.begins.1 paragraph among
      rw [linesFrom_concat] at lineIn
      rcases List.mem_append.mp lineIn with inText | end_
      · exact ⟨line, inText, body, here⟩
      · rw [List.mem_singleton.mp end_] at body
        exact absurd rfl body.2
    labelled := by
      intro paragraph among
      have inside := read.flushed_bounds among
      have named := closed.labelled paragraph among
      rw [headingsUpTo_concat (by omega)] at named
      exact named }

/-- The headings before a body line are those before its paragraph. -/
theorem Paragraphed.headingsUpTo_inside {text : Text} {paragraphs : List Paragraph}
    (known : Paragraphed text paragraphs) {paragraph : Paragraph} (among : paragraph ∈ paragraphs)
    {position : Nat} (low : paragraph.start ≤ position) (high : position ≤ paragraph.end_) :
    headingsUpTo position (textLines text) = headingsUpTo paragraph.start (textLines text) := by
  apply List.filterMap_congr
  intro line lineIn
  cases found : headingOf line.2 with
  | none => simp
  | some heading =>
      have isHeading : (headingOf line.2).isSome := by simp [found]
      have positive := length_pos_of_headingOf isHeading
      rcases known.apart line lineIn isHeading paragraph among with after | before
      · rw [if_neg (by omega), if_neg (by omega)]
      · rw [if_pos (by omega), if_pos before]

end LlmWikiServe.VectorChunks
