import LlmWikiServe.ChunkSpans

/-!
# Texts of chunks

A chunk is embedded with the whole text it is recorded for, unless a word is too long for the
room behind the prefix: then its end is cut off.
-/

namespace LlmWikiServe.VectorChunks

open Text (WordMatch squeeze slice isSpace)
open Spans (Ordered Holds)

/-! ## Words and lines -/

theorem exists_wordMatch {text word : Text} (among : word ∈ Text.split text) :
    ∃ found ∈ Text.wordMatches text, found.text = word := by
  rwa [← Text.wordMatches_text, List.mem_map] at among

theorem infix_of_mem_split {text word : Text} (among : word ∈ Text.split text) :
    word <:+: text := by
  obtain ⟨found, foundIn, rfl⟩ := exists_wordMatch among
  obtain ⟨front, back, rfl, -⟩ := (Text.wordMatches_at foundIn).placed
  exact List.infix_append _ _ _

theorem isSpace_of_isLineBreak {char : Char} (ends : isLineBreak char = true) :
    isSpace char = true := by
  simp only [isLineBreak, Text.isSpace, Bool.or_eq_true, Bool.and_eq_true, decide_eq_true_eq]
    at ends ⊢
  omega

def EndsBlank (rawLine : Text) : Prop :=
  ∃ front char, rawLine = front ++ [char] ∧ isSpace char = true

theorem keptLinesFrom_ends (line text : Text) :
    (keptLinesFrom line text).Pairwise fun rawLine _ => EndsBlank rawLine := by
  induction line, text using keptLinesFrom.induct with
  | case1 => simp [keptLinesFrom]
  | case2 line nonempty => simp [keptLinesFrom, nonempty]
  | case3 line rest inductionHypothesis =>
      rw [keptLinesFrom]
      exact .cons (fun _ _ => ⟨line.reverse ++ ['\r'], '\n', by simp, by decide⟩)
        inductionHypothesis
  | case4 line char rest other ends inductionHypothesis =>
      rw [keptLinesFrom, if_pos ends]
      · exact .cons (fun _ _ => ⟨line.reverse, char, by simp, isSpace_of_isLineBreak ends⟩)
          inductionHypothesis
      · exact other
  | case5 line char rest other goesOn inductionHypothesis =>
      rw [keptLinesFrom, if_neg goesOn]
      · exact inductionHypothesis
      · exact other

theorem mem_linesFrom {offset : Nat} {lines : List Text} {entry : Nat × Text}
    (among : entry ∈ linesFrom offset lines) :
    ∃ before after, lines = before ++ entry.2 :: after ∧
      entry.1 = offset + before.flatten.length := by
  induction lines generalizing offset with
  | nil => exact absurd among List.not_mem_nil
  | cons line rest inductionHypothesis =>
      rcases List.mem_cons.mp among with rfl | later
      · exact ⟨[], rest, rfl, by simp⟩
      · obtain ⟨before, after, shape, start⟩ := inductionHypothesis later
        refine ⟨line :: before, after, by rw [shape, List.cons_append], ?_⟩
        rw [start, List.flatten_cons, List.length_append]
        omega

/-- A line of a text at its place, with a blank at its end unless it is the last one. -/
theorem textLine_spec {text : Text} {line : Nat × Text} (among : line ∈ textLines text) :
    line.2 = slice line.1 line.2.length text ∧ line.1 + line.2.length ≤ text.length ∧
      (line.1 + line.2.length < text.length →
        ∃ char, text[line.1 + line.2.length - 1]? = some char ∧ isSpace char = true) := by
  obtain ⟨before, after, shape, start⟩ := mem_linesFrom among
  have whole : text = before.flatten ++ line.2 ++ after.flatten := by
    rw [← keptLines_flatten text, shape]
    simp
  rw [Nat.zero_add] at start
  refine ⟨?_, ?_, fun goesOn => ?_⟩
  · conv_rhs => rw [whole, start, Text.slice_append]
  · have length := congrArg List.length whole
    simp only [List.length_append] at length
    omega
  · have more : after ≠ [] := by
      rintro rfl
      have length := congrArg List.length whole
      simp only [List.flatten_nil, List.append_nil, List.length_append] at length
      omega
    have pairwise := keptLinesFrom_ends [] text
    have shape : keptLinesFrom [] text = before ++ line.2 :: after := shape
    rw [shape] at pairwise
    obtain ⟨next, others, rfl⟩ := List.exists_cons_of_ne_nil more
    have ends := (List.pairwise_cons.mp (List.pairwise_append.mp pairwise).2.1).1 next
      List.mem_cons_self
    obtain ⟨front, char, last, blank⟩ := ends
    refine ⟨char, ?_, blank⟩
    have place : line.1 + line.2.length - 1 = (before.flatten ++ front).length := by
      rw [last, start]
      simp
    rw [place, whole, last, ← List.append_assoc, List.append_assoc _ [char],
      List.getElem?_append_right le_rfl]
    simp

theorem withoutLineFeed_isPrefix (rawLine : Text) : withoutLineFeed rawLine <+: rawLine := by
  rcases withoutLineFeed_cases rawLine with same | same
  · exact same ▸ List.prefix_rfl
  · exact ⟨_, same.symm⟩

theorem exists_lineWord (page : WikiPage) {paragraph : Paragraph}
    (among : paragraph ∈ pageParagraphs page) {word : Text}
    (wordIn : word ∈ Text.split paragraph.text) :
    ∃ line ∈ textLines (normalizedPageText page.text), headingOf line.2 = none ∧
      ∃ lineWord ∈ Text.split line.2, word <:+: lineWord := by
  obtain ⟨found, foundIn, rfl⟩ := exists_wordMatch wordIn
  have placed := Text.wordMatches_at foundIn
  have spec := pageParagraphs_spec page
  have bounds := spec.ordered.bounds (List.mem_map_of_mem among)
  simp only [Paragraph.span] at bounds
  have ends := placed.end_le
  have stored := spec.stored paragraph among
  have length : paragraph.text.length = paragraph.end_ - paragraph.start := by
    rw [stored, Text.length_slice (by omega)]
  have here : slice (paragraph.start + found.start) (found.end_ - found.start)
      (normalizedPageText page.text) = found.text := by
    conv_rhs => rw [← placed.slice_eq, stored]
    rw [Text.slice_slice _ _ _ _ _ (by omega)]
  -- The characters of the word in the text of the page.
  have solid : ∀ place char, paragraph.start + found.start ≤ place →
      place < paragraph.start + found.end_ →
      (normalizedPageText page.text)[place]? = some char → isSpace char = false := by
    intro place char low high read
    apply placed.solid
    rw [← here]
    have size : found.end_ - found.start =
        (paragraph.start + found.end_) - (paragraph.start + found.start) := by omega
    rw [size]
    exact Text.mem_slice read low high
  have first : paragraph.start + found.start < (normalizedPageText page.text).length := by omega
  obtain ⟨line, lineIn, low, high, -⟩ := exists_textLine (List.getElem?_eq_getElem first)
  obtain ⟨lineText, lineEnd, blankEnd⟩ := textLine_spec lineIn
  have inside : paragraph.start + found.end_ ≤ line.1 + line.2.length := by
    by_contra beyond
    obtain ⟨char, read, blank⟩ := blankEnd (by omega)
    have visible := solid _ char (by omega) (by omega) read
    rw [blank] at visible
    exact absurd visible (by decide)
  refine ⟨line, lineIn, ?_, ?_⟩
  · by_contra heading
    rcases spec.apart line lineIn (Option.isSome_iff_ne_none.mpr heading) paragraph among with
      after | before
    · omega
    · omega
  · apply Text.exists_word_of_infix placed.nonempty placed.solid
    rw [← here, lineText]
    have size : found.end_ - found.start =
        (paragraph.start + found.end_) - (paragraph.start + found.start) := by omega
    have lineSize : line.2.length = line.1 + line.2.length - line.1 := by omega
    rw [size]
    conv_rhs => rw [lineSize]
    exact Text.slice_infix _ low inside

theorem exists_paragraphWord (page : WikiPage) {line : Nat × Text}
    (lineIn : line ∈ textLines (normalizedPageText page.text)) (plain : headingOf line.2 = none)
    {word : Text} (wordIn : word ∈ Text.split line.2) :
    ∃ paragraph ∈ pageParagraphs page, ∃ longer ∈ Text.split paragraph.text,
      word <:+: longer := by
  obtain ⟨nonempty, solid⟩ := Text.splitBy_words line.2 word wordIn
  have inLine : word <:+: withoutLineFeed line.2 := by
    have inside := infix_of_mem_split wordIn
    rcases withoutLineFeed_cases line.2 with same | same
    · rwa [← same]
    · rw [same] at inside
      rcases Text.infix_of_append_cons inside (fun feed => by
        have blank := solid '\n' feed
        exact absurd blank (by decide)) with front | back
      · exact front
      · exact absurd (List.infix_nil.mp back) nonempty
  obtain ⟨char, rest, shape⟩ := List.exists_cons_of_ne_nil nonempty
  have charIn : char ∈ word := shape ▸ List.mem_cons_self
  have body : IsBody line.2 := ⟨plain, strip_ne_nil (inLine.subset charIn) (solid char charIn)⟩
  have spec := pageParagraphs_spec page
  obtain ⟨paragraph, among, low, high⟩ := spec.covered line lineIn body
  refine ⟨paragraph, among, Text.exists_word_of_infix nonempty solid (inLine.trans ?_)⟩
  obtain ⟨lineText, -, -⟩ := textLine_spec lineIn
  have short := length_withoutLineFeed_le line.2
  have cut : withoutLineFeed line.2 =
      slice line.1 (line.1 + (withoutLineFeed line.2).length - line.1)
        (normalizedPageText page.text) := by
    rw [Nat.add_sub_cancel_left]
    calc withoutLineFeed line.2
        = line.2.take (withoutLineFeed line.2).length :=
          List.prefix_iff_eq_take.mp (withoutLineFeed_isPrefix line.2)
      _ = (slice line.1 line.2.length (normalizedPageText page.text)).take
          (withoutLineFeed line.2).length := congrArg (List.take _) lineText
      _ = _ := by rw [slice, slice, List.take_take, min_eq_left short]
  rw [cut, spec.stored paragraph among]
  exact Text.slice_infix _ low high

/-! ## The text behind a prefix -/

theorem rstrip_eq_self {text : Text}
    (ends : ∀ char, text.getLast? = some char → isSpace char = false) :
    Text.rstrip text = text := by
  rcases List.eq_nil_or_concat text with rfl | ⟨front, char, rfl⟩
  · rfl
  · have solid := ends char (by simp)
    rw [List.concat_eq_append, Text.rstrip, Text.rstripBy]
    exact List.rdropWhile_concat_neg _ _ _ (by simp [solid])

theorem beforeLast_append {separator : Char} {front back : Text} (absent : separator ∉ back) :
    Text.beforeLast separator (front ++ separator :: back) = front := by
  have skipped : (back.reverse ++ separator :: front.reverse).dropWhile
      (fun char => char ≠ separator) = separator :: front.reverse := by
    rw [List.dropWhile_append_of_pos]
    · simp
    · intro char charIn
      have other : char ≠ separator := fun same => absent (same ▸ List.mem_reverse.mp charIn)
      simpa using other
  rw [Text.beforeLast, if_pos (by simp)]
  simp only [List.reverse_append, List.reverse_cons, List.append_assoc, List.singleton_append]
  rw [skipped]
  simp

theorem length_rstrip_le (text : Text) : (Text.rstrip text).length ≤ text.length :=
  (List.rdropWhile_prefix (fun char => isSpace char) text).length_le

theorem length_boundedChunkText_le (chunkPrefix body : Text) :
    (boundedChunkText chunkPrefix body).length ≤ maxChunkChars := by
  simp only [boundedChunkText]
  split
  next short => exact short
  next =>
    split
    next cut =>
      have front := (solid_beforeLast cut.1).length_le
      have room := List.length_take_le maxChunkChars
        (squeeze (Text.join " " ([chunkPrefix, body].filter fun part => Text.strip part ≠ [])))
      exact (length_rstrip_le _).trans (front.trans room)
    next => exact (length_rstrip_le _).trans (List.length_take_le _ _)

/-- The text before it is cut. -/
theorem combined_eq {chunkPrefix body : Text} (visible : squeeze body ≠ []) :
    squeeze (Text.join " " ([chunkPrefix, body].filter fun part => Text.strip part ≠ [])) =
      if squeeze chunkPrefix = [] then squeeze body
      else squeeze chunkPrefix ++ ' ' :: squeeze body := by
  have shown : ∀ text : Text, Text.strip text ≠ [] ↔ squeeze text ≠ [] := by
    intro text
    rw [ne_eq, ne_eq, not_iff_not, Text.squeeze_eq_nil_iff]
    constructor
    · intro empty char charIn
      by_contra solid
      exact strip_ne_nil charIn (by simpa using solid) empty
    · exact strip_eq_nil_of_blank
  by_cases empty : squeeze chunkPrefix = []
  · have dropped : ¬ Text.strip chunkPrefix ≠ [] := by simp [shown, empty]
    rw [List.filter_cons_of_neg (by simpa using dropped),
      List.filter_cons_of_pos (by simpa using (shown body).mpr visible), if_pos empty]
    simp [Text.join, List.intercalate]
  · rw [List.filter_cons_of_pos (by simpa using (shown chunkPrefix).mpr empty),
      List.filter_cons_of_pos (by simpa using (shown body).mpr visible), if_neg empty,
      List.filter_nil, Text.join_cons, ← Text.squeeze_append_blank empty visible]
    simp [Text.join, List.intercalate]

section Bounded

variable {chunkPrefix body : Text} (prefixSqueezed : squeeze chunkPrefix = chunkPrefix)

theorem boundedChunkText_nil (visible : squeeze body ≠ [])
    (room : (squeeze body).length ≤ maxChunkChars) :
    boundedChunkText [] body = squeeze body := by
  rw [boundedChunkText, combined_eq visible, if_pos Text.squeeze_nil]
  exact if_pos room

include prefixSqueezed

theorem boundedChunkText_fits (nonempty : chunkPrefix ≠ []) (visible : squeeze body ≠ [])
    (room : chunkPrefix.length + 1 + (squeeze body).length ≤ maxChunkChars) :
    boundedChunkText chunkPrefix body = chunkPrefix ++ ' ' :: squeeze body := by
  rw [boundedChunkText, combined_eq visible, prefixSqueezed, if_neg nonempty]
  apply if_pos
  simp only [List.length_append, List.length_cons]
  omega

/-- Of a word that does not fit, the front is kept or nothing. -/
theorem boundedChunkText_long (nonempty : chunkPrefix ≠ [])
    (short : chunkPrefix.length ≤ 900) (solid : ∀ char ∈ body, isSpace char = false)
    (long : maxChunkChars < chunkPrefix.length + 1 + body.length) :
    boundedChunkText chunkPrefix body = chunkPrefix ∨
      boundedChunkText chunkPrefix body =
        chunkPrefix ++ ' ' :: body.take (maxChunkChars - chunkPrefix.length - 1) := by
  have limit : maxChunkChars = 1200 := rfl
  have squeezed := Text.squeeze_of_solid solid
  have visible : squeeze body ≠ [] := by
    rw [squeezed]
    apply List.ne_nil_of_length_pos
    omega
  have ends : ∀ char, chunkPrefix.getLast? = some char → isSpace char = false := by
    intro char last
    rw [← prefixSqueezed] at last
    exact Text.getLast_squeeze_solid last
  have frontSolid : ∀ char ∈ body.take (maxChunkChars - chunkPrefix.length - 1),
      isSpace char = false := fun char charIn => solid char (List.mem_of_mem_take charIn)
  have noBlank : ' ' ∉ body.take (maxChunkChars - chunkPrefix.length - 1) := fun blankIn =>
    absurd (frontSolid ' ' blankIn) (by decide)
  have trimmed : (chunkPrefix ++ ' ' :: body).take maxChunkChars =
      chunkPrefix ++ ' ' :: body.take (maxChunkChars - chunkPrefix.length - 1) := by
    have room : maxChunkChars - chunkPrefix.length =
        (maxChunkChars - chunkPrefix.length - 1) + 1 := by omega
    rw [List.take_append, List.take_of_length_le (by omega), room, List.take_succ_cons,
      Nat.add_sub_cancel]
  rw [boundedChunkText, combined_eq visible, prefixSqueezed, if_neg nonempty, squeezed]
  simp only [trimmed, beforeLast_append noBlank]
  rw [if_neg (by simp only [List.length_append, List.length_cons]; omega)]
  split
  · exact .inl (rstrip_eq_self ends)
  · refine .inr (rstrip_eq_self fun char last => frontSolid char ?_)
    have some_ : body.take (maxChunkChars - chunkPrefix.length - 1) ≠ [] := by
      apply List.ne_nil_of_length_pos
      rw [List.length_take]
      omega
    rw [List.getLast?_append, List.getLast?_cons] at last
    obtain ⟨front, end_, shape⟩ := (List.eq_nil_or_concat _).resolve_left some_
    simp only [shape, List.concat_eq_append, List.getLast?_append, List.getLast?_singleton,
      Option.some_or, Option.getD_some, Option.some.injEq] at last
    rw [shape, List.concat_eq_append, last]
    simp

end Bounded

section Chunks

variable [Unicode]

/-- A prefix has no blanks to collapse. -/
theorem chunkPrefix_squeezed (page : WikiPage) (breadcrumb : List Text) :
    squeeze (chunkPrefix page breadcrumb) = chunkPrefix page breadcrumb := by
  have joined : ∀ parts : List Text, parts.length ≤ 2 → (∀ part ∈ parts, Text.strip part ≠ []) →
      squeeze (Text.join " " (parts.map squeeze)) = Text.join " " (parts.map squeeze) := by
    intro parts few visible
    have shown : ∀ part ∈ parts, squeeze part ≠ [] := by
      intro part partIn
      obtain ⟨char, charIn, solid⟩ := exists_solid (visible part partIn)
      exact Text.squeeze_ne_nil charIn solid
    cases parts with
    | nil => rfl
    | cons first rest =>
        cases rest with
        | nil => simpa [Text.join, List.intercalate] using Text.squeeze_squeeze first
        | cons second more =>
            obtain rfl : more = [] := by
              apply List.eq_nil_of_length_eq_zero
              simp only [List.length_cons] at few
              omega
            have firstShown := shown first List.mem_cons_self
            have secondShown := shown second (by simp)
            have two : Text.join " " ([first, second].map squeeze) =
                squeeze first ++ ' ' :: squeeze second := by
              simp [Text.join, List.intercalate]
            rw [two, Text.squeeze_append_blank (by rwa [Text.squeeze_squeeze])
              (by rwa [Text.squeeze_squeeze]), Text.squeeze_squeeze, Text.squeeze_squeeze]
  simp only [chunkPrefix]
  apply joined
  · refine (List.length_filter_le _ _).trans ?_
    split <;> simp
  · intro part partIn
    simpa using (List.mem_filter.mp partIn).2

variable [Hashing]

theorem mem_pageChunks (page : WikiPage) {entry : (Nat × Nat) × Text} :
    entry ∈ (pageChunks page).map (fun chunk => (chunk.span, chunk.text)) ↔
      ∃ paragraph ∈ pageParagraphs page,
        ∃ segment ∈ splitParagraph paragraph (paragraphLimit page paragraph),
          (segment.span, boundedChunkText (chunkPrefix page paragraph.breadcrumb) segment.text) =
            entry := by
  have entries : ∀ entries : List (List Text × (Segment × Text)),
      (entries.zipIdx.map ((fun chunk : VectorChunk => (chunk.span, chunk.text)) ∘ fun entry =>
        vectorChunk page entry.1.1 entry.1.2 entry.2)) =
      entries.map fun entry => (entry.2.1.span, entry.2.2) := by
    intro entries
    rw [← List.zipIdx_map_fst 0 entries, List.map_map, List.zipIdx_map_fst]
    rfl
  rw [pageChunks, List.map_map, entries, List.map_flatMap, List.mem_flatMap]
  refine exists_congr fun paragraph => and_congr_right fun _ => ?_
  rw [paragraphTexts_eq]
  simp only [List.map_map, List.mem_map, Function.comp_apply]

/-- Every chunk is embedded with the whole text it is recorded for, and every word outside
headings with some chunk. -/
def EmbedsAll (page : WikiPage) : Prop :=
  let text := normalizedPageText page.text
  (∀ chunk ∈ buildVectorChunks [page], chunk.text.length ≤ maxChunkChars ∧
    squeeze (slice chunk.start (chunk.end_ - chunk.start) text) <:+: chunk.text) ∧
  ∀ line ∈ textLines text, headingOf line.2 = none → ∀ word ∈ Text.split line.2,
    ∃ chunk ∈ buildVectorChunks [page], word <:+: chunk.text

def FitsBehind (chunkPrefix word : Text) : Prop :=
  if chunkPrefix = [] then word.length ≤ maxChunkChars
  else chunkPrefix.length + 1 + word.length ≤ maxChunkChars ∨ word <:+: chunkPrefix

instance (chunkPrefix word : Text) : Decidable (FitsBehind chunkPrefix word) := by
  unfold FitsBehind
  infer_instance

omit [Hashing] in
theorem segment_text {page : WikiPage} {paragraph : Paragraph}
    (among : paragraph ∈ pageParagraphs page) {segment : Segment}
    (segmentIn : segment ∈ splitParagraph paragraph (paragraphLimit page paragraph)) :
    slice segment.start (segment.end_ - segment.start) (normalizedPageText page.text) =
      segment.text := by
  have spec := pageParagraphs_spec page
  have inside := (segments_inside page among).bounds (List.mem_map_of_mem segmentIn)
  simp only [Segment.span] at inside
  obtain ⟨groups, grouped⟩ := exists_grouped paragraph (paragraphLimit page paragraph)
  rw [grouped.segments] at segmentIn
  obtain ⟨group, groupIn, cut⟩ := List.mem_flatMap.mp segmentIn
  obtain ⟨low, high, stored, -⟩ := (grouped.cuts group groupIn).stored segment cut
  have bounds := spec.ordered.bounds (List.mem_map_of_mem among)
  simp only [Paragraph.span] at bounds
  rw [stored, spec.stored paragraph among, Text.slice_slice _ _ _ _ _ (by omega),
    Nat.add_sub_cancel' inside.1]

section Groups

variable {page : WikiPage} {paragraph : Paragraph} {groups : List WordGroup}
  (grouped : Grouped paragraph (paragraphLimit page paragraph) groups)

include grouped

omit [Hashing] in
theorem group_embedded (short : (chunkPrefix page paragraph.breadcrumb).length ≤ 900)
    (fits : ∀ word ∈ Text.split paragraph.text,
      FitsBehind (chunkPrefix page paragraph.breadcrumb) word)
    {group : WordGroup} (groupIn : group ∈ groups) :
    groupSegments paragraph group =
        [⟨group.part paragraph, paragraph.start + group.first.start,
          paragraph.start + group.last.end_⟩] ∧
      squeeze (group.part paragraph) <:+:
        boundedChunkText (chunkPrefix page paragraph.breadcrumb) (group.part paragraph) := by
  have limit : maxChunkChars = 1200 := rfl
  have prefixSqueezed := chunkPrefix_squeezed page paragraph.breadcrumb
  have firstIn := grouped.words group groupIn group.first List.mem_cons_self
  have placed := Text.wordMatches_at firstIn
  have firstFits : FitsBehind (chunkPrefix page paragraph.breadcrumb) group.first.text := by
    apply fits
    rw [← Text.wordMatches_text]
    exact List.mem_map_of_mem firstIn
  have held : group.first.text <:+: group.part paragraph := by
    rw [← placed.slice_eq]
    exact Text.slice_infix paragraph.text le_rfl
      (grouped.inside group groupIn group.first List.mem_cons_self).2
  have visible : squeeze (group.part paragraph) ≠ [] := by
    obtain ⟨char, rest, shape⟩ := List.exists_cons_of_ne_nil placed.nonempty
    have charIn : char ∈ group.first.text := shape ▸ List.mem_cons_self
    exact Text.squeeze_ne_nil (held.subset charIn) (placed.solid char charIn)
  have squeezeLe := Text.length_squeeze_le (group.part paragraph)
  have single := @WordGroup.part_single _ group placed
  unfold FitsBehind at firstFits
  rcases groupSegments_cases paragraph (grouped.fits group groupIn) (segmentLimit_le _) with
    ⟨whole, wholeShort⟩ | ⟨alone, long⟩
  · refine ⟨whole, ?_⟩
    by_cases empty : chunkPrefix page paragraph.breadcrumb = []
    · rw [empty, boundedChunkText_nil visible (by omega)]
    · rw [if_neg empty] at firstFits
      by_cases room : (chunkPrefix page paragraph.breadcrumb).length + 1 +
          (squeeze (group.part paragraph)).length ≤ maxChunkChars
      · rw [boundedChunkText_fits prefixSqueezed empty visible room]
        exact ((List.suffix_cons _ _).trans (List.suffix_append _ _)).isInfix
      · -- Only a single word may be too long for the room, and it stands in the prefix.
        have alone : group.rest = [] := by
          refine (grouped.fits group groupIn).resolve_right fun within => room ?_
          have cut := List.length_take_le (group.last.end_ - group.first.start)
            (paragraph.text.drop group.first.start)
          have partLength : (group.part paragraph).length ≤
              group.last.end_ - group.first.start := cut
          simp only [paragraphLimit, segmentLimit] at within
          omega
        rw [single alone] at room squeezeLe ⊢
        rw [Text.squeeze_of_solid placed.solid] at room ⊢
        have inside := firstFits.resolve_left room
        rcases boundedChunkText_long prefixSqueezed empty short placed.solid (by omega) with
          same | same
        · rwa [same]
        · rw [same]
          exact inside.trans (List.prefix_append _ _).isInfix
  · exfalso
    rw [single alone] at long
    by_cases empty : chunkPrefix page paragraph.breadcrumb = []
    · rw [if_pos empty] at firstFits
      omega
    · rw [if_neg empty] at firstFits
      rcases firstFits with room | inside
      · omega
      · have shorter := inside.length_le
        omega

omit [Hashing] in
theorem fitsBehind_of_embedded (short : (chunkPrefix page paragraph.breadcrumb).length ≤ 900)
    (embedded : ∀ segment ∈ splitParagraph paragraph (paragraphLimit page paragraph),
      squeeze segment.text <:+:
        boundedChunkText (chunkPrefix page paragraph.breadcrumb) segment.text)
    {word : Text} (wordIn : word ∈ Text.split paragraph.text)
    (wordShort : word.length ≤ maxChunkChars) :
    FitsBehind (chunkPrefix page paragraph.breadcrumb) word := by
  have limit : maxChunkChars = 1200 := rfl
  unfold FitsBehind
  split
  next => exact wordShort
  next nonempty =>
    by_cases room : (chunkPrefix page paragraph.breadcrumb).length + 1 + word.length ≤ maxChunkChars
    · exact .inl room
    · right
      obtain ⟨found, foundIn, rfl⟩ := exists_wordMatch wordIn
      have placed := Text.wordMatches_at foundIn
      obtain ⟨group, groupIn, wordGrouped⟩ := grouped.holds found foundIn
      have inside := grouped.inside group groupIn found wordGrouped
      have size : found.end_ = found.start + found.text.length := rfl
      -- The word is too long for a group of several words.
      have alone : group.rest = [] := by
        refine (grouped.fits group groupIn).resolve_right fun within => ?_
        simp only [paragraphLimit, segmentLimit] at within
        omega
      have same : found = group.first := by simpa [WordGroup.words, alone] using wordGrouped
      subst same
      have single := @WordGroup.part_single _ group placed alone
      rcases groupSegments_cases paragraph (grouped.fits group groupIn) (segmentLimit_le _) with
        ⟨whole, -⟩ | ⟨-, long⟩
      · have held := embedded _ (by
          rw [grouped.segments]
          exact List.mem_flatMap.mpr ⟨group, groupIn, whole ▸ List.mem_singleton_self _⟩)
        rw [single, Text.squeeze_of_solid placed.solid] at held
        rcases boundedChunkText_long (chunkPrefix_squeezed page paragraph.breadcrumb) nonempty
          short placed.solid (by omega) with bounded | bounded
        · rwa [bounded] at held
        · rw [bounded] at held
          have noBlank : ' ' ∉ group.first.text := fun blankIn =>
            absurd (placed.solid ' ' blankIn) (by decide)
          refine (Text.infix_of_append_cons held noBlank).resolve_right fun inTail => ?_
          have shorter := inTail.length_le
          rw [List.length_take] at shorter
          omega
      · rw [single] at long
        omega

end Groups

/-- A page whose prefixes leave room is embedded as a whole if and only if every word fits behind
the prefix of its paragraph, or stands in it. -/
theorem embedsAll_iff (page : WikiPage)
    (short : ∀ paragraph ∈ pageParagraphs page,
      (chunkPrefix page paragraph.breadcrumb).length ≤ 900) :
    EmbedsAll page ↔
      ∀ paragraph ∈ pageParagraphs page, ∀ word ∈ Text.split paragraph.text,
        FitsBehind (chunkPrefix page paragraph.breadcrumb) word := by
  have built : buildVectorChunks [page] = pageChunks page := by simp [buildVectorChunks]
  rw [EmbedsAll, built]
  constructor
  · rintro ⟨chunks, words⟩ paragraph among word wordIn
    obtain ⟨groups, grouped⟩ := exists_grouped paragraph (paragraphLimit page paragraph)
    apply fitsBehind_of_embedded grouped (short paragraph among) _ wordIn
    · -- A word longer than a chunk lies in no chunk.
      obtain ⟨line, lineIn, plain, lineWord, lineWordIn, inside⟩ := exists_lineWord page among wordIn
      obtain ⟨chunk, chunkIn, held⟩ := words line lineIn plain lineWord lineWordIn
      exact (inside.trans held).length_le.trans (chunks chunk chunkIn).1
    · intro segment segmentIn
      obtain ⟨chunk, chunkIn, same⟩ := List.mem_map.mp
        ((mem_pageChunks page).mpr ⟨paragraph, among, segment, segmentIn, rfl⟩)
      have held := (chunks chunk chunkIn).2
      simp only [VectorChunk.span, Segment.span, Prod.mk.injEq] at same
      rw [same.1.1, same.1.2, same.2, segment_text among segmentIn] at held
      exact held
  · intro fits
    refine ⟨fun chunk chunkIn => ?_, fun line lineIn plain word wordIn => ?_⟩
    · obtain ⟨paragraph, among, segment, segmentIn, same⟩ :=
        (mem_pageChunks page).mp (List.mem_map_of_mem chunkIn)
      simp only [VectorChunk.span, Segment.span, Prod.mk.injEq] at same
      rw [← same.1.1, ← same.1.2, ← same.2, segment_text among segmentIn]
      refine ⟨length_boundedChunkText_le _ _, ?_⟩
      obtain ⟨groups, grouped⟩ := exists_grouped paragraph (paragraphLimit page paragraph)
      rw [grouped.segments] at segmentIn
      obtain ⟨group, groupIn, cut⟩ := List.mem_flatMap.mp segmentIn
      obtain ⟨whole, held⟩ :=
        group_embedded grouped (short paragraph among) (fits paragraph among) groupIn
      rw [whole, List.mem_singleton] at cut
      rw [cut]
      exact held
    · obtain ⟨paragraph, among, longer, longerIn, inside⟩ := exists_paragraphWord page lineIn plain wordIn
      obtain ⟨groups, grouped⟩ := exists_grouped paragraph (paragraphLimit page paragraph)
      obtain ⟨found, foundIn, rfl⟩ := exists_wordMatch longerIn
      have placed := Text.wordMatches_at foundIn
      obtain ⟨group, groupIn, wordGrouped⟩ := grouped.holds found foundIn
      obtain ⟨whole, held⟩ :=
        group_embedded grouped (short paragraph among) (fits paragraph among) groupIn
      have segmentIn : (⟨group.part paragraph, paragraph.start + group.first.start,
          paragraph.start + group.last.end_⟩ : Segment) ∈
          splitParagraph paragraph (paragraphLimit page paragraph) := by
        rw [grouped.segments]
        exact List.mem_flatMap.mpr ⟨group, groupIn, whole ▸ List.mem_singleton_self _⟩
      obtain ⟨chunk, chunkIn, same⟩ := List.mem_map.mp
        ((mem_pageChunks page).mpr ⟨paragraph, among, _, segmentIn, rfl⟩)
      refine ⟨chunk, chunkIn, inside.trans ?_⟩
      rw [(Prod.mk.inj same).2]
      refine List.IsInfix.trans ?_ held
      rw [← Text.squeeze_of_solid placed.solid]
      apply Text.squeeze_infix
      have bounds := grouped.inside group groupIn found wordGrouped
      rw [← placed.slice_eq]
      exact Text.slice_infix paragraph.text bounds.1 bounds.2

end Chunks

def linePage (text : Text) : WikiPage where
  id := "page"
  title := "Title"
  path := "page.md"
  role := .topic
  text := text

theorem embedsAll_words :
    @EmbedsAll Unicode.ascii Hashing.transparent (linePage "Some words to embed") :=
  (@embedsAll_iff Unicode.ascii Hashing.transparent (linePage "Some words to embed")
    (by decide +kernel)).mpr (by decide +kernel)

def longPage : WikiPage := linePage (List.replicate 1200 'a')

/-- The last six characters of a word of 1200 are not embedded behind a title of five. -/
theorem long_word_cut :
    (∀ paragraph ∈ pageParagraphs longPage,
      (@chunkPrefix Unicode.ascii longPage paragraph.breadcrumb).length ≤ 900) ∧
    ¬ @EmbedsAll Unicode.ascii Hashing.transparent longPage := by
  refine ⟨by decide +kernel, fun embeds => ?_⟩
  have cut : ∃ chunk ∈ @buildVectorChunks Unicode.ascii Hashing.transparent [longPage],
      chunk.text.length ≤ (squeeze (slice chunk.start (chunk.end_ - chunk.start)
        (normalizedPageText longPage.text))).length ∧
      squeeze (slice chunk.start (chunk.end_ - chunk.start)
        (normalizedPageText longPage.text)) ≠ chunk.text := by decide +kernel
  obtain ⟨chunk, chunkIn, short, other⟩ := cut
  exact other ((embeds.1 chunk chunkIn).2.eq_of_length_le short)

end LlmWikiServe.VectorChunks
