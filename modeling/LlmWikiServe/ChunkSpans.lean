import LlmWikiServe.PageParagraphs

/-!
# Spans of chunks

The words of a paragraph fall into groups, a group gives one segment or is cut into pieces, and
no segment is left out; so the chunks of a page hold its visible text outside headings once.
-/

namespace LlmWikiServe.VectorChunks

open Text (WordMatch squeeze slice isSpace)
open Spans (Ordered Holds)

/-! ## Groups of words -/

/-- Words that follow each other. -/
structure WordGroup where
  first : WordMatch
  rest : List WordMatch

namespace WordGroup

def words (group : WordGroup) : List WordMatch := group.first :: group.rest

def last (group : WordGroup) : WordMatch := group.words.getLast (List.cons_ne_nil _ _)

def add (group : WordGroup) (found : WordMatch) : WordGroup :=
  { group with rest := group.rest ++ [found] }

/-- A group of several words is as long as a segment may be. -/
def Fits (maxChars : Nat) (group : WordGroup) : Prop :=
  group.rest = [] ∨ group.last.end_ - group.first.start ≤ maxChars

theorem words_add (group : WordGroup) (found : WordMatch) :
    (group.add found).words = group.words ++ [found] := rfl

theorem last_add (group : WordGroup) (found : WordMatch) : (group.add found).last = found := by
  simp [last, words, add]

end WordGroup

def wordSpan (found : WordMatch) : Nat × Nat := (found.start, found.end_)

def groupSegments (paragraph : Paragraph) (group : WordGroup) : List Segment :=
  paragraphSegment paragraph group.first group.last

/-- The loop over the words closes groups that fit and keeps one open. -/
theorem scanWords_groups (paragraph : Paragraph) (maxChars : Nat) (found : List WordMatch)
    (segments : List Segment) {group : WordGroup} (fits : group.Fits maxChars) :
    ∃ groups : List WordGroup,
      groups.flatMap WordGroup.words = group.words ++ found ∧
      (∀ other ∈ groups, other.Fits maxChars) ∧
      let scan := found.foldl (scanWord paragraph maxChars)
        ⟨segments, group.first, group.last, group.words.length⟩
      scan.segments ++ paragraphSegment paragraph scan.first scan.last =
        segments ++ groups.flatMap (groupSegments paragraph) := by
  induction found generalizing segments group with
  | nil => exact ⟨[group], by simp, by simpa using fits, by simp [groupSegments]⟩
  | cons word rest inductionHypothesis =>
      rw [List.foldl_cons, scanWord]
      split
      next exceeds =>
        obtain ⟨groups, words, fit, same⟩ :=
          @inductionHypothesis (segments ++ groupSegments paragraph group) ⟨word, []⟩ (.inl rfl)
        refine ⟨group :: groups, ?_, ?_, ?_⟩
        · rw [List.flatMap_cons, words]
          rfl
        · exact List.forall_mem_cons.mpr ⟨fits, fit⟩
        · rw [List.flatMap_cons, ← List.append_assoc]
          exact same
      next within =>
        have some_ : group.words.length ≠ 0 := by simp [WordGroup.words]
        have short : word.end_ - group.first.start ≤ maxChars := by
          by_contra long
          exact within ⟨some_, .inl (by simp only; omega)⟩
        obtain ⟨groups, words, fit, same⟩ :=
          @inductionHypothesis segments (group.add word) (.inr (by rw [group.last_add]; exact short))
        refine ⟨groups, ?_, fit, ?_⟩
        · rw [words, group.words_add, List.append_assoc, List.singleton_append]
        · rw [group.last_add, group.words_add, List.length_append] at same
          exact same

theorem splitParagraph_groups (paragraph : Paragraph) (maxChars : Nat) :
    ∃ groups : List WordGroup,
      groups.flatMap WordGroup.words = Text.wordMatches paragraph.text ∧
      (∀ group ∈ groups, group.Fits maxChars) ∧
      splitParagraph paragraph maxChars = groups.flatMap (groupSegments paragraph) := by
  unfold splitParagraph
  split
  next none_ => exact ⟨[], by simp [none_], by simp, rfl⟩
  next found rest shape =>
    obtain ⟨groups, words, fit, same⟩ :=
      @scanWords_groups paragraph maxChars rest [] ⟨found, []⟩ (.inl rfl)
    have begun : scanWord paragraph maxChars { first := found, last := found } found =
        ⟨[], found, found, 1⟩ := by simp [scanWord]
    refine ⟨groups, words.trans shape.symm, fit, ?_⟩
    rw [List.foldl_cons, begun]
    exact same

theorem WordGroup.ordered {low high : Nat} {group : WordGroup} {others : List WordMatch}
    (ordered : Ordered low high ((group.words ++ others).map wordSpan)) :
    low ≤ group.first.start ∧ group.first.start < group.last.end_ ∧
      Ordered group.last.end_ high (others.map wordSpan) ∧
      ∀ word ∈ group.words, group.first.start ≤ word.start ∧ word.end_ ≤ group.last.end_ := by
  obtain ⟨first, rest⟩ := group
  induction rest generalizing low first with
  | nil =>
      obtain ⟨bound, nonempty, later⟩ := ordered.of_cons
      exact ⟨bound, nonempty, later, by simp [words, last]⟩
  | cons next rest inductionHypothesis =>
      obtain ⟨bound, nonempty, later⟩ := ordered.of_cons
      obtain ⟨nextBound, nextNonempty, further, inside⟩ := inductionHypothesis next later
      have sameLast : (WordGroup.mk first (next :: rest)).last = (WordGroup.mk next rest).last := by
        simp [last, words]
      rw [sameLast]
      simp only [wordSpan] at bound nonempty nextBound nextNonempty ⊢
      refine ⟨bound, by omega, further, fun word wordIn => ?_⟩
      rcases List.mem_cons.mp wordIn with rfl | later
      · exact ⟨le_rfl, by omega⟩
      · have held := inside word later
        simp only at held
        exact ⟨by omega, held.2⟩

/-! ## Segments -/

def Segment.span (segment : Segment) : Nat × Nat := (segment.start, segment.end_)

structure Cuts (text : Text) (offset start stop : Nat) (segments : List Segment) : Prop where
  ordered : Ordered (offset + start) (offset + stop) (segments.map Segment.span)
  covers : ∀ place, offset + start ≤ place → place < offset + stop →
    ∃ segment ∈ segments, Holds segment.span place
  stored : ∀ segment ∈ segments, offset + start ≤ segment.start ∧ segment.end_ ≤ offset + stop ∧
    segment.text = slice (segment.start - offset) (segment.end_ - segment.start) text ∧
    segment.end_ - segment.start ≤ maxChunkChars

theorem cutSegments_cuts (text : Text) (absoluteStart rounds : Nat) {cursor : Nat}
    (inside : cursor ≤ text.length) (enough : text.length - cursor ≤ rounds) :
    Cuts text absoluteStart cursor text.length (cutSegments text absoluteStart rounds cursor) := by
  induction rounds generalizing cursor with
  | zero =>
      rw [cutSegments]
      exact ⟨.nil (by omega), by intro place low high; omega, by simp⟩
  | succ rounds inductionHypothesis =>
      rw [cutSegments]
      split
      next goesOn =>
        have chars : 0 < maxChunkChars := by decide
        have later := @inductionHypothesis (min text.length (cursor + maxChunkChars)) (by omega)
          (by omega)
        refine ⟨.cons le_rfl (by simp only; omega) later.ordered, fun place low high => ?_, ?_⟩
        · rcases Nat.lt_or_ge place
              (absoluteStart + min text.length (cursor + maxChunkChars)) with here | beyond
          · exact ⟨_, List.mem_cons_self, low, here⟩
          · obtain ⟨segment, segmentIn, held⟩ := later.covers place beyond high
            exact ⟨segment, List.mem_cons_of_mem _ segmentIn, held⟩
        · refine List.forall_mem_cons.mpr ⟨⟨le_rfl, by simp only; omega, ?_, by simp only; omega⟩, ?_⟩
          · simp only [Nat.add_sub_cancel_left]
            congr 1
            omega
          · intro segment segmentIn
            have facts := later.stored segment segmentIn
            exact ⟨by omega, facts.2⟩
      next done => exact ⟨.nil (by omega), by intro place low high; omega, by simp⟩

theorem groupSegments_cuts (paragraph : Paragraph) {group : WordGroup}
    (nonempty : group.first.start < group.last.end_)
    (inside : group.last.end_ ≤ paragraph.text.length) :
    Cuts paragraph.text paragraph.start group.first.start group.last.end_
      (groupSegments paragraph group) := by
  have length := @Text.length_slice group.first.start (group.last.end_ - group.first.start)
    paragraph.text (by omega)
  simp only [groupSegments, paragraphSegment]
  split
  next short =>
    refine ⟨Ordered.singleton (show paragraph.start + group.first.start <
      paragraph.start + group.last.end_ by omega), fun place low high =>
      ⟨_, List.mem_singleton_self _, low, high⟩, ?_⟩
    refine List.forall_mem_cons.mpr ⟨⟨le_rfl, le_rfl, ?_, ?_⟩, by simp⟩
    · simp only [Nat.add_sub_cancel_left]
      congr 1
      omega
    · simp only
      omega
  next long =>
    have cuts := @cutSegments_cuts
      (slice group.first.start (group.last.end_ - group.first.start) paragraph.text)
      (paragraph.start + group.first.start)
      (slice group.first.start (group.last.end_ - group.first.start) paragraph.text).length 0
      (Nat.zero_le _) le_rfl
    have stop : paragraph.start + group.first.start +
        (slice group.first.start (group.last.end_ - group.first.start) paragraph.text).length =
        paragraph.start + group.last.end_ := by omega
    refine ⟨stop ▸ cuts.ordered, fun place low high => cuts.covers place low (by omega), ?_⟩
    intro segment segmentIn
    obtain ⟨low, high, stored, short⟩ := cuts.stored segment segmentIn
    have positive := (cuts.ordered.bounds (List.mem_map_of_mem segmentIn)).2.1
    simp only [Segment.span] at positive
    refine ⟨low, by omega, ?_, short⟩
    rw [stored, Text.slice_slice _ _ _ _ _ (by omega)]
    congr 1
    omega

structure Grouped (paragraph : Paragraph) (maxChars : Nat) (groups : List WordGroup) : Prop where
  segments : splitParagraph paragraph maxChars = groups.flatMap (groupSegments paragraph)
  fits : ∀ group ∈ groups, group.Fits maxChars
  words : ∀ group ∈ groups, ∀ word ∈ group.words, word ∈ Text.wordMatches paragraph.text
  holds : ∀ word ∈ Text.wordMatches paragraph.text, ∃ group ∈ groups, word ∈ group.words
  inside : ∀ group ∈ groups, ∀ word ∈ group.words,
    group.first.start ≤ word.start ∧ word.end_ ≤ group.last.end_
  cuts : ∀ group ∈ groups, Cuts paragraph.text paragraph.start group.first.start group.last.end_
    (groupSegments paragraph group)
  ordered : Ordered 0 paragraph.text.length
    (groups.map fun group => (group.first.start, group.last.end_))

theorem ordered_groups {low high : Nat} {groups : List WordGroup}
    (ordered : Ordered low high ((groups.flatMap WordGroup.words).map wordSpan)) :
    Ordered low high (groups.map fun group => (group.first.start, group.last.end_)) ∧
      ∀ group ∈ groups, ∀ word ∈ group.words,
        group.first.start ≤ word.start ∧ word.end_ ≤ group.last.end_ := by
  induction groups generalizing low with
  | nil => exact ⟨.nil ordered.le, by simp⟩
  | cons group rest inductionHypothesis =>
      rw [List.flatMap_cons] at ordered
      obtain ⟨bound, nonempty, later, inside⟩ := WordGroup.ordered ordered
      obtain ⟨restOrdered, restInside⟩ := inductionHypothesis later
      exact ⟨.cons bound nonempty restOrdered, List.forall_mem_cons.mpr ⟨inside, restInside⟩⟩

theorem exists_grouped (paragraph : Paragraph) (maxChars : Nat) :
    ∃ groups, Grouped paragraph maxChars groups := by
  obtain ⟨groups, words, fits, segments⟩ := splitParagraph_groups paragraph maxChars
  have wordsOrdered := Text.wordMatches_ordered paragraph.text
  rw [← words] at wordsOrdered
  obtain ⟨ordered, inside⟩ := ordered_groups wordsOrdered
  refine ⟨groups, segments, fits, fun group groupIn word wordIn => ?_, fun word wordIn => ?_,
    inside, fun group groupIn => ?_, ordered⟩
  · rw [← words]
    exact List.mem_flatMap.mpr ⟨group, groupIn, wordIn⟩
  · rw [← words] at wordIn
    exact List.mem_flatMap.mp wordIn
  · have bounds := ordered.bounds (List.mem_map_of_mem groupIn)
    exact groupSegments_cuts paragraph bounds.2.1 bounds.2.2

theorem Grouped.segments_ordered {paragraph : Paragraph} {maxChars : Nat}
    {groups : List WordGroup} (grouped : Grouped paragraph maxChars groups) :
    Ordered paragraph.start (paragraph.start + paragraph.text.length)
      ((splitParagraph paragraph maxChars).map Segment.span) := by
  have shifted : Ordered paragraph.start (paragraph.start + paragraph.text.length)
      (groups.map fun group =>
        (paragraph.start + group.first.start, paragraph.start + group.last.end_)) := by
    have moved := grouped.ordered.shift paragraph.start
    rw [List.map_map] at moved
    exact moved
  rw [grouped.segments, List.map_flatMap]
  exact shifted.flatMap fun group groupIn => (grouped.cuts group groupIn).ordered

def WordGroup.part (paragraph : Paragraph) (group : WordGroup) : Text :=
  slice group.first.start (group.last.end_ - group.first.start) paragraph.text

/-- Only a single word is cut into pieces. -/
theorem groupSegments_cases (paragraph : Paragraph) {maxChars : Nat} {group : WordGroup}
    (fits : group.Fits maxChars) (limit : maxChars ≤ maxChunkChars) :
    (groupSegments paragraph group =
        [⟨group.part paragraph, paragraph.start + group.first.start,
          paragraph.start + group.last.end_⟩] ∧ (group.part paragraph).length ≤ maxChunkChars) ∨
      (group.rest = [] ∧ maxChunkChars < (group.part paragraph).length) := by
  by_cases short : (group.part paragraph).length ≤ maxChunkChars
  · exact .inl ⟨if_pos short, short⟩
  · refine .inr ⟨fits.resolve_right fun within => short ?_, by omega⟩
    rw [WordGroup.part, slice, List.length_take]
    omega

theorem WordGroup.part_single {paragraph : Paragraph} {group : WordGroup}
    (placed : Text.WordAt paragraph.text group.first) (single : group.rest = []) :
    group.part paragraph = group.first.text := by
  have same : group.last = group.first := by simp [last, words, single]
  rw [part, same, placed.slice_eq]

theorem Cuts.infix_part {paragraph : Paragraph} {group : WordGroup}
    (cuts : Cuts paragraph.text paragraph.start group.first.start group.last.end_
      (groupSegments paragraph group)) {segment : Segment}
    (segmentIn : segment ∈ groupSegments paragraph group) :
    segment.text <:+: group.part paragraph ∧ segment.text.length = segment.end_ - segment.start ∨
      paragraph.text.length < group.last.end_ := by
  obtain ⟨low, high, stored, -⟩ := cuts.stored segment segmentIn
  have positive := (cuts.ordered.bounds (List.mem_map_of_mem segmentIn)).2.1
  simp only [Segment.span] at positive
  rcases Nat.lt_or_ge paragraph.text.length group.last.end_ with beyond | inside
  · exact .inr beyond
  · left
    have size : segment.end_ - segment.start =
        (segment.end_ - paragraph.start) - (segment.start - paragraph.start) := by omega
    refine ⟨?_, ?_⟩
    · rw [stored, size]
      exact Text.slice_infix paragraph.text (by omega) (by omega)
    · rw [stored, Text.length_slice (by omega)]

theorem Grouped.segment_visible {paragraph : Paragraph} {maxChars : Nat}
    {groups : List WordGroup} (grouped : Grouped paragraph maxChars groups)
    (limit : maxChars ≤ maxChunkChars) {segment : Segment}
    (segmentIn : segment ∈ splitParagraph paragraph maxChars) :
    ∃ char ∈ segment.text, isSpace char = false := by
  rw [grouped.segments] at segmentIn
  obtain ⟨group, groupIn, cut⟩ := List.mem_flatMap.mp segmentIn
  have cuts := grouped.cuts group groupIn
  have inside := (grouped.ordered.bounds (List.mem_map_of_mem groupIn)).2
  have placed := Text.wordMatches_at (grouped.words group groupIn group.first List.mem_cons_self)
  have positive := (cuts.ordered.bounds (List.mem_map_of_mem cut)).2.1
  simp only [Segment.span] at positive
  rcases groupSegments_cases paragraph (grouped.fits group groupIn) limit with
    ⟨whole, -⟩ | ⟨single, -⟩
  · -- The segment is the part of the group, which begins with a word.
    rw [whole, List.mem_singleton] at cut
    obtain ⟨char, rest, shape⟩ := List.exists_cons_of_ne_nil placed.nonempty
    have charIn : char ∈ group.first.text := shape ▸ List.mem_cons_self
    refine ⟨char, ?_, placed.solid char charIn⟩
    rw [cut]
    have held : group.first.text <:+: group.part paragraph := by
      rw [← placed.slice_eq]
      exact Text.slice_infix paragraph.text le_rfl 
        (grouped.inside group groupIn group.first List.mem_cons_self).2
    exact held.subset charIn
  · obtain ⟨held, length⟩ := (cuts.infix_part cut).resolve_right (by omega)
    rw [WordGroup.part_single placed single] at held
    obtain ⟨char, rest, shape⟩ := List.exists_cons_of_length_pos
      (show 0 < segment.text.length by omega)
    have charIn : char ∈ segment.text := shape ▸ List.mem_cons_self
    exact ⟨char, charIn, placed.solid char (held.subset charIn)⟩

/-! ## Embedded texts -/

theorem solid_beforeLast {separator : Char} {text : Text} (found : separator ∈ text) :
    Text.beforeLast separator text <+: text := by
  rw [Text.beforeLast, if_pos found]
  have suffix : (text.reverse.dropWhile fun char => char ≠ separator).tail <:+ text.reverse :=
    (List.tail_suffix _).trans (List.dropWhile_suffix _)
  simpa using List.reverse_prefix.mpr suffix

theorem rstrip_ne_nil {text : Text} {char : Char} (charIn : char ∈ text)
    (solid : isSpace char = false) : Text.rstrip text ≠ [] := by
  intro empty
  have all : ∀ other ∈ text, isSpace other = true :=
    List.rdropWhile_eq_nil_iff.mp empty
  rw [all char charIn] at solid
  exact absurd solid (by decide)

/-- A text is embedded for every body that shows something. -/
theorem boundedChunkText_ne_nil (chunkPrefix : Text) {body : Text} {char : Char}
    (charIn : char ∈ body) (solid : isSpace char = false) :
    boundedChunkText chunkPrefix body ≠ [] := by
  have kept : body ∈ [chunkPrefix, body].filter fun part => Text.strip part ≠ [] := by
    simp [strip_ne_nil charIn solid]
  have visible := Text.squeeze_ne_nil (@Text.mem_join " " _ _ _ kept charIn) solid
  obtain ⟨first, rest, shape⟩ := List.exists_cons_of_ne_nil visible
  have firstSolid := Text.head_squeeze_solid shape
  simp only [boundedChunkText]
  split
  · exact visible
  · rw [shape, maxChunkChars, List.take_succ_cons]
    split
    next cut =>
      -- The front is not empty and begins with the first character.
      have starts := solid_beforeLast cut.1
      have positive : 0 < (Text.beforeLast ' ' (first :: rest.take 1199)).length := by omega
      obtain ⟨head, tail, front⟩ := List.exists_cons_of_length_pos positive
      rw [front] at starts
      rw [front, (List.cons_prefix_cons.mp starts).1]
      exact rstrip_ne_nil List.mem_cons_self firstSolid
    next => exact rstrip_ne_nil List.mem_cons_self firstSolid

/-! ## The chunks of a page -/

section Chunks

variable [Unicode]

omit [Unicode] in
theorem segmentLimit_le (chunkPrefix : Text) : segmentLimit chunkPrefix ≤ maxChunkChars := by
  simp only [segmentLimit, maxChunkChars]
  omega

def paragraphLimit (page : WikiPage) (paragraph : Paragraph) : Nat :=
  segmentLimit (chunkPrefix page paragraph.breadcrumb)

/-- No segment is left out. -/
theorem paragraphTexts_eq (page : WikiPage) (paragraph : Paragraph) :
    paragraphTexts page paragraph =
      (splitParagraph paragraph (paragraphLimit page paragraph)).map fun segment =>
        (segment, boundedChunkText (chunkPrefix page paragraph.breadcrumb) segment.text) := by
  apply List.filter_eq_self.mpr
  intro entry entryIn
  obtain ⟨segment, segmentIn, rfl⟩ := List.mem_map.mp entryIn
  obtain ⟨groups, grouped⟩ := exists_grouped paragraph (paragraphLimit page paragraph)
  obtain ⟨char, charIn, solid⟩ := grouped.segment_visible (segmentLimit_le _) segmentIn
  simpa using boundedChunkText_ne_nil _ charIn solid

variable [Hashing]

def VectorChunk.span (chunk : VectorChunk) : Nat × Nat := (chunk.start, chunk.end_)

theorem pageChunks_spans (page : WikiPage) :
    (pageChunks page).map VectorChunk.span = (pageParagraphs page).flatMap fun paragraph =>
      (splitParagraph paragraph (paragraphLimit page paragraph)).map Segment.span := by
  rw [pageChunks, List.map_map]
  have spans : ∀ entries : List (List Text × (Segment × Text)),
      (entries.zipIdx.map (VectorChunk.span ∘ fun entry =>
        vectorChunk page entry.1.1 entry.1.2 entry.2)) =
      entries.map fun entry => entry.2.1.span := by
    intro entries
    rw [← List.zipIdx_map_fst 0 entries, List.map_map, List.zipIdx_map_fst]
    rfl
  rw [spans, List.map_flatMap]
  congr 1
  funext paragraph
  rw [paragraphTexts_eq, List.map_map, List.map_map]
  rfl

theorem pageChunks_ordinals (page : WikiPage) :
    (pageChunks page).map VectorChunk.ordinal = List.range (pageChunks page).length := by
  rw [pageChunks, List.map_map, List.length_map, List.length_zipIdx, List.range_eq_range',
    ← List.zipIdx_map_snd 0]
  rfl

omit [Hashing] in
theorem segments_inside (page : WikiPage) {paragraph : Paragraph}
    (among : paragraph ∈ pageParagraphs page) :
    Ordered paragraph.start paragraph.end_
      ((splitParagraph paragraph (paragraphLimit page paragraph)).map Segment.span) := by
  have spec := pageParagraphs_spec page
  have bounds := spec.ordered.bounds (List.mem_map_of_mem among)
  obtain ⟨groups, grouped⟩ := exists_grouped paragraph (paragraphLimit page paragraph)
  have ordered := grouped.segments_ordered
  simp only [Paragraph.span] at bounds
  rwa [spec.stored paragraph among, Text.length_slice (by omega),
    Nat.add_sub_cancel' (by omega)] at ordered

theorem pageChunks_ordered (page : WikiPage) :
    Ordered 0 (normalizedPageText page.text).length
      ((pageChunks page).map VectorChunk.span) := by
  rw [pageChunks_spans]
  exact (pageParagraphs_spec page).ordered.flatMap fun paragraph among =>
    segments_inside page among

theorem pageChunks_paragraph (page : WikiPage) {span : Nat × Nat} :
    span ∈ (pageChunks page).map VectorChunk.span ↔ ∃ paragraph ∈ pageParagraphs page,
      ∃ segment ∈ splitParagraph paragraph (paragraphLimit page paragraph),
        segment.span = span := by
  simp [pageChunks_spans]

omit [Hashing] in
/-- A visible character of a paragraph lies in a segment. -/
theorem segment_holds (page : WikiPage) {paragraph : Paragraph}
    (among : paragraph ∈ pageParagraphs page) {place : Nat} {char : Char}
    (read : (normalizedPageText page.text)[place]? = some char) (solid : isSpace char = false)
    (held : Holds paragraph.span place) :
    ∃ segment ∈ splitParagraph paragraph (paragraphLimit page paragraph),
      Holds segment.span place := by
  have low : paragraph.start ≤ place := held.1
  have high : place < paragraph.end_ := held.2
  have inner : paragraph.text[place - paragraph.start]? = some char := by
    rw [(pageParagraphs_spec page).stored paragraph among, slice,
      List.getElem?_take_of_lt (by omega), List.getElem?_drop, Nat.add_sub_cancel' low]
    exact read
  obtain ⟨word, wordIn, wordLow, wordHigh⟩ := Text.wordMatches_covers inner solid
  simp only at wordLow wordHigh
  obtain ⟨groups, grouped⟩ := exists_grouped paragraph (paragraphLimit page paragraph)
  obtain ⟨group, groupIn, wordGrouped⟩ := grouped.holds word wordIn
  have inside := grouped.inside group groupIn word wordGrouped
  obtain ⟨segment, segmentIn, covered⟩ :=
    (grouped.cuts group groupIn).covers place (by omega) (by omega)
  refine ⟨segment, ?_, covered⟩
  rw [grouped.segments]
  exact List.mem_flatMap.mpr ⟨group, groupIn, segmentIn⟩

def OnHeading (text : Text) (place : Nat) : Prop :=
  ∃ line ∈ textLines text, (headingOf line.2).isSome ∧
    Holds (line.1, line.1 + line.2.length) place

/-- The chunks of a page have the ordinals 0, 1, 2, …, and their spans partition the visible text
outside headings. -/
theorem vectorChunks_partition (page : WikiPage) :
    let text := normalizedPageText page.text
    let chunks := buildVectorChunks [page]
    chunks.map VectorChunk.ordinal = List.range chunks.length ∧
      (∀ chunk ∈ chunks, chunk.start < chunk.end_ ∧ chunk.end_ ≤ text.length) ∧
      (chunks.Pairwise fun first second =>
        first.start < second.start ∧ first.end_ ≤ second.start) ∧
      (∀ chunk ∈ chunks, ∀ line ∈ textLines text, (headingOf line.2).isSome →
        chunk.end_ ≤ line.1 ∨ line.1 + line.2.length ≤ chunk.start) ∧
      ∀ place char, text[place]? = some char → isSpace char = false → ¬ OnHeading text place →
        chunks.countP (fun chunk => Holds chunk.span place) = 1 := by
  intro text chunks
  have same : chunks = pageChunks page := by simp [chunks, buildVectorChunks]
  rw [same]
  have spec := pageParagraphs_spec page
  have ordered := pageChunks_ordered page
  have bounds : ∀ chunk ∈ pageChunks page, chunk.start < chunk.end_ ∧ chunk.end_ ≤ text.length :=
    fun chunk chunkIn => (ordered.bounds (List.mem_map_of_mem chunkIn)).2
  refine ⟨pageChunks_ordinals page, bounds, ?_, ?_, ?_⟩
  · have pairwise := List.pairwise_map.mp ordered.pairwise
    refine pairwise.imp_of_mem fun {first second} firstIn secondIn apart => ⟨?_, apart⟩
    exact lt_of_lt_of_le (bounds first firstIn).1 apart
  · intro chunk chunkIn line lineIn heading
    obtain ⟨paragraph, among, segment, segmentIn, here⟩ :=
      (pageChunks_paragraph page).mp (List.mem_map_of_mem chunkIn)
    have inside := (segments_inside page among).bounds (List.mem_map_of_mem segmentIn)
    rw [here] at inside
    simp only [VectorChunk.span] at inside
    rcases spec.apart line lineIn heading paragraph among with after | before
    · exact .inl (inside.2.2.trans after)
    · exact .inr (before.trans inside.1)
  · intro place char read solid off
    obtain ⟨line, lineIn, low, high, lineRead⟩ := exists_textLine read
    have plain : headingOf line.2 = none := by
      by_contra heading
      exact off ⟨line, lineIn, Option.isSome_iff_ne_none.mpr heading, low, high⟩
    have inLine := getElem?_withoutLineFeed lineRead solid
    have body : IsBody line.2 := ⟨plain, strip_ne_nil (List.mem_of_getElem? inLine) solid⟩
    have short := (List.getElem?_eq_some_iff.mp inLine).1
    obtain ⟨paragraph, among, before, behind⟩ := spec.covered line lineIn body
    obtain ⟨segment, segmentIn, held⟩ := segment_holds page among read solid
      ⟨before.trans low, show place < paragraph.end_ by omega⟩
    have once := @Spans.Ordered.countP_holds _ _ _ ordered place ⟨segment.span,
      (pageChunks_paragraph page).mpr ⟨paragraph, among, segment, segmentIn, rfl⟩, held⟩
    rwa [List.countP_map] at once

end Chunks

end LlmWikiServe.VectorChunks
