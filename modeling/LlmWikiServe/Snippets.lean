import LlmWikiServe.VectorResults

/-!
# Snippets

How long the snippets of results are, and whether a literal result shows its hit.  A snippet is a
collapsed window of the text of its page; a longer one is cut one character short of the limit and
gets three dots.
-/

namespace LlmWikiServe.Snippets

open Text (isSpace squeeze startsBlank squeeze_cons)

/-! ## Cut texts -/

/-- The end of both snippet builders. -/
def shortened (limit : Nat) (clean : Text) : Text :=
  if clean.length ≤ limit then clean else Text.rstrip (clean.take (limit - 1)) ++ ("..." : Text)

/-- Blanks stand alone. -/
abbrev Apart (text : Text) : Prop :=
  text.IsChain fun first second => isSpace first = false ∨ isSpace second = false

theorem apart_squeeze (text : Text) : Apart (squeeze text) := by
  induction text with
  | nil => exact .nil
  | cons char rest inductionHypothesis =>
      rw [squeeze_cons]
      split
      next => exact inductionHypothesis
      next solid =>
        have plain : isSpace char = false := Bool.eq_false_iff.mpr solid
        split
        · refine List.isChain_cons_cons.mpr ⟨.inl plain, ?_⟩
          refine List.isChain_cons.mpr ⟨fun next nextIn => .inr ?_, inductionHypothesis⟩
          obtain ⟨others, shape⟩ := List.head?_eq_some_iff.mp nextIn
          exact Text.head_squeeze_solid shape
        · exact List.isChain_cons.mpr ⟨fun next _ => .inl plain, inductionHypothesis⟩

/-- At most one blank ends a text whose blanks stand alone. -/
theorem length_rstrip_of_apart {text : Text} (apart : Apart text) :
    text.length ≤ (Text.rstrip text).length + 1 := by
  rcases List.eq_nil_or_concat text with rfl | ⟨front, last, rfl⟩
  · simp
  · rw [List.concat_eq_append] at apart ⊢
    unfold Text.rstrip Text.rstripBy
    by_cases blank : isSpace last = true
    · rw [List.rdropWhile_concat_pos _ _ _ blank]
      rcases List.eq_nil_or_concat front with rfl | ⟨body, before, rfl⟩
      · simp
      · have solid : isSpace before = false := by
          have met := (List.isChain_append.mp apart).2.2 before (by simp) last (by simp)
          simpa [blank] using met
        rw [List.concat_eq_append, List.rdropWhile_concat_neg _ _ _ (by simp [solid])]
        simp
    · rw [List.rdropWhile_concat_neg _ _ _ blank]
      omega

theorem length_shortened_le_iff {limit : Nat} (positive : 0 < limit) (text : Text) :
    (shortened limit (squeeze text)).length ≤ limit ↔ (squeeze text).length ≤ limit := by
  unfold shortened
  split
  next => rfl
  next long =>
    have cut := length_rstrip_of_apart ((apart_squeeze text).take (limit - 1))
    rw [List.length_take] at cut
    have dots : ("..." : Text).length = 3 := rfl
    rw [List.length_append, dots]
    omega

/-! ## Budgets -/

def snippetSource (page : WikiPage) : Text := if page.text = [] then page.summary else page.text

/-- The part of the text of a page around a position. -/
def windowAt (limit : Nat) (text : Text) : Option Nat → Text
  | none => text
  | some position => Text.slice (position - 100) limit text

section Budget

variable [Unicode]

theorem snippetFor_eq {limit : Nat} (positive : 0 < limit) (page : WikiPage)
    (focus : SnippetFocus) :
    snippetFor page limit focus =
      shortened limit (squeeze (windowAt limit (snippetSource page)
        (focus.position? (snippetSource page)))) := by
  have whole : (if page.text = [] then page.summary else page.text) = snippetSource page := rfl
  simp only [snippetFor, if_neg positive.ne', whole]
  cases focus.position? (snippetSource page) <;> rfl

omit [Unicode] in
theorem chunkSnippet_eq {R : Type} {snippetChars : Option Int}
    (positive : 0 < snippetLimit snippetChars) (page : WikiPage)
    (record : VectorSearch.VectorChunkRecord R) :
    VectorSearch.chunkSnippet page record snippetChars =
      shortened (snippetLimit snippetChars)
        (squeeze (VectorSearch.chunkWindow page record (snippetLimit snippetChars))) := by
  rw [VectorSearch.chunkSnippet, if_neg positive.ne']
  rfl

/-- No snippet is wanted, or the focus is in the text, or the collapsed text is short enough. -/
def Fits (page : WikiPage) (snippetChars : Option Int) (focus : SnippetFocus) : Prop :=
  snippetLimit snippetChars = 0 ∨ (focus.position? (snippetSource page)).isSome = true ∨
    (squeeze (snippetSource page)).length ≤ snippetLimit snippetChars

instance (page : WikiPage) (snippetChars : Option Int) (focus : SnippetFocus) :
    Decidable (Fits page snippetChars focus) :=
  inferInstanceAs (Decidable (_ ∨ _ ∨ _))

theorem snippetFor_length_iff (page : WikiPage) (snippetChars : Option Int)
    (focus : SnippetFocus) :
    (snippetFor page (snippetLimit snippetChars) focus).length ≤ snippetLimit snippetChars ↔
      Fits page snippetChars focus := by
  unfold Fits
  rcases Nat.eq_zero_or_pos (snippetLimit snippetChars) with nothing | positive
  · simp [nothing, snippetFor]
  · rw [snippetFor_eq positive, length_shortened_le_iff positive, or_iff_right positive.ne']
    cases found : focus.position? (snippetSource page) with
    | none => simp [windowAt]
    | some position =>
        have window := Text.length_squeeze_le (Text.slice (position - 100)
          (snippetLimit snippetChars) (snippetSource page))
        simpa [windowAt] using window.trans (List.length_take_le _ _)

/-- No snippet is wanted, or the collapsed window of the chunk is short enough. -/
def ChunkFits {R : Type} (page : WikiPage) (record : VectorSearch.VectorChunkRecord R)
    (snippetChars : Option Int) : Prop :=
  snippetLimit snippetChars = 0 ∨
    (squeeze (VectorSearch.chunkWindow page record (snippetLimit snippetChars))).length ≤
      snippetLimit snippetChars

omit [Unicode] in
theorem chunkSnippet_length_iff {R : Type} (page : WikiPage)
    (record : VectorSearch.VectorChunkRecord R) (snippetChars : Option Int) :
    (VectorSearch.chunkSnippet page record snippetChars).length ≤ snippetLimit snippetChars ↔
      ChunkFits page record snippetChars := by
  unfold ChunkFits
  rcases Nat.eq_zero_or_pos (snippetLimit snippetChars) with nothing | positive
  · simp [nothing, VectorSearch.chunkSnippet]
  · rw [chunkSnippet_eq positive, length_shortened_le_iff positive, or_iff_right positive.ne']

end Budget

/-! ### The results of searches -/

section Results

open VectorSearch

variable [Unicode] {R : Type} [Floats R]

theorem ShowsIncluded.length_iff {pages : List WikiPage} {excludePageIds : List Text}
    {snippetChars : Option Int} {focus : SnippetFocus} {result : SearchResult R}
    (shown : ShowsIncluded pages excludePageIds snippetChars focus result) :
    ∃ page ∈ pages, result.Names page ∧
      (result.snippet.length ≤ snippetLimit snippetChars ↔ Fits page snippetChars focus) := by
  obtain ⟨page, pageIn, -, score, route, rfl⟩ := shown
  exact ⟨page, pageIn, ⟨rfl, rfl⟩, snippetFor_length_iff page snippetChars focus⟩

variable [Stemming]

/-- The snippet of every result is within its limit if and only if it fits. -/
theorem snippets_within_iff (snippetChars : Option Int) :
    (∀ (corpus : SearchCorpus) (query : Text) (options : SearchOptions R),
      options.snippetChars = snippetChars →
      ∀ result ∈ lexicalSearchCorpus corpus query options,
        ∃ page ∈ corpus.pages, result.Names page ∧
          (result.snippet.length ≤ snippetLimit snippetChars ↔ Fits page snippetChars
            { queryTokens := uniqueTokens (tokenize corpus.analyzerProfile query) })) ∧
    (∀ (corpus : SearchCorpus) (query : Text) (options : SearchOptions R),
      options.snippetChars = snippetChars →
      ∀ result ∈ literalSearchCorpus corpus query options,
        ∃ page ∈ corpus.pages, result.Names page ∧
          (result.snippet.length ≤ snippetLimit snippetChars ↔ Fits page snippetChars
            { literalQuery := normalizedLiteral query })) ∧
    (∀ (pages : List WikiPage) (limit : Int) (excludePageIds : List Text),
      ∀ result ∈ overviewResults (R := R) pages limit snippetChars excludePageIds,
        ∃ page ∈ pages, result.Names page ∧
          (result.snippet.length ≤ snippetLimit snippetChars ↔ Fits page snippetChars {})) ∧
    (∀ pages : List WikiPage, ∀ result ∈ contextOrientation (R := R) pages snippetChars,
        ∃ page ∈ pages, result.Names page ∧
          (result.snippet.length ≤ snippetLimit snippetChars ↔ Fits page snippetChars {})) ∧
    (∀ (answers : List Nat → Bool) (index : VectorIndex R) (pages : List WikiPage) (query : Text)
      (queryVector : Option (List R)) (queryNorm : R) (options : VectorOptions)
      (results : List (SearchResult R)), options.snippetChars = snippetChars →
      searchVectorIndexWithQueryVector answers index pages query queryVector queryNorm options =
        .ok results →
      ∀ result ∈ results, ∃ page ∈ pages, result.Names page ∧
        ((result.snippet.length ≤ snippetLimit snippetChars ↔ Fits page snippetChars {}) ∨
          ∃ record ∈ index.records, record.pageId = page.id ∧
            result.snippet = chunkSnippet page record snippetChars ∧
            (result.snippet.length ≤ snippetLimit snippetChars ↔
              ChunkFits page record snippetChars))) := by
  refine ⟨?_, ?_, ?_, ?_, ?_⟩
  · rintro corpus query options rfl result among
    exact ShowsIncluded.length_iff (lexicalSearchCorpus_shown among)
  · rintro corpus query options rfl result among
    exact ShowsIncluded.length_iff (literalSearchCorpus_shown among)
  · intro pages limit excludePageIds result among
    exact ShowsIncluded.length_iff (overviewResults_shown among)
  · intro pages result among
    obtain ⟨page, pageIn, score, rfl⟩ := mem_rankedResults among
    exact ⟨page, mem_orientationPages (List.mem_of_mem_take pageIn), ⟨rfl, rfl⟩,
      snippetFor_length_iff page snippetChars {}⟩
  · rintro answers index pages query queryVector queryNorm options results rfl searched result among
    rcases vectorResults_shown searched among with
      shown | ⟨page, pageIn, -, record, indexed, owned, score, rfl⟩
    · obtain ⟨page, pageIn, names, within⟩ := ShowsIncluded.length_iff shown
      exact ⟨page, pageIn, names, .inl within⟩
    · exact ⟨page, pageIn, ⟨rfl, rfl⟩,
        .inr ⟨record, indexed, owned, rfl,
          chunkSnippet_length_iff page record options.snippetChars⟩⟩

end Results

section LongSnippet

attribute [local instance] Unicode.ascii Floats.rational

def hitPage (text : Text) : WikiPage :=
  { id := "a", title := "A", path := "a.md", role := .topic, text := text }

def hitCorpus (text : Text) : SearchCorpus :=
  { documents := [{ page := hitPage text, tokens := [], exactCompounds := [], exactMetadata := [] }]
    analyzerProfile := .english }

/-- The window of a hit in the text is within the limit; after a hit in the title the text is cut. -/
theorem snippets_within_iff_literal :
    (∃ result ∈ literalSearchCorpus (R := ℚ) (hitCorpus "one hit") "HIT" { snippetChars := some 4 },
        result.snippet.length ≤ 4) ∧
      ∃ result ∈ literalSearchCorpus (R := ℚ) (hitCorpus "one hit") "A" { snippetChars := some 4 },
        ¬ result.snippet.length ≤ 4 := by
  have within : ∀ query : Text, ∀ result ∈ literalSearchCorpus (R := ℚ) (hitCorpus "one hit") query
      { snippetChars := some 4 }, result.snippet.length ≤ 4 ↔
        Fits (hitPage "one hit") (some 4) { literalQuery := normalizedLiteral query } := by
    intro query result among
    obtain ⟨page, pageIn, -, fits⟩ := (@snippets_within_iff Unicode.ascii ℚ _ .identity
      (some 4)).2.1 (hitCorpus "one hit") query { snippetChars := some 4 } rfl result among
    obtain rfl : page = hitPage "one hit" := List.mem_singleton.mp pageIn
    exact fits
  have listed : ∀ query : Text, (literalSearchCorpus (R := ℚ) (hitCorpus "one hit") query
      { snippetChars := some 4 }).isEmpty = false →
      ∃ result, result ∈ literalSearchCorpus (R := ℚ) (hitCorpus "one hit") query
        { snippetChars := some 4 } := fun _ some =>
    List.exists_mem_of_ne_nil _ (List.isEmpty_eq_false_iff.mp some)
  obtain ⟨hit, hitIn⟩ := listed "HIT" (by decide)
  obtain ⟨titled, titledIn⟩ := listed "A" (by decide)
  exact ⟨⟨hit, hitIn, (within _ _ hitIn).mpr (by decide)⟩,
    titled, titledIn, mt (within _ _ titledIn).mp (by decide)⟩

def longPage : WikiPage :=
  { id := "a", title := "A", path := "a.md", role := .index, text := "abcdefgh" }

/-- Three dots follow three characters where four are asked for. -/
theorem dots_exceed_limit :
    (overviewResults (R := ℚ) [longPage] 8 (some 4) []).map SearchResult.snippet =
        [("abc..." : Text)] ∧
      ¬ ("abc..." : Text).length ≤ snippetLimit (some 4) := by
  decide

end LongSnippet

/-! ## Case folding and blanks -/

/-- Case folding changes no blank and makes none, as in every version of the database. -/
structure FoldsBlanks [Unicode] : Prop where
  space : ∀ char, isSpace char = true → Unicode.foldChar char = [char]
  solid : ∀ char, isSpace char = false →
    ∀ folded ∈ Unicode.foldChar char, isSpace folded = false

theorem squeeze_word_append {word text : Text} (solid : ∀ char ∈ word, isSpace char = false)
    (nonempty : word ≠ []) :
    squeeze (word ++ text) =
      if startsBlank text = true ∧ squeeze text ≠ [] then word ++ ' ' :: squeeze text
      else word ++ squeeze text := by
  induction word with
  | nil => exact absurd rfl nonempty
  | cons char rest inductionHypothesis =>
      have plain : ¬ isSpace char = true := by simp [solid char List.mem_cons_self]
      rw [List.cons_append, squeeze_cons, if_neg plain]
      cases rest with
      | nil => rfl
      | cons next later =>
          have nextPlain := solid next (by simp)
          have joined : ¬ (startsBlank (next :: later ++ text) = true ∧
              squeeze (next :: later ++ text) ≠ []) := by
            simp [startsBlank, nextPlain]
          rw [if_neg joined, inductionHypothesis
            (fun other otherIn => solid other (List.mem_cons_of_mem _ otherIn))
            (List.cons_ne_nil _ _)]
          split_ifs <;> rfl

section Folding

variable [Unicode]

theorem casefold_cons (char : Char) (text : Text) :
    Text.casefold (char :: text) = Unicode.foldChar char ++ Text.casefold text :=
  List.flatMap_cons

theorem casefold_append (front back : Text) :
    Text.casefold (front ++ back) = Text.casefold front ++ Text.casefold back :=
  List.flatMap_append

theorem casefold_eq_nil {text : Text} : Text.casefold text = [] ↔ text = [] := by
  cases text with
  | nil => simp [Text.casefold]
  | cons char rest => simp [casefold_cons, Unicode.foldChar_nonempty]

theorem casefold_isInfix {part text : Text} (inside : part <:+: text) :
    Text.casefold part <:+: Text.casefold text := by
  obtain ⟨front, back, rfl⟩ := inside
  rw [casefold_append, casefold_append]
  exact ⟨_, _, rfl⟩

variable (blanks : FoldsBlanks)

include blanks

theorem startsBlank_casefold (text : Text) :
    startsBlank (Text.casefold text) = startsBlank text := by
  cases text with
  | nil => rfl
  | cons char rest =>
      rw [casefold_cons]
      cases blank : isSpace char with
      | true => simp [blanks.space char blank, startsBlank]
      | false =>
          obtain ⟨first, others, shape⟩ :=
            List.exists_cons_of_ne_nil (Unicode.foldChar_nonempty char)
          have plain := blanks.solid char blank first (by simp [shape])
          simp [shape, startsBlank, plain, blank]

/-- Case folding goes through the collapsing of blanks. -/
theorem casefold_squeeze (text : Text) :
    Text.casefold (squeeze text) = squeeze (Text.casefold text) := by
  induction text with
  | nil => rfl
  | cons char rest inductionHypothesis =>
      have space : Unicode.foldChar ' ' = [' '] := blanks.space ' ' (by decide)
      rw [squeeze_cons, casefold_cons]
      cases blank : isSpace char with
      | true =>
          rw [if_pos rfl, inductionHypothesis, blanks.space char blank, List.singleton_append,
            squeeze_cons, if_pos blank]
      | false =>
          rw [if_neg (by simp), squeeze_word_append (blanks.solid char blank)
            (Unicode.foldChar_nonempty char), startsBlank_casefold blanks, ← inductionHypothesis]
          by_cases between : startsBlank rest = true ∧ squeeze rest ≠ []
          · rw [if_pos between, if_pos ⟨between.1, mt casefold_eq_nil.mp between.2⟩,
              casefold_cons, casefold_cons, space]
            rfl
          · rw [if_neg between, if_neg fun both => between ⟨both.1, mt casefold_eq_nil.mpr both.2⟩,
              casefold_cons]

/-- A text that folds to what a collapsed text folds to has no blank ends. -/
theorem solid_ends {shown text : Text} (same : Text.casefold shown = Text.casefold (squeeze text)) :
    (∀ char ∈ shown.head?, isSpace char = false) ∧
      ∀ char ∈ shown.getLast?, isSpace char = false := by
  constructor
  · have start : startsBlank shown = startsBlank (squeeze text) := by
      rw [← startsBlank_casefold blanks shown, same, startsBlank_casefold blanks]
    have plain : startsBlank (squeeze text) = false := by
      cases shape : squeeze text with
      | nil => rfl
      | cons char rest => simpa [startsBlank] using Text.head_squeeze_solid shape
    intro char charIn
    rw [plain] at start
    simpa [startsBlank, Option.mem_def.mp charIn] using start
  · intro char charIn
    by_contra visible
    have blank : isSpace char = true := by simpa using visible
    obtain ⟨front, rfl⟩ := List.getLast?_eq_some_iff.mp charIn
    rw [casefold_append, casefold_cons, blanks.space char blank] at same
    rcases List.eq_nil_or_concat (squeeze text) with none_ | ⟨body, last, shape⟩
    · rw [none_] at same
      simp [Text.casefold] at same
    · rw [List.concat_eq_append] at shape
      have solid : isSpace last = false :=
        Text.getLast_squeeze_solid (by rw [shape]; exact List.getLast?_concat)
      obtain ⟨folded, ending, foldShape⟩ : ∃ folded ending,
          Unicode.foldChar last = folded ++ [ending] := by
        rcases List.eq_nil_or_concat (Unicode.foldChar last) with none_ | ⟨folded, ending, shape⟩
        · exact absurd none_ (Unicode.foldChar_nonempty last)
        · exact ⟨folded, ending, by rw [shape, List.concat_eq_append]⟩
      have endSolid := blanks.solid last solid ending (by simp [foldShape])
      rw [shape, casefold_append, casefold_cons, foldShape] at same
      have lasts := congrArg List.getLast? same
      simp [Text.casefold] at lasts
      rw [← lasts, blank] at endSolid
      cases endSolid

/-! ## Literal hits -/

def Shows (literal text : Text) : Prop :=
  ∃ shown, shown <:+: text ∧ Text.casefold shown = Text.casefold literal

theorem shows_squeeze_iff {text query : Text} (asked : squeeze query ≠ []) :
    Shows (squeeze query) (squeeze text) ↔
      ∃ piece, piece <:+: text ∧ Text.casefold (squeeze piece) = Text.casefold (squeeze query) := by
  constructor
  · rintro ⟨shown, inside, same⟩
    have nonempty : shown ≠ [] := by
      rintro rfl
      exact asked (casefold_eq_nil.mp same.symm)
    obtain ⟨start, ending⟩ := solid_ends blanks same
    obtain ⟨piece, pieceIn, rfl⟩ := Text.exists_infix_of_squeeze inside nonempty start ending
    exact ⟨piece, pieceIn, same⟩
  · rintro ⟨piece, pieceIn, same⟩
    exact ⟨squeeze piece, Text.squeeze_infix pieceIn, same⟩

omit blanks in
/-- Where every character folds to one, positions agree. -/
theorem casefold_slice {text : Text} (single : ∀ char ∈ text, (Unicode.foldChar char).length = 1)
    (start limit : Nat) :
    Text.casefold (Text.slice start limit text) = Text.slice start limit (Text.casefold text) := by
  have mapped : ∀ part : Text, (∀ char ∈ part, char ∈ text) →
      Text.casefold part = part.map fun char => (Unicode.foldChar char).headD char := by
    intro part within
    rw [Text.casefold, List.map_eq_flatMap]
    refine List.flatMap_congr fun char charIn => ?_
    obtain ⟨folded, shape⟩ := List.length_eq_one_iff.mp (single char (within char charIn))
    simp [shape]
  rw [mapped text fun _ charIn => charIn, mapped]
  · simp [Text.slice, List.map_take, List.map_drop]
  · exact fun char charIn => List.mem_of_mem_drop (List.mem_of_mem_take charIn)

/-- The hit found is in the window where characters fold to single ones. -/
theorem shows_of_single {text query : Text} {position limit : Nat}
    (found : Text.find? (Text.casefold (squeeze query)) (Text.casefold text) = some position)
    (single : ∀ char ∈ text, (Unicode.foldChar char).length = 1)
    (short : (Text.casefold (squeeze query)).length ≤ 2 * (squeeze query).length)
    (enough : 100 + 2 * (squeeze query).length ≤ limit) :
    ∃ piece, piece <:+: Text.slice (position - 100) limit text ∧
      Text.casefold (squeeze piece) = Text.casefold (squeeze query) := by
  let size := (Text.casefold (squeeze query)).length
  refine ⟨Text.slice position size text, ?_, ?_⟩
  · have inside := @Text.slice_infix (position - 100) (position - 100 + limit) position
      (position + size) text (by omega) (by omega)
    rwa [Nat.add_sub_cancel_left, Nat.add_sub_cancel_left] at inside
  · have here : Text.casefold (Text.slice position size text) = Text.casefold (squeeze query) := by
      rw [casefold_slice single, Text.slice]
      exact (List.prefix_iff_eq_take.mp (Text.find?_prefix found)).symm
    rw [casefold_squeeze blanks, here, ← casefold_squeeze blanks, Text.squeeze_squeeze]

/-- A literal result shows its hit where every character of the text folds to one.  Elsewhere it
does if and only if the window around the position of the folded hit in the folded text has it. -/
theorem literalSnippet_shows_iff {R : Type} [Floats R] {corpus : SearchCorpus} {query : Text}
    {options : SearchOptions R} {result : SearchResult R}
    (among : result ∈ literalSearchCorpus corpus query options)
    (asked : normalizedLiteral query ≠ []) :
    let literal := normalizedLiteral query
    let limit := snippetLimit options.snippetChars
    ∃ page ∈ corpus.pages, result.Names page ∧
      (Shows literal page.text → 100 + 2 * literal.length ≤ limit →
        ((∀ char ∈ page.text, (Unicode.foldChar char).length = 1) →
          (Text.casefold literal).length ≤ 2 * literal.length →
          Shows literal result.snippet) ∧
        ∃ position,
          Text.find? (Text.casefold literal) (Text.casefold page.text) = some position ∧
          (Shows literal result.snippet ↔
            ∃ piece, piece <:+: Text.slice (position - 100) limit page.text ∧
              Text.casefold (squeeze piece) = Text.casefold literal)) := by
  intro literal limit
  obtain ⟨page, pageIn, -, score, route, rfl⟩ := literalSearchCorpus_shown among
  refine ⟨page, pageIn, ⟨rfl, rfl⟩, fun hit enough => ?_⟩
  obtain ⟨shown, inside, same⟩ := hit
  obtain ⟨position, found⟩ := Text.exists_find? (same ▸ casefold_isInfix inside)
  have written : page.text ≠ [] := by
    intro blank
    rw [blank, List.infix_nil] at inside
    subst inside
    exact asked (casefold_eq_nil.mp same.symm)
  have source : snippetSource page = page.text := if_neg written
  have focused : SnippetFocus.position? { literalQuery := literal } (snippetSource page) =
      some position := by
    rw [SnippetFocus.position?, if_pos asked, source]
    exact found
  have snippet : snippetFor page limit { literalQuery := literal } =
      squeeze (Text.slice (position - 100) limit page.text) := by
    have short := (Text.length_squeeze_le (Text.slice (position - 100) limit page.text)).trans
      (List.length_take_le _ _)
    rw [snippetFor_eq (by omega), focused, source]
    exact if_pos short
  have shows := @shows_squeeze_iff _ blanks (Text.slice (position - 100) limit page.text) query asked
  refine ⟨fun single short => ?_, position, found, ?_⟩
  · have piece := shows_of_single blanks found single short enough
    exact (congrArg (Shows literal) snippet).mpr (shows.mpr piece)
  · exact (iff_of_eq (congrArg (Shows literal) snippet)).trans shows

end Folding

section ShownHit

attribute [local instance] Floats.rational

theorem foldsBlanks_ascii : @FoldsBlanks Unicode.ascii := by
  refine @FoldsBlanks.mk Unicode.ascii (fun char blank => ?_) fun char solid folded among => ?_
  · simp [Unicode.foldChar, toLower_of_space blank]
  · simp only [Unicode.foldChar] at among
    split_ifs at among with small
    · rw [List.mem_singleton.mp among]
      exact toLower_solid solid
    · rw [List.mem_singleton.mp among]
      exact solid

theorem literalSnippet_shows_iff_hit :
    ∃ result ∈ @literalSearchCorpus Unicode.ascii ℚ _ (hitCorpus "one hit") "HIT" {},
      @Shows Unicode.ascii "HIT" result.snippet := by
  let results := @literalSearchCorpus Unicode.ascii ℚ _ (hitCorpus "one hit") "HIT" {}
  have found : results ≠ [] :=
    List.isEmpty_eq_false_iff.mp (by decide : results.isEmpty = false)
  have among := List.head_mem found
  have literal : normalizedLiteral "HIT" = ("HIT" : Text) := by decide
  obtain ⟨page, pageIn, -, shows⟩ :=
    @literalSnippet_shows_iff Unicode.ascii foldsBlanks_ascii ℚ _ _ _ _ _ among
      (by rw [literal]; decide)
  obtain rfl : page = hitPage "one hit" := List.mem_singleton.mp pageIn
  rw [literal] at shows
  have written : @Shows Unicode.ascii "HIT" (hitPage "one hit").text :=
    ⟨"hit", ⟨"one ", [], by decide⟩, by decide⟩
  obtain ⟨single, -⟩ := shows written (by decide)
  exact ⟨_, among, single (by decide) (by decide)⟩

/-- The database of ASCII with the sharp s, which folds to two characters. -/
@[reducible]
def sharpUnicode : Unicode :=
  { Unicode.ascii with
    foldChar := fun char => if char = 'ß' then "ss" else Unicode.ascii.foldChar char
    foldChar_nonempty := by
      intro char
      split
      · decide
      · exact Unicode.ascii.foldChar_nonempty char
    foldChar_ascii := by
      intro char small
      have plain : char ≠ 'ß' := by
        rintro rfl
        exact absurd small (by decide)
      rw [if_neg plain]
      exact Unicode.ascii.foldChar_ascii char small }

def sharpText : Text := List.replicate 102 'ß' ++ ("hit" : Text)

/-- The position in the folded text is too far in the page. -/
theorem folded_position_passes_hit :
    @Shows sharpUnicode "hit" sharpText ∧ normalizedLiteral "hit" = ("hit" : Text) ∧
      100 + 2 * ("hit" : Text).length ≤ snippetLimit none ∧
      (@literalSearchCorpus sharpUnicode ℚ _ (hitCorpus sharpText) "hit" {}).map
        SearchResult.snippet = [("t" : Text)] ∧
      ¬ @Shows sharpUnicode "hit" "t" := by
  refine ⟨⟨"hit", ⟨List.replicate 102 'ß', [], by decide⟩, rfl⟩, by decide,
    by decide +kernel, by decide +kernel, ?_⟩
  rintro ⟨shown, inside, same⟩
  have folded := @casefold_isInfix sharpUnicode _ _ inside
  rw [same] at folded
  exact absurd folded (by decide)

end ShownHit

end LlmWikiServe.Snippets
