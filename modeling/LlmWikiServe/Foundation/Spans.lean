import LlmWikiServe.Foundation.Text

/-!
# Spans of a text

Half-open spans of positions in increasing order, the words of a text with the places
they stand at, and the text its words give back when single blanks join them.
-/

namespace LlmWikiServe

/-! ## Spans in order -/

namespace Spans

def Holds (span : Nat × Nat) (position : Nat) : Prop := span.1 ≤ position ∧ position < span.2

instance (span : Nat × Nat) (position : Nat) : Decidable (Holds span position) :=
  inferInstanceAs (Decidable (_ ∧ _))

/-- Non-empty spans between two bounds, each one starting where or after the last one ends. -/
inductive Ordered : Nat → Nat → List (Nat × Nat) → Prop where
  | nil {low high : Nat} : low ≤ high → Ordered low high []
  | cons {low high start stop : Nat} {rest : List (Nat × Nat)} :
      low ≤ start → start < stop → Ordered stop high rest → Ordered low high ((start, stop) :: rest)

namespace Ordered

variable {low middle high : Nat} {spans others : List (Nat × Nat)}

theorem le (ordered : Ordered low high spans) : low ≤ high := by
  induction ordered with
  | nil bound => exact bound
  | cons bound nonempty _ inductionHypothesis => omega

theorem weaken (ordered : Ordered low high spans) {lower higher : Nat} (below : lower ≤ low)
    (above : high ≤ higher) : Ordered lower higher spans := by
  induction ordered generalizing lower with
  | nil bound => exact .nil (by omega)
  | cons bound nonempty _ inductionHypothesis =>
      exact .cons (by omega) nonempty (inductionHypothesis le_rfl above)

theorem append (first : Ordered low middle spans) (second : Ordered middle high others) :
    Ordered low high (spans ++ others) := by
  induction first with
  | nil bound => exact second.weaken bound le_rfl
  | cons bound nonempty _ inductionHypothesis =>
      exact .cons bound nonempty (inductionHypothesis second)

theorem singleton {start stop : Nat} (nonempty : start < stop) :
    Ordered start stop [(start, stop)] :=
  .cons le_rfl nonempty (.nil le_rfl)

theorem bounds (ordered : Ordered low high spans) {span : Nat × Nat} (among : span ∈ spans) :
    low ≤ span.1 ∧ span.1 < span.2 ∧ span.2 ≤ high := by
  induction ordered with
  | nil => exact absurd among List.not_mem_nil
  | cons bound nonempty later inductionHypothesis =>
      rcases List.mem_cons.mp among with rfl | among
      · exact ⟨bound, nonempty, later.le⟩
      · have inside := inductionHypothesis among
        exact ⟨by omega, inside.2⟩

theorem of_cons {span : Nat × Nat} (ordered : Ordered low high (span :: spans)) :
    low ≤ span.1 ∧ span.1 < span.2 ∧ Ordered span.2 high spans := by
  obtain ⟨start, stop⟩ := span
  cases ordered with
  | cons bound nonempty later => exact ⟨bound, nonempty, later⟩

theorem flatMap {α : Type} {values : List α} {span : α → Nat × Nat}
    {inner : α → List (Nat × Nat)} (ordered : Ordered low high (values.map span))
    (each : ∀ value ∈ values, Ordered (span value).1 (span value).2 (inner value)) :
    Ordered low high (values.flatMap inner) := by
  induction values generalizing low with
  | nil => exact .nil ordered.le
  | cons value rest inductionHypothesis =>
      obtain ⟨bound, -, later⟩ := ordered.of_cons
      rw [List.flatMap_cons]
      exact ((each value List.mem_cons_self).weaken bound le_rfl).append
        (inductionHypothesis later fun other otherIn =>
          each other (List.mem_cons_of_mem _ otherIn))

theorem shift (ordered : Ordered low high spans) (offset : Nat) :
    Ordered (offset + low) (offset + high)
      (spans.map fun span => (offset + span.1, offset + span.2)) := by
  induction ordered with
  | nil bound => exact .nil (by omega)
  | cons bound nonempty _ inductionHypothesis =>
      exact .cons (by simp only; omega) (by simp only; omega) inductionHypothesis

theorem pairwise (ordered : Ordered low high spans) :
    spans.Pairwise fun first second => first.2 ≤ second.1 := by
  induction ordered with
  | nil => exact .nil
  | cons _ _ later inductionHypothesis =>
      exact .cons (fun span among => (later.bounds among).1) inductionHypothesis

theorem countP_holds (ordered : Ordered low high spans) {position : Nat}
    (held : ∃ span ∈ spans, Holds span position) :
    spans.countP (fun span => Holds span position) = 1 := by
  induction ordered with
  | nil => simp at held
  | @cons low high start stop rest bound nonempty later inductionHypothesis =>
      by_cases first : Holds (start, stop) position
      · have none_ : rest.countP (fun span => Holds span position) = 0 := by
          refine List.countP_eq_zero.mpr fun span among => ?_
          have inside := later.bounds among
          have beyond := first.2
          simp only [decide_eq_true_eq]
          exact fun second => absurd second.1 (by simp only at beyond; omega)
        rw [List.countP_cons_of_pos (by simpa using first), none_]
      · rw [List.countP_cons_of_neg (by simpa using first)]
        apply inductionHypothesis
        simpa [first] using held

end Ordered

end Spans

namespace Text

/-! ## Words joined by single blanks -/

/-- `" ".join(text.split())` -/
def squeeze (text : Text) : Text := join " " (split text)

def startsBlank (text : Text) : Bool := text.head?.any isSpace

theorem split_cons_space {char : Char} (blank : isSpace char = true) (text : Text) :
    split (char :: text) = split text := splitBy_cons_of_space blank text

/-- A character before a blank is a word. -/
theorem split_cons_blank {char : Char} (solid : isSpace char = false) {text : Text}
    (blank : startsBlank text = true) : split (char :: text) = [char] :: split text := by
  cases text with
  | nil => simp [startsBlank] at blank
  | cons next rest =>
      have nextBlank : isSpace next = true := by simpa [startsBlank] using blank
      have taken := @splitBy_word_space isSpace [char] next (by simp) (by simpa using solid)
        nextBlank rest
      rw [split_cons_space nextBlank]
      exact taken

/-- A character before a word belongs to it. -/
theorem split_cons_word {char : Char} (solid : isSpace char = false) {text : Text}
    (nonempty : text ≠ []) (word : startsBlank text = false) :
    ∃ first rest, split text = first :: rest ∧ split (char :: text) = (char :: first) :: rest := by
  have longer : ∀ front : Text, (∀ other ∈ front, isSpace other = false) →
      ∀ other ∈ char :: front, isSpace other = false := by
    intro front frontSolid other otherIn
    rcases List.mem_cons.mp otherIn with rfl | later
    · exact solid
    · exact frontSolid other later
  rcases wordCases text with allSolid | ⟨front, blank, rest, rfl, isBlank, frontSolid⟩
  · exact ⟨text, [], splitBy_word nonempty allSolid,
      splitBy_word (List.cons_ne_nil _ _) (longer text allSolid)⟩
  · have frontNonempty : front ≠ [] := by
      rintro rfl
      simp [startsBlank, isBlank] at word
    refine ⟨front, split rest, splitBy_word_space frontNonempty frontSolid isBlank rest, ?_⟩
    exact @splitBy_word_space isSpace (char :: front) blank (List.cons_ne_nil _ _)
      (longer front frontSolid) isBlank rest

theorem join_cons_cons (char : Char) (word : Text) (rest : List Text) :
    join " " ((char :: word) :: rest) = char :: join " " (word :: rest) := by
  cases rest with
  | nil => simp [join, List.intercalate]
  | cons next others => simp [join, List.intercalate]

theorem join_eq_nil {parts : List Text} (words : ∀ part ∈ parts, part ≠ []) :
    join " " parts = [] ↔ parts = [] := by
  cases parts with
  | nil => simp [join]
  | cons first rest =>
      have nonempty := words first List.mem_cons_self
      cases rest with
      | nil => simp [join, List.intercalate, nonempty]
      | cons next others => simp [join, List.intercalate, nonempty]

theorem squeeze_eq_nil {text : Text} : squeeze text = [] ↔ split text = [] :=
  join_eq_nil fun part partIn => (splitBy_words text part partIn).1

/-- What a character in front does to the squeezed text. -/
theorem squeeze_cons (char : Char) (text : Text) :
    squeeze (char :: text) =
      if isSpace char = true then squeeze text
      else if startsBlank text = true ∧ squeeze text ≠ [] then char :: ' ' :: squeeze text
      else char :: squeeze text := by
  split
  next blank => rw [squeeze, split_cons_space blank, squeeze]
  next solid =>
    rw [Bool.not_eq_true] at solid
    by_cases blank : startsBlank text = true
    · have words := split_cons_blank solid blank
      by_cases empty : squeeze text = []
      · rw [if_neg (by simp [empty]), empty, squeeze, words, squeeze_eq_nil.mp empty]
        rfl
      · rw [if_pos ⟨blank, empty⟩, squeeze, words]
        obtain ⟨first, rest, shape⟩ := List.exists_cons_of_ne_nil (mt squeeze_eq_nil.mpr empty)
        rw [squeeze, shape]
        simp [join, List.intercalate]
    · rw [if_neg (by simp [blank])]
      by_cases nonempty : text = []
      · subst nonempty
        simp [squeeze, split, splitBy, splitFrom, solid, closeWord, join, List.intercalate]
      · obtain ⟨first, rest, shape, longer⟩ :=
          split_cons_word solid nonempty (by simpa using blank)
        rw [squeeze, longer, join_cons_cons, squeeze, shape]

@[simp]
theorem squeeze_nil : squeeze [] = [] := rfl

theorem split_squeeze (text : Text) : split (squeeze text) = split text :=
  @splitBy_join_words isSpace ' ' rfl _ (splitBy_words text)

theorem squeeze_of_solid {text : Text} (solid : ∀ char ∈ text, isSpace char = false) :
    squeeze text = text := by
  by_cases nonempty : text = []
  · rw [nonempty, squeeze_nil]
  · rw [squeeze, split, splitBy_word nonempty solid]
    simp [join, List.intercalate]

theorem squeeze_suffix_append (front text : Text) : squeeze text <:+ squeeze (front ++ text) := by
  induction front with
  | nil => exact List.suffix_rfl
  | cons char rest inductionHypothesis =>
      rw [List.cons_append, squeeze_cons]
      split
      · exact inductionHypothesis
      · split
        · exact inductionHypothesis.trans
            ((List.suffix_cons _ _).trans (List.suffix_cons _ _))
        · exact inductionHypothesis.trans (List.suffix_cons _ _)

theorem squeeze_prefix_append (text back : Text) : squeeze text <+: squeeze (text ++ back) := by
  induction text with
  | nil => exact List.nil_prefix
  | cons char rest inductionHypothesis =>
      rw [List.cons_append, squeeze_cons, squeeze_cons]
      split
      · exact inductionHypothesis
      · by_cases empty : squeeze rest = []
        · rw [if_neg (by simp [empty]), empty]
          split
          · exact ⟨_, rfl⟩
          · exact ⟨_, rfl⟩
        · have sameStart : startsBlank (rest ++ back) = startsBlank rest := by
            cases rest with
            | nil => simp at empty
            | cons next others => rfl
          have longer : squeeze (rest ++ back) ≠ [] := fun none_ =>
            empty (List.prefix_nil.mp (none_ ▸ inductionHypothesis))
          simp only [sameStart, longer, empty, ne_eq, not_false_eq_true, and_true]
          split
          · simpa using inductionHypothesis
          · simpa using inductionHypothesis

theorem squeeze_infix {part text : Text} (inside : part <:+: text) :
    squeeze part <:+: squeeze text := by
  obtain ⟨front, back, rfl⟩ := inside
  exact (squeeze_suffix_append front part).isInfix.trans (squeeze_prefix_append _ back).isInfix

theorem exists_prefix_of_squeeze {part text : Text} (inFront : part <+: squeeze text)
    (nonempty : part ≠ []) (solidEnd : ∀ char ∈ part.getLast?, isSpace char = false) :
    ∃ piece, piece <+: text ∧ squeeze piece = part := by
  induction text generalizing part with
  | nil => exact absurd (List.prefix_nil.mp inFront) nonempty
  | cons char rest inductionHypothesis =>
      rw [squeeze_cons] at inFront
      split at inFront
      next blank =>
        obtain ⟨piece, pieceIn, same⟩ := inductionHypothesis inFront nonempty solidEnd
        exact ⟨char :: piece, List.cons_prefix_cons.mpr ⟨rfl, pieceIn⟩, by
          rw [squeeze_cons, if_pos blank, same]⟩
      next solid =>
        -- The character starts the part, and a space follows it only between two words.
        have alone : ∃ piece, piece <+: char :: rest ∧ squeeze piece = [char] :=
          ⟨[char], List.cons_prefix_cons.mpr ⟨rfl, List.nil_prefix⟩,
            squeeze_of_solid (by simpa using solid)⟩
        have lastOf : ∀ {front : Char} {later : Text}, later ≠ [] → part = front :: later →
            ∀ char ∈ later.getLast?, isSpace char = false := by
          rintro front later more rfl
          rwa [List.getLast?_cons_of_ne_nil more] at solidEnd
        cases part with
        | nil => exact absurd rfl nonempty
        | cons first later =>
            split at inFront
            next between =>
              obtain ⟨rfl, laterFront⟩ := List.cons_prefix_cons.mp inFront
              cases later with
              | nil => exact alone
              | cons space words =>
                  obtain ⟨rfl, wordsFront⟩ := List.cons_prefix_cons.mp laterFront
                  have wordsThere : words ≠ [] := by
                    rintro rfl
                    exact absurd (solidEnd ' ' rfl) (by decide)
                  have wordsEnd : ∀ char ∈ words.getLast?, isSpace char = false := by
                    have spaced := lastOf (List.cons_ne_nil ' ' words) rfl
                    rwa [List.getLast?_cons_of_ne_nil wordsThere] at spaced
                  obtain ⟨piece, pieceIn, rfl⟩ :=
                    inductionHypothesis wordsFront wordsThere wordsEnd
                  refine ⟨first :: piece, List.cons_prefix_cons.mpr ⟨rfl, pieceIn⟩, ?_⟩
                  have blankFront : startsBlank piece = true := by
                    cases piece with
                    | nil => exact absurd squeeze_nil wordsThere
                    | cons head tail =>
                        obtain ⟨back, rfl⟩ := pieceIn
                        exact between.1
                  rw [squeeze_cons, if_neg solid, if_pos ⟨blankFront, wordsThere⟩]
            next joined =>
              obtain ⟨rfl, laterFront⟩ := List.cons_prefix_cons.mp inFront
              by_cases more : later = []
              · subst more
                exact alone
              · obtain ⟨piece, pieceIn, rfl⟩ :=
                  inductionHypothesis laterFront more (lastOf more rfl)
                refine ⟨first :: piece, List.cons_prefix_cons.mpr ⟨rfl, pieceIn⟩, ?_⟩
                have apart : ¬ (startsBlank piece = true ∧ squeeze piece ≠ []) := by
                  rintro ⟨blankFront, -⟩
                  refine joined ⟨?_, ?_⟩
                  · cases piece with
                    | nil => cases blankFront
                    | cons head tail =>
                        obtain ⟨back, rfl⟩ := pieceIn
                        exact blankFront
                  · intro none_
                    rw [none_] at laterFront
                    exact more (List.prefix_nil.mp laterFront)
                rw [squeeze_cons, if_neg solid, if_neg apart]

/-- A part of a squeezed text without blank ends is a squeezed part of the text. -/
theorem exists_infix_of_squeeze {part text : Text} (inside : part <:+: squeeze text)
    (nonempty : part ≠ []) (solidStart : ∀ char ∈ part.head?, isSpace char = false)
    (solidEnd : ∀ char ∈ part.getLast?, isSpace char = false) :
    ∃ piece, piece <:+: text ∧ squeeze piece = part := by
  induction text with
  | nil => exact absurd (List.infix_nil.mp inside) nonempty
  | cons char rest inductionHypothesis =>
      have later : part <:+: squeeze rest →
          ∃ piece, piece <:+: char :: rest ∧ squeeze piece = part := by
        intro inRest
        obtain ⟨piece, pieceIn, same⟩ := inductionHypothesis inRest
        exact ⟨piece, pieceIn.trans (List.suffix_cons char rest).isInfix, same⟩
      have front : part <+: squeeze (char :: rest) →
          ∃ piece, piece <:+: char :: rest ∧ squeeze piece = part := by
        intro inFront
        obtain ⟨piece, pieceIn, same⟩ := exists_prefix_of_squeeze inFront nonempty solidEnd
        exact ⟨piece, pieceIn.isInfix, same⟩
      by_cases start : part <+: squeeze (char :: rest)
      · exact front start
      · rw [squeeze_cons] at inside start
        split at inside
        next => exact later inside
        next solid =>
          rw [if_neg solid] at start
          split at inside
          next between =>
            rw [if_pos between] at start
            rcases List.infix_cons_iff.mp inside with starts | spaced
            · exact absurd starts start
            · rcases List.infix_cons_iff.mp spaced with starts | inRest
              · cases part with
                | nil => exact absurd rfl nonempty
                | cons head tail =>
                    obtain ⟨rfl, -⟩ := List.cons_prefix_cons.mp starts
                    exact absurd (solidStart ' ' rfl) (by decide)
              · exact later inRest
          next joined =>
            rw [if_neg joined] at start
            rcases List.infix_cons_iff.mp inside with starts | inRest
            · exact absurd starts start
            · exact later inRest

theorem length_squeeze_le_dropWhile (text : Text) :
    (squeeze text).length ≤ (text.dropWhile isSpace).length := by
  induction text with
  | nil => simp
  | cons char rest inductionHypothesis =>
      have shorter := (List.dropWhile_sublist (l := rest) isSpace).length_le
      rw [squeeze_cons]
      split
      next blank => rwa [List.dropWhile_cons_of_pos blank]
      next solid =>
        rw [List.dropWhile_cons_of_neg solid]
        split
        next both =>
          -- The blank that is kept stands for one that the bound leaves out.
          cases rest with
          | nil => simp [startsBlank] at both
          | cons next others =>
              have nextBlank : isSpace next = true := by simpa [startsBlank] using both.1
              rw [List.dropWhile_cons_of_pos nextBlank] at inductionHypothesis
              have dropped := (List.dropWhile_sublist (l := others) isSpace).length_le
              simp only [List.length_cons] at inductionHypothesis ⊢
              omega
        next => simp only [List.length_cons]; omega

theorem length_squeeze_le (text : Text) : (squeeze text).length ≤ text.length :=
  (length_squeeze_le_dropWhile text).trans (List.dropWhile_sublist _).length_le

/-! ## Words with their places -/

/-- A match of `\S+`. -/
structure WordMatch where
  start : Nat
  text : Text

def WordMatch.end_ (found : WordMatch) : Nat := found.start + found.text.length

/-- Close the word read so far, given in reverse, before a position. -/
def closeMatch (position : Nat) (word : Text) (rest : List WordMatch) : List WordMatch :=
  if word = [] then rest else ⟨position - word.length, word.reverse⟩ :: rest

/-- The words from a position on, after the characters of `word`, read in reverse. -/
def wordMatchesFrom : Nat → Text → Text → List WordMatch
  | position, word, [] => closeMatch position word []
  | position, word, char :: rest =>
      if isSpace char then
        closeMatch position word (wordMatchesFrom (position + 1) [] rest)
      else
        wordMatchesFrom (position + 1) (char :: word) rest

/-- `list(re.finditer(r"\S+", text))` -/
def wordMatches (text : Text) : List WordMatch := wordMatchesFrom 0 [] text

theorem wordMatchesFrom_text (position : Nat) (word text : Text) :
    (wordMatchesFrom position word text).map WordMatch.text = splitFrom isSpace word text := by
  induction text generalizing position word with
  | nil =>
      rw [wordMatchesFrom, splitFrom, closeMatch, closeWord]
      split <;> rfl
  | cons char rest inductionHypothesis =>
      rw [wordMatchesFrom, splitFrom]
      split
      · rw [closeMatch, closeWord]
        split
        · exact inductionHypothesis _ _
        · rw [List.map_cons, inductionHypothesis]
      · exact inductionHypothesis _ _

theorem wordMatches_text (text : Text) :
    (wordMatches text).map WordMatch.text = split text := wordMatchesFrom_text 0 [] text

structure WordAt (text : Text) (found : WordMatch) : Prop where
  placed : ∃ front back, text = front ++ found.text ++ back ∧ front.length = found.start
  nonempty : found.text ≠ []
  solid : ∀ char ∈ found.text, isSpace char = false

theorem closeMatch_at {front word back : Text} {position : Nat} {rest : List WordMatch}
    (here : position = front.length + word.length)
    (solid : ∀ char ∈ word, isSpace char = false)
    (later : ∀ found ∈ rest, WordAt (front ++ word.reverse ++ back) found) :
    ∀ found ∈ closeMatch position word rest, WordAt (front ++ word.reverse ++ back) found := by
  intro found foundIn
  unfold closeMatch at foundIn
  split at foundIn
  · exact later found foundIn
  next nonempty =>
    rcases List.mem_cons.mp foundIn with rfl | among
    · exact ⟨⟨front, back, rfl, by simp only; omega⟩, by simpa using nonempty, by simpa using solid⟩
    · exact later found among

theorem wordMatchesFrom_at {front word text : Text} {position : Nat}
    (here : position = front.length + word.length)
    (solid : ∀ char ∈ word, isSpace char = false) :
    ∀ found ∈ wordMatchesFrom position word text,
      WordAt (front ++ word.reverse ++ text) found := by
  induction text generalizing front word position with
  | nil => exact closeMatch_at here solid (by simp)
  | cons char rest inductionHypothesis =>
      rw [wordMatchesFrom]
      split
      · apply closeMatch_at here solid
        have later := @inductionHypothesis (front ++ word.reverse ++ [char]) [] (position + 1)
          (by simp; omega) (by simp)
        simpa using later
      next solidChar =>
        have later := @inductionHypothesis front (char :: word) (position + 1)
          (by simp; omega) (by simpa using And.intro (Bool.eq_false_iff.mpr solidChar) solid)
        simpa using later

theorem wordMatches_at {text : Text} {found : WordMatch} (among : found ∈ wordMatches text) :
    WordAt text found := by
  have placed := @wordMatchesFrom_at [] [] text 0 rfl (by simp) found among
  simpa using placed

theorem closeMatch_ordered {position high : Nat} {word : Text} {rest : List WordMatch}
    (here : word.length ≤ position)
    (later : Spans.Ordered position high (rest.map fun found => (found.start, found.end_))) :
    Spans.Ordered (position - word.length) high
      ((closeMatch position word rest).map fun found => (found.start, found.end_)) := by
  unfold closeMatch
  split
  · exact later.weaken (by omega) le_rfl
  next nonempty =>
    have positive := List.length_pos_iff.mpr nonempty
    have stop : position - word.length + word.reverse.length = position := by
      rw [List.length_reverse]
      omega
    rw [List.map_cons, WordMatch.end_, stop]
    exact .cons le_rfl (show position - word.length < position by omega) later

theorem wordMatchesFrom_ordered {position : Nat} {word text : Text}
    (here : word.length ≤ position) :
    Spans.Ordered (position - word.length) (position + text.length)
      ((wordMatchesFrom position word text).map fun found => (found.start, found.end_)) := by
  induction text generalizing position word with
  | nil => exact closeMatch_ordered here (.nil (by simp))
  | cons char rest inductionHypothesis =>
      have length : position + (char :: rest).length = position + 1 + rest.length := by
        simp only [List.length_cons]
        omega
      rw [wordMatchesFrom, length]
      split
      · apply closeMatch_ordered here
        exact (@inductionHypothesis (position + 1) [] (Nat.zero_le _)).weaken (by simp) le_rfl
      · have later := @inductionHypothesis (position + 1) (char :: word)
          (by simp only [List.length_cons]; omega)
        exact later.weaken (by simp only [List.length_cons]; omega) le_rfl

theorem wordMatches_ordered (text : Text) :
    Spans.Ordered 0 text.length
      ((wordMatches text).map fun found => (found.start, found.end_)) := by
  have ordered := @wordMatchesFrom_ordered 0 [] text le_rfl
  simpa [wordMatches] using ordered

theorem closeMatch_covers {position place : Nat} {word : Text} {rest : List WordMatch}
    (here : word.length ≤ position)
    (covered : (position - word.length ≤ place ∧ place < position) ∨
      ∃ found ∈ rest, Spans.Holds (found.start, found.end_) place) :
    ∃ found ∈ closeMatch position word rest, Spans.Holds (found.start, found.end_) place := by
  unfold closeMatch
  split
  next empty =>
    rcases covered with inside | later
    · rw [empty] at inside
      simp only [List.length_nil] at inside
      omega
    · exact later
  next nonempty =>
    rcases covered with inside | ⟨found, among, held⟩
    · refine ⟨_, List.mem_cons_self, inside.1, ?_⟩
      simp only [WordMatch.end_, List.length_reverse]
      omega
    · exact ⟨found, List.mem_cons_of_mem _ among, held⟩

theorem wordMatchesFrom_covers {position place : Nat} {word text : Text}
    (here : word.length ≤ position)
    (solid : (position - word.length ≤ place ∧ place < position) ∨
      (position ≤ place ∧ ∃ char, text[place - position]? = some char ∧ isSpace char = false)) :
    ∃ found ∈ wordMatchesFrom position word text,
      Spans.Holds (found.start, found.end_) place := by
  induction text generalizing position word with
  | nil =>
      apply closeMatch_covers here
      simpa using solid
  | cons char rest inductionHypothesis =>
      -- A place after the first character is a place of the rest.
      have after : position + 1 ≤ place →
          (char :: rest)[place - position]? = rest[place - (position + 1)]? := by
        intro beyond
        have step : place - position = place - (position + 1) + 1 := by omega
        rw [step, List.getElem?_cons_succ]
      rw [wordMatchesFrom]
      split
      next blank =>
        apply closeMatch_covers here
        rcases solid with inside | ⟨beyond, other, read, otherSolid⟩
        · exact .inl inside
        · right
          apply inductionHypothesis (Nat.zero_le _)
          right
          by_cases first : place = position
          · subst first
            simp only [Nat.sub_self, List.getElem?_cons_zero, Option.some.injEq] at read
            subst read
            simp [blank] at otherSolid
          · exact ⟨by omega, other, after (by omega) ▸ read, otherSolid⟩
      next =>
        apply inductionHypothesis (by simp only [List.length_cons]; omega)
        rcases solid with inside | ⟨beyond, other, read, otherSolid⟩
        · exact .inl ⟨by simp only [List.length_cons]; omega, by omega⟩
        · by_cases first : place = position
          · exact .inl ⟨by simp only [List.length_cons]; omega, by omega⟩
          · exact .inr ⟨by omega, other, after (by omega) ▸ read, otherSolid⟩

/-- Every character that is no blank lies in a word. -/
theorem wordMatches_covers {text : Text} {place : Nat} {char : Char}
    (read : text[place]? = some char) (solid : isSpace char = false) :
    ∃ found ∈ wordMatches text, Spans.Holds (found.start, found.end_) place :=
  wordMatchesFrom_covers le_rfl (.inr ⟨Nat.zero_le _, char, read, solid⟩)

/-! ## Slices -/

theorem slice_append (front middle back : Text) :
    slice front.length middle.length (front ++ middle ++ back) = middle := by
  simp [slice]

theorem length_slice {start length : Nat} {text : Text} (inside : start + length ≤ text.length) :
    (slice start length text).length = length := by
  rw [slice, List.length_take, List.length_drop]
  omega

theorem slice_slice (start length from_ size : Nat) (text : Text) (inside : from_ + size ≤ length) :
    slice from_ size (slice start length text) = slice (start + from_) size text := by
  rw [slice, slice, slice, List.drop_take, List.take_take, List.drop_drop]
  rw [min_eq_left (by omega)]

theorem slice_infix {start stop low high : Nat} (text : Text) (below : start ≤ low)
    (above : high ≤ stop) :
    slice low (high - low) text <:+: slice start (stop - start) text := by
  by_cases empty : high ≤ low
  · rw [slice, Nat.sub_eq_zero_of_le empty, List.take_zero]
    exact List.nil_infix
  · have inner := slice_slice start (stop - start) (low - start) (high - low) text (by omega)
    rw [Nat.add_sub_cancel' below] at inner
    rw [← inner]
    exact (List.take_prefix _ _).isInfix.trans (List.drop_suffix _ _).isInfix

theorem WordAt.slice_eq {text : Text} {found : WordMatch} (placed : WordAt text found) :
    slice found.start (found.end_ - found.start) text = found.text := by
  obtain ⟨front, back, rfl, length⟩ := placed.placed
  have room : found.end_ - found.start = found.text.length := by simp [WordMatch.end_]
  rw [room, ← length, slice_append]

theorem WordAt.end_le {text : Text} {found : WordMatch} (placed : WordAt text found) :
    found.start < found.end_ ∧ found.end_ ≤ text.length := by
  obtain ⟨front, back, rfl, length⟩ := placed.placed
  have positive := List.length_pos_iff.mpr placed.nonempty
  simp only [WordMatch.end_, List.length_append]
  omega

theorem mem_slice {text : Text} {start stop place : Nat} {char : Char}
    (read : text[place]? = some char) (low : start ≤ place) (high : place < stop) :
    char ∈ slice start (stop - start) text := by
  apply List.mem_of_getElem? (i := place - start)
  rw [slice, List.getElem?_take_of_lt (by omega), List.getElem?_drop]
  rwa [Nat.add_sub_cancel' low]

/-! ## Parts without blanks -/

/-- A part without a character lies on one side of it. -/
theorem infix_of_append_cons {part front back : Text} {char : Char}
    (inside : part <:+: front ++ char :: back) (absent : char ∉ part) :
    part <:+: front ∨ part <:+: back := by
  rcases List.infix_append_iff.mp inside with left | right | ⟨first, second, rfl, suffix, within⟩
  · exact .inl left
  · rcases List.infix_cons_iff.mp right with starts | later
    · cases part with
      | nil => exact .inl List.nil_infix
      | cons head tail =>
          obtain ⟨same, -⟩ := List.cons_prefix_cons.mp starts
          simp [same] at absent
    · exact .inr later
  · cases second with
    | nil => exact .inl (by simpa using suffix.isInfix)
    | cons head tail =>
        obtain ⟨same, -⟩ := List.cons_prefix_cons.mp within
        simp [same] at absent

/-- A part without blanks lies in a word. -/
theorem exists_word_of_infix {part text : Text} (nonempty : part ≠ [])
    (solid : ∀ char ∈ part, isSpace char = false) (inside : part <:+: text) :
    ∃ word ∈ split text, part <:+: word := by
  induction size : text.length using Nat.strong_induction_on generalizing text with
  | _ size inductionHypothesis =>
      subst size
      rcases wordCases text with allSolid | ⟨word, char, rest, rfl, blank, wordSolid⟩
      · have visible : text ≠ [] := by
          rintro rfl
          exact nonempty (List.infix_nil.mp inside)
        exact ⟨text, by rw [split, splitBy_word visible allSolid]; exact List.mem_singleton_self _,
          inside⟩
      · have absent : char ∉ part := fun charIn => by simp [solid char charIn] at blank
        rw [split_append_space word rest blank wordSolid, closeWord]
        rcases infix_of_append_cons inside absent with inWord | inRest
        · have wordNonempty : word.reverse ≠ [] := by
            intro empty
            rw [List.reverse_eq_nil_iff.mp empty] at inWord
            exact nonempty (List.infix_nil.mp inWord)
          rw [if_neg wordNonempty, List.reverse_reverse]
          exact ⟨word, List.mem_cons_self, inWord⟩
        · obtain ⟨found, foundIn, held⟩ := inductionHypothesis rest.length (by simp; omega) inRest rfl
          refine ⟨found, ?_, held⟩
          split
          · exact foundIn
          · exact List.mem_cons_of_mem _ foundIn

/-- A blank separates the words before it from those behind it. -/
theorem split_append_blank (front back : Text) {char : Char} (blank : isSpace char = true) :
    split (front ++ char :: back) = split front ++ split back := by
  have general : ∀ word : Text, splitFrom isSpace word (front ++ char :: back) =
      splitFrom isSpace word front ++ splitFrom isSpace [] back := by
    induction front with
    | nil =>
        intro word
        simp only [List.nil_append, splitFrom, blank, if_true, closeWord]
        split <;> rfl
    | cons next rest inductionHypothesis =>
        intro word
        simp only [List.cons_append, splitFrom, inductionHypothesis, closeWord]
        split
        · split <;> rfl
        · rfl
  exact general []

theorem join_cons (word next : Text) (rest : List Text) :
    join " " (word :: next :: rest) = word ++ ' ' :: join " " (next :: rest) := by
  simp [join, List.intercalate]

theorem join_append {first second : List Text} (nonempty : first ≠ []) (other : second ≠ []) :
    join " " (first ++ second) = join " " first ++ ' ' :: join " " second := by
  induction first with
  | nil => exact absurd rfl nonempty
  | cons word rest inductionHypothesis =>
      obtain ⟨next, others, rfl⟩ := List.exists_cons_of_ne_nil other
      cases rest with
      | nil => simp [join, List.intercalate]
      | cons more words =>
          have later := inductionHypothesis (List.cons_ne_nil _ _)
          rw [List.cons_append] at later
          rw [List.cons_append, List.cons_append, join_cons, join_cons, later]
          simp

theorem squeeze_append_blank {front back : Text} (visible : squeeze front ≠ [])
    (other : squeeze back ≠ []) :
    squeeze (front ++ ' ' :: back) = squeeze front ++ ' ' :: squeeze back := by
  rw [squeeze, split_append_blank front back (by decide)]
  exact join_append (mt squeeze_eq_nil.mpr visible) (mt squeeze_eq_nil.mpr other)

theorem squeeze_squeeze (text : Text) : squeeze (squeeze text) = squeeze text := by
  rw [squeeze, split_squeeze, squeeze]

/-- A squeezed text begins with a character that is no blank. -/
theorem head_squeeze_solid {text rest : Text} {char : Char} (shape : squeeze text = char :: rest) :
    isSpace char = false := by
  induction text with
  | nil => simp at shape
  | cons next others inductionHypothesis =>
      rw [squeeze_cons] at shape
      split at shape
      · exact inductionHypothesis shape
      next solid =>
        split at shape
        · rw [← (List.cons.inj shape).1]
          simpa using solid
        · rw [← (List.cons.inj shape).1]
          simpa using solid

theorem getLast_squeeze_solid {text : Text} {char : Char}
    (last : (squeeze text).getLast? = some char) : isSpace char = false := by
  induction text with
  | nil => simp at last
  | cons next others inductionHypothesis =>
      rw [squeeze_cons] at last
      split at last
      · exact inductionHypothesis last
      next solid =>
        by_cases empty : squeeze others = []
        · simp only [empty, ne_eq, not_true_eq_false, and_false, if_false, List.getLast?_singleton,
            Option.some.injEq] at last
          rw [← last]
          simpa using solid
        · obtain ⟨first, rest, shape⟩ := List.exists_cons_of_ne_nil empty
          apply inductionHypothesis
          rw [shape] at last ⊢
          split at last
          · simpa using last
          · simpa using last

theorem squeeze_ne_nil {text : Text} {char : Char} (charIn : char ∈ text)
    (solid : isSpace char = false) : squeeze text ≠ [] := by
  have single : squeeze [char] = [char] := squeeze_of_solid (by simpa using solid)
  have inside := squeeze_infix ((List.singleton_infix_iff char text).mpr charIn)
  rw [single] at inside
  intro empty
  rw [empty] at inside
  exact absurd (List.infix_nil.mp inside) (List.cons_ne_nil _ _)

theorem squeeze_eq_nil_iff {text : Text} :
    squeeze text = [] ↔ ∀ char ∈ text, isSpace char = true := by
  constructor
  · intro empty char charIn
    by_contra solid
    exact squeeze_ne_nil charIn (by simpa using solid) empty
  · intro blank
    rw [squeeze_eq_nil]
    have shape := @splitFrom_append_spaces isSpace [] [] text blank
    simpa [split, splitBy, splitFrom, closeWord] using shape

end Text

end LlmWikiServe
