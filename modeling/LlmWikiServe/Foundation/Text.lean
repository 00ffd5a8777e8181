import Mathlib

/-!
# Python text

Python strings are sequences of Unicode scalar values, read here as lists of
characters.  The functions follow the documented behaviour of the `str` methods
of the same name.
-/

namespace LlmWikiServe

/-- A Python string. -/
abbrev Text := List Char

instance : Coe String Text := ⟨String.toList⟩

instance : LawfulBEq Text := inferInstanceAs (LawfulBEq (List Char))

instance : LawfulBEq (List Text) := inferInstance

/-- A statement about the characters of a text is decided at these, not at all characters. -/
instance {holds : Char → Prop} [DecidablePred holds] (text : Text) :
    Decidable (∀ char ∈ text, holds char) := List.decidableBAll holds text

namespace Text

/-- The characters `str.isspace` accepts, which are also the ones `\s` matches. -/
def isSpace (char : Char) : Bool :=
  let code := char.toNat
  (9 ≤ code && code ≤ 13) || (28 ≤ code && code ≤ 32) || code = 0x85 || code = 0xA0 ||
    code = 0x1680 || (0x2000 ≤ code && code ≤ 0x200A) || code = 0x2028 || code = 0x2029 ||
    code = 0x202F || code = 0x205F || code = 0x3000

/-- `str.lstrip` with the characters to remove given by a predicate. -/
def lstripBy (remove : Char → Bool) (text : Text) : Text := text.dropWhile remove

/-- `str.rstrip` with the characters to remove given by a predicate. -/
def rstripBy (remove : Char → Bool) (text : Text) : Text := text.rdropWhile remove

/-- `str.strip` with the characters to remove given by a predicate. -/
def stripBy (remove : Char → Bool) (text : Text) : Text :=
  rstripBy remove (lstripBy remove text)

/-- `str.strip()`. -/
def strip (text : Text) : Text := stripBy isSpace text

/-- `str.rstrip()`. -/
def rstrip (text : Text) : Text := rstripBy isSpace text

/-- Close the word read so far, given in reverse. -/
def closeWord (word : Text) (rest : List Text) : List Text :=
  if word = [] then rest else word.reverse :: rest

/-- The words of a text after the characters of `word`, read in reverse. -/
def splitFrom (space : Char → Bool) : Text → Text → List Text
  | word, [] => closeWord word []
  | word, char :: rest =>
      if space char then
        closeWord word (splitFrom space [] rest)
      else
        splitFrom space (char :: word) rest

/-- The maximal runs of characters that are no separators. -/
def splitBy (space : Char → Bool) (text : Text) : List Text := splitFrom space [] text

/-- `str.split()`. -/
def split (text : Text) : List Text := splitBy isSpace text

/-- `separator.join(parts)`. -/
def join (separator : Text) (parts : List Text) : Text := separator.intercalate parts

/-- `str.split(separator)` for a separator of one character. -/
def splitOn (separator : Char) (text : Text) : List Text :=
  List.splitOn separator text

/-- `text.rsplit(separator, maxsplit=1)[0]` for a separator of one character. -/
def beforeLast (separator : Char) (text : Text) : Text :=
  if separator ∈ text then
    (text.reverse.dropWhile (fun char => char ≠ separator)).tail.reverse
  else text

/-- `text.rsplit(separator, maxsplit=1)[-1]` for a separator of one character. -/
def afterLast (separator : Char) (text : Text) : Text :=
  (text.reverse.takeWhile (fun char => char ≠ separator)).reverse

/-- `text.split(separator, maxsplit=1)[0]` for a separator of one character. -/
def beforeFirst (separator : Char) (text : Text) : Text :=
  text.takeWhile (fun char => char ≠ separator)

/-- `str.startswith`. -/
def startsWith (text start : Text) : Bool := start.isPrefixOf text

/-- `str.endswith`. -/
def endsWith (text ending : Text) : Bool := ending.isSuffixOf text

/-- `str.removeprefix`. -/
def removePrefix (text start : Text) : Text :=
  if startsWith text start then text.drop start.length else text

/-- `needle in text`. -/
def contains (needle : Text) : Text → Bool
  | [] => needle.isEmpty
  | char :: rest => needle.isPrefixOf (char :: rest) || contains needle rest

/-- `text.find(needle)`, `none` standing for `-1`. -/
def find? (needle : Text) : Text → Option Nat
  | [] => if needle.isEmpty then some 0 else none
  | char :: rest =>
      if needle.isPrefixOf (char :: rest) then some 0 else (find? needle rest).map (· + 1)

/-- Replace the non-overlapping occurrences of a non-empty text, skipping `pending` characters. -/
def replaceFrom (old new : Text) : Nat → Text → Text
  | _, [] => []
  | pending + 1, _ :: rest => replaceFrom old new pending rest
  | 0, char :: rest =>
      if old.isPrefixOf (char :: rest) then
        new ++ replaceFrom old new (old.length - 1) rest
      else
        char :: replaceFrom old new 0 rest

/-- `text.replace(old, new)` for a non-empty `old`. -/
def replace (old new text : Text) : Text := replaceFrom old new 0 text

/-- `text.replace(old, new)` for single characters. -/
def replaceChar (old new : Char) (text : Text) : Text :=
  text.map fun char => if char = old then new else char

/-- Replace every maximal run of characters that are not kept by one filler, `inRun` telling
whether the text continues such a run. -/
def collapseFrom (keep : Char → Bool) (filler : Char) : Bool → Text → Text
  | _, [] => []
  | inRun, char :: rest =>
      if keep char then
        char :: collapseFrom keep filler false rest
      else if inRun then
        collapseFrom keep filler true rest
      else
        filler :: collapseFrom keep filler true rest

/-- `re.sub` of the runs of a negated character class by one character. -/
def collapse (keep : Char → Bool) (filler : Char) (text : Text) : Text :=
  collapseFrom keep filler false text

/-- The newline translation of a file opened in text mode. -/
def universalNewlines : Text → Text
  | [] => []
  | '\r' :: '\n' :: rest => '\n' :: universalNewlines rest
  | '\r' :: rest => '\n' :: universalNewlines rest
  | char :: rest => char :: universalNewlines rest

/-- The decimal digits of a natural number. -/
def ofNat (number : Nat) : Text := Nat.toDigits 10 number

/-- `str` of an integer. -/
def ofInt : Int → Text
  | .ofNat number => ofNat number
  | .negSucc number => '-' :: ofNat (number + 1)

/-- A natural number padded with zeros on the left. -/
def padded (width number : Nat) : Text :=
  List.replicate (width - (ofNat number).length) '0' ++ ofNat number

/-- `text[start : start + limit]` of a slice that starts inside the text. -/
def slice (start limit : Nat) (text : Text) : Text := (text.drop start).take limit

theorem contains_iff_infix (needle text : Text) :
    contains needle text = true ↔ needle <:+: text := by
  induction text with
  | nil => simp [contains]
  | cons char rest inductionHypothesis =>
      rw [contains, Bool.or_eq_true, inductionHypothesis, List.infix_cons_iff,
        List.isPrefixOf_iff_prefix]

theorem find?_prefix {needle text : Text} {position : Nat}
    (found : find? needle text = some position) : needle <+: text.drop position := by
  induction text generalizing position with
  | nil =>
      unfold find? at found
      split at found
      next empty => simp [List.isEmpty_iff.mp empty]
      next => cases found
  | cons char rest inductionHypothesis =>
      rw [find?] at found
      split at found
      next here =>
        obtain rfl := Option.some.inj found
        exact List.isPrefixOf_iff_prefix.mp here
      next =>
        obtain ⟨later, laterFound, rfl⟩ := Option.map_eq_some_iff.mp found
        exact inductionHypothesis laterFound

theorem exists_find? {needle text : Text} (inside : needle <:+: text) :
    ∃ position, find? needle text = some position := by
  induction text with
  | nil => simp [find?, List.infix_nil.mp inside]
  | cons char rest inductionHypothesis =>
      rw [find?]
      split
      next => exact ⟨0, rfl⟩
      next absent =>
        rcases List.infix_cons_iff.mp inside with here | later
        · exact absurd (List.isPrefixOf_iff_prefix.mpr here) absent
        · obtain ⟨position, found⟩ := inductionHypothesis later
          exact ⟨position + 1, by rw [found]; rfl⟩

/-! ## Terminated words -/

/-- A word is read off up to its terminator. -/
theorem takeWhile_terminated {stop : Char} {word : Text} (free : stop ∉ word) (rest : Text) :
    (word ++ stop :: rest).takeWhile (· ≠ stop) = word := by
  rw [List.takeWhile_append_of_pos]
  · simp
  · intro char charIn
    simpa using fun same : char = stop => free (same ▸ charIn)

/-- Words that do not hold the terminator are determined by their concatenation. -/
theorem terminated_injective {stop : Char} {words others : List Text}
    (free : ∀ word ∈ words, stop ∉ word) (otherFree : ∀ word ∈ others, stop ∉ word)
    (same : words.flatMap (· ++ [stop]) = others.flatMap (· ++ [stop])) : words = others := by
  induction words generalizing others with
  | nil =>
      cases others with
      | nil => rfl
      | cons word rest => simp at same
  | cons word rest inductionHypothesis =>
      cases others with
      | nil => simp at same
      | cons other otherRest =>
          simp only [List.flatMap_cons, List.append_assoc, List.singleton_append] at same
          have heads := congrArg (List.takeWhile (· ≠ stop)) same
          rw [takeWhile_terminated (free word List.mem_cons_self),
            takeWhile_terminated (otherFree other List.mem_cons_self)] at heads
          subst heads
          have tails := List.append_cancel_left same
          simp only [List.cons.injEq, true_and] at tails
          rw [inductionHypothesis (fun part partIn => free part (List.mem_cons_of_mem _ partIn))
            (fun part partIn => otherFree part (List.mem_cons_of_mem _ partIn)) tails]

/-! ## Words -/

variable {space : Char → Bool}

@[simp]
theorem splitBy_nil : splitBy space [] = [] := rfl

theorem splitFrom_append_of_word (word front back : Text)
    (solid : ∀ char ∈ front, space char = false) :
    splitFrom space word (front ++ back) = splitFrom space (front.reverse ++ word) back := by
  induction front generalizing word with
  | nil => rfl
  | cons char rest inductionHypothesis =>
      have charSolid := solid char (by simp)
      have restSolid : ∀ other ∈ rest, space other = false :=
        fun other otherIn => solid other (by simp [otherIn])
      simp [splitFrom, charSolid, inductionHypothesis _ restSolid]

theorem splitBy_cons_of_space {char : Char} (blank : space char = true) (text : Text) :
    splitBy space (char :: text) = splitBy space text := by
  simp [splitBy, splitFrom, blank, closeWord]

/-- Splitting a word followed by a separator takes the word off. -/
theorem splitBy_word_space {word : Text} {char : Char} (nonempty : word ≠ [])
    (solid : ∀ other ∈ word, space other = false) (blank : space char = true) (text : Text) :
    splitBy space (word ++ char :: text) = word :: splitBy space text := by
  rw [splitBy, splitFrom_append_of_word _ _ _ solid]
  simp [splitFrom, blank, closeWord, nonempty, splitBy]

theorem splitBy_word {word : Text} (nonempty : word ≠ [])
    (solid : ∀ other ∈ word, space other = false) : splitBy space word = [word] := by
  have whole := splitFrom_append_of_word [] word [] solid
  simp only [List.append_nil] at whole
  simp [splitBy, whole, splitFrom, closeWord, nonempty]

/-- Words are non-empty and hold no separator. -/
theorem splitFrom_words (word text : Text) (solid : ∀ char ∈ word, space char = false) :
    ∀ part ∈ splitFrom space word text, part ≠ [] ∧ ∀ char ∈ part, space char = false := by
  induction text generalizing word with
  | nil =>
      intro part partIn
      unfold splitFrom closeWord at partIn
      split at partIn
      · simp at partIn
      · rename_i nonempty
        simp only [List.mem_singleton] at partIn
        subst partIn
        exact ⟨by simpa using nonempty, fun char charIn => solid char (by simpa using charIn)⟩
  | cons head tail inductionHypothesis =>
      intro part partIn
      unfold splitFrom at partIn
      split at partIn
      · unfold closeWord at partIn
        split at partIn
        · exact inductionHypothesis [] (by simp) part partIn
        · rename_i nonempty
          rcases List.mem_cons.mp partIn with equality | later
          · subst equality
            exact ⟨by simpa using nonempty,
              fun char charIn => solid char (by simpa using charIn)⟩
          · exact inductionHypothesis [] (by simp) part later
      · rename_i headSolid
        apply inductionHypothesis (head :: word) _ part partIn
        intro char charIn
        rcases List.mem_cons.mp charIn with equality | earlier
        · subst equality
          simpa using headSolid
        · exact solid char earlier

theorem splitBy_words (text : Text) :
    ∀ part ∈ splitBy space text, part ≠ [] ∧ ∀ char ∈ part, space char = false :=
  splitFrom_words [] text (by simp)

theorem splitBy_join_words {separator : Char} (blank : space separator = true)
    (parts : List Text)
    (words : ∀ part ∈ parts, part ≠ [] ∧ ∀ char ∈ part, space char = false) :
    splitBy space (join [separator] parts) = parts := by
  induction parts with
  | nil => rfl
  | cons word rest inductionHypothesis =>
      have wordFacts := words word (by simp)
      cases rest with
      | nil => simpa [join, List.intercalate] using splitBy_word wordFacts.1 wordFacts.2
      | cons next others =>
          have unfolded : join [separator] (word :: next :: others) =
              word ++ separator :: join [separator] (next :: others) := by
            simp [join, List.intercalate]
          rw [unfolded, splitBy_word_space wordFacts.1 wordFacts.2 blank,
            inductionHypothesis (fun part partIn => words part (by simp [partIn]))]

theorem splitBy_dropWhile_space (text : Text) :
    splitBy space (text.dropWhile space) = splitBy space text := by
  induction text with
  | nil => rfl
  | cons char rest inductionHypothesis =>
      by_cases blank : space char = true
      · rw [List.dropWhile_cons_of_pos blank, inductionHypothesis, splitBy_cons_of_space blank]
      · rw [List.dropWhile_cons_of_neg blank]

theorem splitFrom_append_spaces (word text blanks : Text)
    (allBlank : ∀ char ∈ blanks, space char = true) :
    splitFrom space word (text ++ blanks) = splitFrom space word text := by
  induction text generalizing word with
  | nil =>
      induction blanks generalizing word with
      | nil => rfl
      | cons char rest blanksHypothesis =>
          have charBlank := allBlank char (by simp)
          have restBlank : ∀ other ∈ rest, space other = true :=
            fun other otherIn => allBlank other (by simp [otherIn])
          have remaining := blanksHypothesis restBlank []
          simp only [List.nil_append] at remaining ⊢
          simp only [splitFrom, charBlank, if_true, remaining]
          simp [closeWord]
  | cons char rest inductionHypothesis =>
      simp only [List.cons_append, splitFrom, inductionHypothesis]

theorem splitBy_rstripBy (text : Text) :
    splitBy space (rstripBy space text) = splitBy space text := by
  have shape : text = rstripBy space text ++ text.rtakeWhile space :=
    List.rdropWhile_append_rtakeWhile.symm
  conv_rhs => rw [shape]
  refine (splitFrom_append_spaces [] _ _ ?_).symm
  intro char charIn
  exact List.mem_rtakeWhile_imp charIn

/-- Stripping does not change the words. -/
theorem splitBy_stripBy (text : Text) :
    splitBy space (stripBy space text) = splitBy space text := by
  rw [stripBy, splitBy_rstripBy, lstripBy, splitBy_dropWhile_space]

/-- A text is blank-free, or a blank-free front, a blank and a rest. -/
theorem wordCases (text : Text) :
    (∀ char ∈ text, isSpace char = false) ∨
      ∃ word char rest, text = word ++ char :: rest ∧ isSpace char = true ∧
        ∀ other ∈ word, isSpace other = false := by
  induction text with
  | nil => exact Or.inl (by simp)
  | cons head tail inductionHypothesis =>
      cases blank : isSpace head with
      | true => exact Or.inr ⟨[], head, tail, rfl, blank, by simp⟩
      | false =>
          rcases inductionHypothesis with solid | ⟨word, char, rest, shape, charBlank, solid⟩
          · refine Or.inl fun char charIn => ?_
            rcases List.mem_cons.mp charIn with rfl | later
            · exact blank
            · exact solid char later
          · refine Or.inr ⟨head :: word, char, rest, by simp [shape], charBlank, ?_⟩
            intro other otherIn
            rcases List.mem_cons.mp otherIn with rfl | later
            · exact blank
            · exact solid other later

/-- Splitting a blank-free front off, which may be empty. -/
theorem split_append_space (word rest : Text) {char : Char} (blank : isSpace char = true)
    (solid : ∀ other ∈ word, isSpace other = false) :
    split (word ++ char :: rest) = closeWord word.reverse (split rest) := by
  unfold split
  by_cases empty : word = []
  · subst empty
    simp [splitBy_cons_of_space blank, closeWord]
  · rw [splitBy_word_space empty solid blank]
    simp [closeWord, empty]

/-- Words of a text changed character by character, blanks staying blanks. -/
theorem split_map (change : Char → Char)
    (keepsBlank : ∀ char, isSpace char = true → isSpace (change char) = true) (text : Text) :
    split (text.map change) = (split text).flatMap fun word => split (word.map change) := by
  induction size : text.length using Nat.strong_induction_on generalizing text with
  | _ size inductionHypothesis =>
      subst size
      rcases wordCases text with solid | ⟨word, char, rest, shape, blank, solid⟩
      · by_cases empty : text = []
        · subst empty
          rfl
        · simp [split, @splitBy_word isSpace text empty solid]
      · subst shape
        have shorter : rest.length < (word ++ char :: rest).length := by simp; omega
        have separated : ∀ front : Text, split (front ++ change char :: rest.map change) =
            split front ++ split (rest.map change) := by
          intro front
          induction frontSize : front.length using Nat.strong_induction_on generalizing front with
          | _ frontSize frontHypothesis =>
              subst frontSize
              rcases wordCases front with frontSolid | ⟨first, other, others, frontShape, otherBlank,
                firstSolid⟩
              · rw [split_append_space _ _ (keepsBlank char blank) frontSolid]
                by_cases empty : front = []
                · subst empty
                  simp [closeWord, split]
                · simp [closeWord, empty, split,
                    @splitBy_word isSpace front empty frontSolid]
              · subst frontShape
                have otherShorter : others.length < (first ++ other :: others).length := by
                  simp; omega
                rw [List.append_assoc, List.cons_append,
                  split_append_space _ _ otherBlank firstSolid,
                  split_append_space _ _ otherBlank firstSolid,
                  frontHypothesis _ otherShorter others rfl]
                by_cases empty : first = []
                · subst empty
                  simp [closeWord]
                · simp [closeWord, empty]
        rw [List.map_append, List.map_cons, separated, inductionHypothesis _ shorter rest rfl,
          split_append_space _ _ blank solid]
        by_cases empty : word = []
        · subst empty
          simp [closeWord, split]
        · simp [closeWord, empty]

/-! ## Characters that stay -/

theorem mem_splitFrom {word text : Text} {char : Char} (solid : space char = false)
    (charIn : char ∈ word ∨ char ∈ text) :
    ∃ part ∈ splitFrom space word text, char ∈ part := by
  induction text generalizing word with
  | nil =>
      have inWord : char ∈ word := by simpa using charIn
      have nonempty : word ≠ [] := List.ne_nil_of_mem inWord
      exact ⟨word.reverse, by simp [splitFrom, closeWord, nonempty], by simpa using inWord⟩
  | cons head tail inductionHypothesis =>
      cases blank : space head with
      | true =>
          rcases charIn with inWord | inText
          · have nonempty : word ≠ [] := List.ne_nil_of_mem inWord
            exact ⟨word.reverse, by simp [splitFrom, blank, closeWord, nonempty],
              by simpa using inWord⟩
          · have inTail : char ∈ tail := by
              rcases List.mem_cons.mp inText with rfl | later
              · exact absurd blank (by simp [solid])
              · exact later
            rcases @inductionHypothesis [] (Or.inr inTail) with ⟨part, partIn, charIn⟩
            refine ⟨part, ?_, charIn⟩
            simp only [splitFrom, blank, if_true, closeWord]
            split
            · exact partIn
            · exact List.mem_cons_of_mem _ partIn
      | false =>
          simp only [splitFrom, blank, Bool.false_eq_true, if_false]
          apply inductionHypothesis
          rcases charIn with inWord | inText
          · exact Or.inl (List.mem_cons_of_mem _ inWord)
          · rcases List.mem_cons.mp inText with rfl | later
            · exact Or.inl List.mem_cons_self
            · exact Or.inr later

/-- A character that is no blank is in some word. -/
theorem mem_split {text : Text} {char : Char} (charIn : char ∈ text)
    (solid : isSpace char = false) : ∃ part ∈ split text, char ∈ part :=
  mem_splitFrom solid (Or.inr charIn)

theorem mem_join {separator part : Text} {parts : List Text} {char : Char}
    (partIn : part ∈ parts) (charIn : char ∈ part) : char ∈ join separator parts := by
  induction parts with
  | nil => simp at partIn
  | cons first rest inductionHypothesis =>
      cases rest with
      | nil =>
          rw [List.mem_singleton.mp partIn] at charIn
          simpa [join, List.intercalate] using charIn
      | cons next others =>
          have unfolded : join separator (first :: next :: others) =
              first ++ separator ++ join separator (next :: others) := by
            simp [join, List.intercalate]
          rw [unfolded]
          rcases List.mem_cons.mp partIn with rfl | later
          · simp [charIn]
          · exact List.mem_append_right _ (inductionHypothesis later)

theorem mem_stripBy {remove : Char → Bool} {text : Text} {char : Char} (charIn : char ∈ text)
    (kept : remove char = false) : char ∈ stripBy remove text := by
  have inFront : char ∈ lstripBy remove text := by
    have shape : text = text.takeWhile remove ++ lstripBy remove text :=
      List.takeWhile_append_dropWhile.symm
    rw [shape] at charIn
    rcases List.mem_append.mp charIn with removed | stays
    · exact absurd (List.mem_takeWhile_imp removed) (by simp [kept])
    · exact stays
  have shape : lstripBy remove text =
      stripBy remove text ++ (lstripBy remove text).rtakeWhile remove :=
    List.rdropWhile_append_rtakeWhile.symm
  rw [shape] at inFront
  rcases List.mem_append.mp inFront with stays | removed
  · exact stays
  · exact absurd (List.mem_rtakeWhile_imp removed) (by simp [kept])

theorem stripBy_of_solid {remove : Char → Bool} {text : Text}
    (kept : ∀ char ∈ text, remove char = false) : stripBy remove text = text := by
  have front : lstripBy remove text = text := by
    cases text with
    | nil => rfl
    | cons head tail =>
        exact List.dropWhile_cons_of_neg (by simp [kept head List.mem_cons_self])
  rw [stripBy, front, rstripBy, List.rdropWhile_eq_self_iff]
  intro nonempty
  simp [kept _ (List.getLast_mem nonempty)]

theorem lstripBy_strip (text : Text) : lstripBy isSpace (strip text) = strip text := by
  apply List.dropWhile_eq_self_iff.mpr
  intro nonempty blank
  have starts : strip text <+: lstripBy isSpace text := List.rdropWhile_prefix _ _
  have longer : 0 < (lstripBy isSpace text).length := nonempty.trans_le starts.length_le
  rw [starts.getElem nonempty] at blank
  exact List.dropWhile_get_zero_not isSpace text longer blank

theorem strip_strip (text : Text) : strip (strip text) = strip text :=
  calc strip (strip text)
      = rstripBy isSpace (strip text) := congrArg _ (lstripBy_strip text)
    _ = strip text := List.rdropWhile_idempotent _ _

/-- A text between two characters that are not blank is stripped already. -/
theorem strip_of_ends {text : Text}
    (starts : ∀ char rest, text = char :: rest → isSpace char = false)
    (stops : ∀ front char, text = front ++ [char] → isSpace char = false) : strip text = text := by
  have front : lstripBy isSpace text = text := by
    cases text with
    | nil => rfl
    | cons head tail => exact List.dropWhile_cons_of_neg (by simp [starts head tail rfl])
  rw [strip, stripBy, front, rstripBy, List.rdropWhile_eq_self_iff]
  intro nonempty
  simp [stops _ _ (List.dropLast_append_getLast nonempty).symm]

theorem head_of_strip {text rest : Text} {char : Char} (stripped : strip text = text)
    (shape : text = char :: rest) : isSpace char = false := by
  have front := lstripBy_strip text
  rw [stripped, lstripBy, List.dropWhile_eq_self_iff] at front
  subst shape
  simpa using front

theorem last_of_strip {text front : Text} {char : Char} (stripped : strip text = text)
    (shape : text = front ++ [char]) : isSpace char = false := by
  have back : rstripBy isSpace (lstripBy isSpace text) = text := stripped
  have kept := lstripBy_strip text
  rw [stripped] at kept
  rw [kept, rstripBy, List.rdropWhile_eq_self_iff] at back
  subst shape
  simpa using back

/-- Replacing starts after a front that lacks the first character of the old text. -/
theorem replace_append {mark : Char} {more new front rest : Text} (absent : mark ∉ front) :
    replace (mark :: more) new (front ++ rest) = front ++ replace (mark :: more) new rest := by
  unfold replace
  induction front with
  | nil => rfl
  | cons head tail inductionHypothesis =>
      have differs : mark ≠ head := fun same => absent (same ▸ List.mem_cons_self)
      have tailAbsent : mark ∉ tail := fun later => absent (List.mem_cons_of_mem _ later)
      simp [replaceFrom, differs, inductionHypothesis tailAbsent]

/-! ## Numerals -/

theorem ofNat_injective {left right : Nat} (same : ofNat left = ofNat right) : left = right := by
  have decoded := congrArg (fun digits => Nat.ofDigitChars 10 digits 0) same
  simpa [ofNat, Nat.ofDigitChars_ten_toDigits] using decoded

/-- An integer prints with digits and a sign. -/
theorem mem_ofInt {number : Int} {char : Char} (charIn : char ∈ ofInt number) :
    char.isDigit = true ∨ char = '-' := by
  cases number with
  | ofNat size => exact Or.inl (Nat.isDigit_of_mem_toDigits (by decide) (by decide) charIn)
  | negSucc size =>
      rcases List.mem_cons.mp charIn with rfl | inDigits
      · exact Or.inr rfl
      · exact Or.inl (Nat.isDigit_of_mem_toDigits (by decide) (by decide) inDigits)

end Text

end LlmWikiServe
