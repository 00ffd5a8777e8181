import LlmWikiServe.CompoundGrammar

/-!
# The grammar of English raw tokens

The single-pass scan for raw tokens finds the leftmost matches of a regular expression.  Whatever
follows a run of letters and digits is optional, so no character of the run is given back.
-/

namespace LlmWikiServe

open Pattern

/-- `[A-Za-z0-9]+(?:[가-힣]+|['’]s?)?|[가-힣]+` -/
def englishRawTokenPattern : Pattern :=
  let hangul := plus (.one isHangul)
  let possessive := .seq (.one (· ∈ englishApostrophes)) (opt (char 's'))
  .alt (.seq (plus (.one isAsciiAlnum)) (opt (.alt hangul possessive))) hangul

/-- `scan_english_raw_tokens(text)` -/
def scanEnglishRawTokens (text : Text) : List Text := scanEnglishFrom text.length text

section Ends

variable {text : Text} {index : Nat}

/-- A greedy run of characters, where what follows goes on behind it. -/
theorem firstEnd_plus_of_goes {α : Type} {accepts : Char → Bool} {rest : Cursor → Option α}
    (goes : ∀ place, (rest (.at text place)).isSome = true) :
    firstEnd (plus (.one accepts)) rest (.at text index) =
      if charAt accepts text index then rest (.at text (consume accepts text index)) else none := by
  rw [plus, firstEnd_seq, firstEnd_one_at]
  unfold charAt
  split
  next here =>
    obtain ⟨result, found⟩ := Option.isSome_iff_exists.mp
      (goes (consume accepts text (index + 1)))
    rw [consume_succ here, found]
    exact firstEnd_star_one_of_goes _
      (fun _ within => charAt_of_lt_consume (Nat.le_add_right _ _)
        (Nat.add_lt_add_left within _)) charAt_consume found
  next => rfl

/-- The end of what may follow a run of letters and digits. -/
def suffixEnd (text : Text) (index : Nat) : Nat :=
  if charAt isHangul text index then consume isHangul text index
  else if charAt (· ∈ englishApostrophes) text index then
    if charAt (· = 's') text (index + 1) then index + 2 else index + 1
  else index

def rawTokenEnd (text : Text) (index : Nat) : Option Nat :=
  if charAt isAsciiAlnum text index then some (suffixEnd text (consume isAsciiAlnum text index))
  else if charAt isHangul text index then some (consume isHangul text index)
  else none

theorem firstEnd_hangul :
    firstEnd (plus (.one isHangul)) some (.at text index) =
      if charAt isHangul text index then some (.at text (consume isHangul text index)) else none :=
  firstEnd_plus_of_goes fun _ => rfl

theorem firstEnd_suffix :
    firstEnd (opt (.alt (plus (.one isHangul))
        (.seq (.one (· ∈ englishApostrophes)) (opt (char 's'))))) some (.at text index) =
      some (.at text (suffixEnd text index)) := by
  rw [opt, firstEnd_alt, firstEnd_alt, firstEnd_empty, firstEnd_hangul, firstEnd_seq,
    firstEnd_one_at, opt, firstEnd_alt, firstEnd_empty, char, firstEnd_one_at]
  unfold suffixEnd charAt
  split_ifs <;> rfl

theorem firstEnd_englishRawTokenPattern :
    firstEnd englishRawTokenPattern some (.at text index) =
      (rawTokenEnd text index).map (.at text) := by
  have unfolded : englishRawTokenPattern =
      .alt (.seq (plus (.one isAsciiAlnum)) (opt (.alt (plus (.one isHangul))
        (.seq (.one (· ∈ englishApostrophes)) (opt (char 's')))))) (plus (.one isHangul)) := rfl
  rw [unfolded, firstEnd_alt, firstEnd_seq, firstEnd_plus_of_goes, firstEnd_hangul,
    firstEnd_suffix]
  · unfold rawTokenEnd
    split_ifs <;> rfl
  · intro place
    rw [firstEnd_suffix]
    rfl

theorem lt_rawTokenEnd {stop : Nat} (ends : rawTokenEnd text index = some stop) :
    index < stop ∧ stop ≤ text.length := by
  have further : ∀ {accepts : Char → Bool} {place : Nat}, charAt accepts text place = true →
      place < consume accepts text place ∧ consume accepts text place ≤ text.length := by
    intro accepts place here
    have inside := lt_length_of_charAt here
    refine ⟨?_, consume_le_length inside.le⟩
    rw [consume_succ here]
    exact le_consume
  unfold rawTokenEnd at ends
  split_ifs at ends with alnum hangul
  · obtain rfl := Option.some.inj ends
    have run_ := further alnum
    unfold suffixEnd
    split_ifs with syllable apostrophe possessive
    · have suffix := further syllable
      omega
    · have suffix := lt_length_of_charAt possessive
      omega
    · have suffix := lt_length_of_charAt apostrophe
      omega
    · exact run_
  · obtain rfl := Option.some.inj ends
    exact further hangul

end Ends

/-! ## The scan -/

section Scan

variable {text : Text} {index : Nat}

theorem takeWhile_drop (accepts : Char → Bool) (text : Text) (index : Nat) :
    (text.drop index).takeWhile accepts =
      Text.slice index (consume accepts text index - index) text := by
  rw [consume, Nat.add_sub_cancel_left, Text.slice]
  exact (List.prefix_iff_eq_take.mp (List.takeWhile_prefix accepts))

theorem dropWhile_drop (accepts : Char → Bool) (text : Text) (index : Nat) :
    (text.drop index).dropWhile accepts = text.drop (consume accepts text index) := by
  have shape := @List.takeWhile_append_dropWhile _ accepts (text.drop index)
  calc (text.drop index).dropWhile accepts
      = ((text.drop index).takeWhile accepts ++ (text.drop index).dropWhile accepts).drop
          ((text.drop index).takeWhile accepts).length := List.drop_left.symm
    _ = text.drop (consume accepts text index) := by rw [shape, List.drop_drop, consume]

theorem slice_append {middle stop : Nat} (front : index ≤ middle) (back : middle ≤ stop) :
    Text.slice index (middle - index) text ++ Text.slice middle (stop - middle) text =
      Text.slice index (stop - index) text := by
  have split : stop - index = (middle - index) + (stop - middle) := by omega
  have place : index + (middle - index) = middle := by omega
  rw [Text.slice, Text.slice, Text.slice, split, List.take_add, List.drop_drop, place]

theorem charAt_of_drop {accepts : Char → Bool} {next : Char} {after : Text}
    (shape : text.drop index = next :: after) : charAt accepts text index = accepts next := by
  have here : text[index]? = some next := by
    rw [← List.head?_drop, shape, List.head?_cons]
  rw [charAt, here, Option.any_some]

theorem charAt_of_drop_nil {accepts : Char → Bool} (shape : text.drop index = []) :
    charAt accepts text index = false := by
  have outside : text[index]? = none := by
    rw [← List.head?_drop, shape, List.head?_nil]
  rw [charAt, outside, Option.any_none]

theorem drop_succ_of_drop {next : Char} {after : Text} (shape : text.drop index = next :: after) :
    text.drop (index + 1) = after := by
  rw [← List.drop_drop, shape, List.drop_one, List.tail_cons]

theorem slice_one_of_drop {next : Char} {after : Text} (shape : text.drop index = next :: after) :
    Text.slice index 1 text = [next] := by
  rw [Text.slice, shape, List.take_succ_cons, List.take_zero]

/-- What follows a run of letters and digits is taken with it. -/
theorem scanEnglishFrom_alnum {fuel : Nat} (alnum : charAt isAsciiAlnum text index = true) :
    scanEnglishFrom (fuel + 1) (text.drop index) =
      let stop := suffixEnd text (consume isAsciiAlnum text index)
      Text.slice index (stop - index) text :: scanEnglishFrom fuel (text.drop stop) := by
  obtain ⟨char, rest, shape⟩ := List.exists_cons_of_ne_nil
    (List.ne_nil_of_length_pos (by rw [List.length_drop]; have := lt_length_of_charAt alnum; omega) :
      text.drop index ≠ [])
  have front := @le_consume isAsciiAlnum text index
  rw [charAt_of_drop shape] at alnum
  rw [shape, scanEnglishFrom, if_pos alnum, ← shape, takeWhile_drop, dropWhile_drop]
  generalize consume isAsciiAlnum text index = middle at front ⊢
  dsimp only
  unfold suffixEnd
  rcases behind : text.drop middle with _ | ⟨next, after⟩
  · rw [charAt_of_drop_nil behind, charAt_of_drop_nil behind]
    simp only [Bool.false_eq_true, if_false, behind]
    cases fuel <;> rfl
  · have tail := drop_succ_of_drop behind
    have mark := slice_one_of_drop behind
    have possessive_iff : charAt (· = 's') text (middle + 1) = true ↔ after.head? = some 's' := by
      rw [charAt, ← List.head?_drop, tail]
      cases after <;> simp
    have one : Text.slice middle (middle + 1 - middle) text = [next] := by
      rw [Nat.add_sub_cancel_left, mark]
    dsimp only
    rw [charAt_of_drop behind, charAt_of_drop behind]
    simp only [possessive_iff, decide_eq_true_eq]
    split_ifs with syllable apostrophe possessive
    · rw [← behind, takeWhile_drop, dropWhile_drop, slice_append front le_consume]
    · obtain ⟨last, after, rfl⟩ : ∃ last rest, after = last :: rest := by
        cases after with
        | nil => cases possessive
        | cons last rest => exact ⟨last, rest, rfl⟩
      obtain rfl : last = 's' := Option.some.inj possessive
      have two : Text.slice middle (middle + 2 - middle) text = [next, 's'] := by
        rw [Nat.add_sub_cancel_left, Text.slice, behind]
        rfl
      rw [← slice_append front (Nat.le_add_right middle 2), two, drop_succ_of_drop tail,
        List.tail_cons]
    · rw [← slice_append front (Nat.le_add_right middle 1), one, tail]
    · rw [behind]

/-- The position behind a round of the scan, with the raw tokens it appends. -/
def rawTokenRound (text : Text) (index : Nat) : Nat × List Text :=
  if charAt isAsciiAlnum text index then
    let stop := suffixEnd text (consume isAsciiAlnum text index)
    (stop, [Text.slice index (stop - index) text])
  else if charAt isHangul text index then
    let stop := consume isHangul text index
    (stop, [Text.slice index (stop - index) text])
  else (index + 1, [])

theorem rawTokenRound_of_end {stop : Nat} (ends : rawTokenEnd text index = some stop) :
    rawTokenRound text index = (stop, [Text.slice index (stop - index) text]) := by
  unfold rawTokenEnd at ends
  unfold rawTokenRound
  split_ifs at ends ⊢
  · obtain rfl := Option.some.inj ends
    rfl
  · obtain rfl := Option.some.inj ends
    rfl

theorem rawTokenRound_of_none (nothing : rawTokenEnd text index = none) :
    rawTokenRound text index = (index + 1, []) := by
  unfold rawTokenEnd at nothing
  unfold rawTokenRound
  split_ifs at nothing ⊢
  rfl

theorem lt_rawTokenRound : index < (rawTokenRound text index).1 := by
  cases ends : rawTokenEnd text index with
  | none =>
      rw [rawTokenRound_of_none ends]
      exact Nat.lt_succ_self index
  | some stop =>
      rw [rawTokenRound_of_end ends]
      exact (lt_rawTokenEnd ends).1

theorem scanEnglishFrom_round {fuel : Nat} (inside : index < text.length) :
    scanEnglishFrom (fuel + 1) (text.drop index) =
      (rawTokenRound text index).2 ++
        scanEnglishFrom fuel (text.drop (rawTokenRound text index).1) := by
  have shape := List.drop_eq_getElem_cons inside
  unfold rawTokenRound
  split_ifs with alnum hangul
  · exact scanEnglishFrom_alnum alnum
  · rw [charAt_of_drop shape] at alnum hangul
    rw [shape, scanEnglishFrom, if_neg alnum, if_pos hangul, ← shape, takeWhile_drop,
      dropWhile_drop]
    rfl
  · rw [charAt_of_drop shape] at alnum hangul
    rw [shape, scanEnglishFrom, if_neg alnum, if_neg hangul]
    rfl

/-- The rounds of the scan from a position until the text is over, with all tokens they append. -/
inductive RawScanEnds (text : Text) : Nat → List Text → Prop where
  | finished {index : Nat} : text.length ≤ index → RawScanEnds text index []
  | round {index : Nat} {tokens : List Text} : index < text.length →
      RawScanEnds text (rawTokenRound text index).1 tokens →
      RawScanEnds text index ((rawTokenRound text index).2 ++ tokens)

theorem rawScanEnds_scanEnglishFrom (fuel : Nat) (enough : text.length - index ≤ fuel) :
    RawScanEnds text index (scanEnglishFrom fuel (text.drop index)) := by
  induction fuel generalizing index with
  | zero => exact .finished (by omega)
  | succ fuel inductionHypothesis =>
      rcases Nat.lt_or_ge index text.length with inside | outside
      · have further := @lt_rawTokenRound text index
        rw [scanEnglishFrom_round inside]
        apply RawScanEnds.round inside
        apply inductionHypothesis
        omega
      · rw [List.drop_eq_nil_of_le outside]
        exact .finished outside

theorem matchFrom_englishRawTokenPattern :
    matchFrom englishRawTokenPattern (text.take index).reverse (text.drop index) =
      (rawTokenEnd text index).map fun stop =>
        ⟨text.take index, Text.slice index (stop - index) text, [], text.drop stop⟩ := by
  rw [matchFrom_at, firstEnd_englishRawTokenPattern, Option.map_map]
  cases found : rawTokenEnd text index with
  | none => rfl
  | some stop =>
      have bounds := lt_rawTokenEnd found
      have length : text.length - index - (text.length - stop) = stop - index := by omega
      simp [Cursor.at, Text.slice, List.length_drop, length]

/-- The rounds from a position append the texts of the matches from there on. -/
theorem RawScanEnds.eq_findFrom {tokens : List Text} (ends : RawScanEnds text index tokens) :
    tokens = (findFrom englishRawTokenPattern 0 (text.take index).reverse
      (text.drop index)).map Match.text := by
  induction ends with
  | finished outside =>
      rw [List.drop_eq_nil_of_le outside]
      rfl
  | @round index tokens inside _ inductionHypothesis =>
      have matched := @matchFrom_englishRawTokenPattern text index
      cases found : rawTokenEnd text index with
      | none =>
          rw [found, Option.map_none, ← Nat.add_zero index] at matched
          rw [rawTokenRound_of_none found] at inductionHypothesis ⊢
          rw [List.nil_append, inductionHypothesis, ← findFrom_skip englishRawTokenPattern text 1]
          intro offset within
          obtain rfl : offset = 0 := by omega
          exact matched
      | some stop =>
          have bounds := lt_rawTokenEnd found
          have length : (Text.slice index (stop - index) text).length = stop - index := by
            simp only [Text.slice, List.length_take, List.length_drop]
            omega
          have nonempty : Text.slice index (stop - index) text ≠ [] := by
            apply List.ne_nil_of_length_pos
            omega
          rw [found, Option.map_some] at matched
          rw [findFrom_match inside matched nonempty, List.map_cons]
          dsimp only
          rw [length, Nat.add_sub_cancel' bounds.1.le]
          rw [rawTokenRound_of_end found] at inductionHypothesis ⊢
          rw [inductionHypothesis]
          rfl

/-- The scan ends, with the leftmost matches of the expression that do not overlap. -/
theorem scanEnglishRawTokens_eq_findAll (text : Text) :
    RawScanEnds text 0 (scanEnglishRawTokens text) ∧
      scanEnglishRawTokens text = (findAll englishRawTokenPattern text).map Match.text := by
  have ends : RawScanEnds text 0 (scanEnglishRawTokens text) :=
    rawScanEnds_scanEnglishFrom text.length (Nat.sub_le _ _)
  exact ⟨ends, ends.eq_findFrom⟩

end Scan

end LlmWikiServe
