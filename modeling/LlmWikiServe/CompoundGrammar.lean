import LlmWikiServe.Analyzer
import LlmWikiServe.Foundation.Backtracking

/-!
# The grammar of exact compounds

The linear scan for exact compounds finds the leftmost matches of a regular expression.  Inside of
a run of letters and digits the expression cannot go on, so backtracking gives back whole groups
only: the last one, when its syllables run into a letter or digit.
-/

namespace LlmWikiServe

open Pattern

/-! ## Runs of characters -/

theorem takeWhile_facts {accepts : Char → Bool} (text : Text) :
    (∀ offset < (text.takeWhile accepts).length, text[offset]?.any accepts = true) ∧
      text[(text.takeWhile accepts).length]?.any accepts = false := by
  induction text with
  | nil => simp
  | cons char rest inductionHypothesis =>
      by_cases accepted : accepts char = true
      · rw [List.takeWhile_cons_of_pos accepted, List.length_cons]
        refine ⟨?_, by simpa using inductionHypothesis.2⟩
        rintro (_ | offset) within
        · simpa using accepted
        · simpa using inductionHypothesis.1 offset (Nat.lt_of_succ_lt_succ within)
      · rw [List.takeWhile_cons_of_neg accepted]
        simpa using accepted

section Runs

variable {accepts : Char → Bool} {text : Text} {index : Nat}

theorem le_consume : index ≤ consume accepts text index := Nat.le_add_right _ _

theorem charAt_of_lt_consume {place : Nat} (behind : index ≤ place)
    (within : place < consume accepts text index) : charAt accepts text place = true := by
  obtain ⟨offset, rfl⟩ := Nat.exists_eq_add_of_le behind
  have inRun := (@takeWhile_facts accepts (text.drop index)).1 offset (by unfold consume at within; omega)
  rwa [List.getElem?_drop] at inRun

theorem charAt_consume : charAt accepts text (consume accepts text index) = false := by
  have stops := (@takeWhile_facts accepts (text.drop index)).2
  rwa [List.getElem?_drop] at stops

theorem lt_length_of_charAt (here : charAt accepts text index = true) : index < text.length := by
  by_contra outside
  simp [charAt, List.getElem?_eq_none (not_lt.mp outside)] at here

theorem consume_of_not (stops : charAt accepts text index = false) :
    consume accepts text index = index := by
  by_contra further
  have here := @charAt_of_lt_consume accepts text index index le_rfl
    (lt_of_le_of_ne le_consume (Ne.symm further))
  simp [stops] at here

theorem consume_succ (here : charAt accepts text index = true) :
    consume accepts text index = consume accepts text (index + 1) := by
  have stops : consume accepts text index ≠ index := by
    intro same
    have stops := @charAt_consume accepts text index
    simp [same, here] at stops
  have further := @le_consume accepts text index
  have later := @le_consume accepts text (index + 1)
  rcases lt_trichotomy (consume accepts text index) (consume accepts text (index + 1)) with
    less | same | more
  · have inRun := charAt_of_lt_consume (by omega) less
    simp [charAt_consume] at inRun
  · exact same
  · have inRun := charAt_of_lt_consume (by omega) more
    simp [charAt_consume] at inRun

theorem consume_le_length (inside : index ≤ text.length) :
    consume accepts text index ≤ text.length := by
  have whole := (List.takeWhile_sublist accepts (l := text.drop index)).length_le
  rw [List.length_drop] at whole
  unfold consume
  omega

/-- A greedy run of characters, given up at none of them. -/
theorem firstEnd_star_consume {α : Type} {rest : Cursor → Option α}
    (stuck : ∀ place, charAt accepts text place = true → rest (.at text place) = none) :
    firstEnd (.star (.one accepts)) rest (.at text index) =
      rest (.at text (consume accepts text index)) :=
  firstEnd_star_one_of_stuck stuck _
    (fun _ within => charAt_of_lt_consume (Nat.le_add_right _ _)
      (Nat.add_lt_add_left within index)) charAt_consume

theorem firstEnd_plus_consume {α : Type} {rest : Cursor → Option α}
    (stuck : ∀ place, charAt accepts text place = true → rest (.at text place) = none) :
    firstEnd (plus (.one accepts)) rest (.at text index) =
      if charAt accepts text index then rest (.at text (consume accepts text index)) else none := by
  rw [plus, firstEnd_seq, firstEnd_one_at]
  unfold charAt
  split
  next here => rw [firstEnd_star_consume stuck, consume_succ here]
  next => rfl

end Runs

/-! ## The expression -/

def isSeparator (char : Char) : Bool := char ∈ exactCompoundSeparators

/-- `[._-][A-Za-z0-9]+` -/
def separatedGroup : Pattern := .seq (.one isSeparator) (plus (.one isAsciiAlnum))

/-- `[가-힣]*(?![A-Za-z0-9가-힣])` -/
def compoundEnding : Pattern :=
  Pattern.all
    [.star (.one isHangul), .guard fun _ after => after.head?.all (!isExactBoundaryWordChar ·)]

/-- `(?<![A-Za-z0-9가-힣])[A-Za-z0-9]+(?:[._-][A-Za-z0-9]+)+[가-힣]*(?![A-Za-z0-9가-힣])` -/
def exactCompoundPattern : Pattern :=
  Pattern.all
    [.guard fun before _ => before.head?.all (!isExactBoundaryWordChar ·),
      plus (.one isAsciiAlnum), plus separatedGroup, .star (.one isHangul),
      .guard fun _ after => after.head?.all (!isExactBoundaryWordChar ·)]

/-- Letters, digits and syllables of Hangul are told apart. -/
theorem isAsciiAlnum_not_hangul {char : Char} (alnum : isAsciiAlnum char = true) :
    isHangul char = false := by
  simp only [isAsciiAlnum, isLetter, isAsciiDigit, Bool.or_eq_true, Bool.and_eq_true,
    decide_eq_true_eq] at alnum
  simp only [isHangul, Bool.and_eq_false_iff, decide_eq_false_iff_not, not_le]
  left
  rcases alnum with (alnum | alnum) | alnum
  · exact lt_of_le_of_lt alnum.2 (by decide)
  · exact lt_of_le_of_lt alnum.2 (by decide)
  · exact lt_of_le_of_lt alnum.2 (by decide)

theorem isSeparator_other {char : Char} (separator : isSeparator char = true) :
    isExactBoundaryWordChar char = false := by
  simp only [isSeparator, exactCompoundSeparators, List.mem_cons, List.not_mem_nil, or_false,
    decide_eq_true_eq] at separator
  rcases separator with rfl | rfl | rfl <;> decide

theorem charAt_mono {first second : Char → Bool}
    (implies : ∀ char, first char = true → second char = true) {text : Text} {index : Nat}
    (here : charAt first text index = true) : charAt second text index = true := by
  obtain ⟨char, found, accepted⟩ := (Option.any_eq_true _ _).mp here
  exact (Option.any_eq_true _ _).mpr ⟨char, found, implies char accepted⟩

section Groups

variable {text : Text} {index : Nat}

/-- The end of a compound whose last group ends at a position, if nothing runs on behind it. -/
def endingAt (text : Text) (index : Nat) : Option Nat :=
  let stop := consume isHangul text index
  if charAt isExactBoundaryWordChar text stop then none else some stop

theorem head?_drop_all (test : Char → Bool) (text : Text) (index : Nat) :
    (text.drop index).head?.all (!test ·) = !charAt test text index := by
  rw [List.head?_drop, charAt]
  cases text[index]? <;> rfl

theorem firstEnd_compoundEnding :
    firstEnd compoundEnding some (.at text index) = (endingAt text index).map (.at text) := by
  have follows : ∀ place, firstEnd (.seq (.guard fun _ after =>
      after.head?.all (!isExactBoundaryWordChar ·)) .empty) some (Cursor.at text place) =
        if charAt isExactBoundaryWordChar text place then none else some (.at text place) := by
    intro place
    rw [firstEnd_seq, firstEnd_guard, firstEnd_empty]
    simp only [Cursor.at, head?_drop_all]
    cases charAt isExactBoundaryWordChar text place <;> rfl
  have unfolded : compoundEnding = .seq (.star (.one isHangul)) (.seq (.guard fun _ after =>
      after.head?.all (!isExactBoundaryWordChar ·)) .empty) := rfl
  rw [unfolded, firstEnd_seq, firstEnd_star_consume, follows, endingAt]
  · split <;> rfl
  · intro place syllable
    rw [follows, if_pos]
    exact charAt_mono (fun char hangul => by simp [isExactBoundaryWordChar, hangul]) syllable

/-- Inside of a run of letters and digits no compound ends. -/
theorem endingAt_of_alnum (alnum : charAt isAsciiAlnum text index = true) :
    endingAt text index = none := by
  have other : charAt isHangul text index = false := by
    obtain ⟨char, found, accepted⟩ := (Option.any_eq_true _ _).mp alnum
    simp [charAt, found, isAsciiAlnum_not_hangul accepted]
  have boundary : charAt isExactBoundaryWordChar text index = true :=
    charAt_mono (fun char accepted => by simp [isExactBoundaryWordChar, accepted]) alnum
  rw [endingAt, consume_of_not other, if_pos boundary]

def groupStarts (text : Text) (index : Nat) : Bool :=
  charAt isSeparator text index && charAt isAsciiAlnum text (index + 1)

def groupEnd (text : Text) (index : Nat) : Nat := consume isAsciiAlnum text (index + 1)

theorem endingAt_of_group (starts : groupStarts text index = true) :
    endingAt text index = some index := by
  have separator := (Bool.and_eq_true_iff.mp starts).1
  obtain ⟨char, found, accepted⟩ := (Option.any_eq_true _ _).mp separator
  have other := isSeparator_other accepted
  have notHangul : charAt isHangul text index = false := by
    have hangul := (Bool.or_eq_false_iff.mp other).2
    simp [charAt, found, hangul]
  rw [endingAt, consume_of_not notHangul, if_neg]
  simp [charAt, found, other]

theorem not_groupStarts_of_alnum (alnum : charAt isAsciiAlnum text index = true) :
    groupStarts text index = false := by
  obtain ⟨char, found, accepted⟩ := (Option.any_eq_true _ _).mp alnum
  have other : isSeparator char = false := by
    by_contra separator
    have boundary := isSeparator_other ((Bool.not_eq_false _).mp separator)
    simp [isExactBoundaryWordChar, accepted] at boundary
  simp [groupStarts, charAt, found, other]

theorem firstEnd_separatedGroup {α : Type} {rest : Cursor → Option α}
    (stuck : ∀ place, charAt isAsciiAlnum text place = true → rest (.at text place) = none) :
    firstEnd separatedGroup rest (.at text index) =
      if groupStarts text index then rest (.at text (groupEnd text index)) else none := by
  rw [separatedGroup, firstEnd_seq, firstEnd_one_at, firstEnd_plus_consume stuck]
  unfold groupStarts groupEnd charAt
  cases text[index]?.any isSeparator <;> simp

theorem consumes_separatedGroup : Consumes separatedGroup :=
  (consumes_one isSeparator).seq fun cursor next among =>
    ((consumes_one isAsciiAlnum).plus cursor next among).le

/-- The latest end of a compound after at least one more group. -/
def laterEnd (text : Text) : Nat → Nat → Option Nat
  | 0, _ => none
  | rounds + 1, index =>
      if groupStarts text index then
        (laterEnd text rounds (groupEnd text index)).or (endingAt text (groupEnd text index))
      else none

/-- The matcher gives up one group after the other. -/
theorem findSome_groups (rounds : Nat) :
    (repeatGreedy (run separatedGroup) rounds (.at text index)).findSome?
        (firstEnd compoundEnding some) =
      ((laterEnd text rounds index).or (endingAt text index)).map (.at text) := by
  induction rounds generalizing index with
  | zero => simp [repeatGreedy, laterEnd, firstEnd_compoundEnding]
  | succ rounds inductionHypothesis =>
      rw [findSome_repeatGreedy consumes_separatedGroup, firstEnd_separatedGroup, laterEnd,
        firstEnd_compoundEnding]
      · split
        next => rw [inductionHypothesis, ← Option.map_or]
        next => rfl
      · intro place alnum
        rw [inductionHypothesis, endingAt_of_alnum alnum]
        cases rounds with
        | zero => rfl
        | succ rounds => simp [laterEnd, not_groupStarts_of_alnum alnum]

theorem lt_groupEnd (starts : groupStarts text index = true) : index + 1 < groupEnd text index := by
  have alnum := (Bool.and_eq_true_iff.mp starts).2
  rw [groupEnd, consume_succ alnum]
  exact Nat.lt_of_lt_of_le (Nat.lt_succ_self _) le_consume

theorem laterEnd_succ (rounds : Nat) (enough : text.length ≤ index + rounds) :
    laterEnd text (rounds + 1) index = laterEnd text rounds index := by
  induction rounds generalizing index with
  | zero =>
      have outside : groupStarts text index = false := by
        by_contra starts
        have inside := lt_length_of_charAt
          (Bool.and_eq_true_iff.mp ((Bool.not_eq_false _).mp starts)).1
        omega
      simp [laterEnd, outside]
  | succ rounds inductionHypothesis =>
      have unfolded : ∀ rounds, laterEnd text (rounds + 1) index =
          if groupStarts text index then
            (laterEnd text rounds (groupEnd text index)).or (endingAt text (groupEnd text index))
          else none := fun _ => rfl
      rw [unfolded, unfolded]
      split
      next starts =>
        have further := lt_groupEnd starts
        rw [inductionHypothesis (by omega)]
      next => rfl

theorem laterEnd_of_le {rounds more : Nat} (enough : text.length ≤ index + rounds)
    (le : rounds ≤ more) : laterEnd text more index = laterEnd text rounds index := by
  induction more, le using Nat.le_induction with
  | base => rfl
  | succ more le inductionHypothesis => rw [laterEnd_succ more (by omega), inductionHypothesis]

/-- What the scan of further groups finds. -/
theorem scanCompound_lastValidEnd (rounds : Nat) (scan : CompoundScan) :
    (scanCompound text rounds scan).lastValidEnd =
      (laterEnd text rounds scan.cursor).or scan.lastValidEnd := by
  induction rounds generalizing scan with
  | zero => rfl
  | succ rounds inductionHypothesis =>
      rw [scanCompound, laterEnd]
      have same : (charAt (· ∈ exactCompoundSeparators) text scan.cursor &&
          charAt isAsciiAlnum text (scan.cursor + 1)) = groupStarts text scan.cursor := rfl
      simp only [same]
      split
      next =>
        rw [inductionHypothesis, Option.or_assoc]
        congr 1
        unfold endingAt groupEnd
        dsimp only
        split <;> rfl
      next => rfl

end Groups

/-! ## One compound -/

section Compounds

variable {text : Text} {index : Nat}

def compoundStarts (text : Text) (index : Nat) : Bool :=
  charAt isAsciiAlnum text index &&
    !(0 < index && charAt isExactBoundaryWordChar text (index - 1))

def compoundEnd (text : Text) (index : Nat) : Option Nat :=
  let start := consume isAsciiAlnum text index
  if compoundStarts text index && groupStarts text start then
    (laterEnd text text.length (groupEnd text start)).or (endingAt text (groupEnd text start))
  else none

theorem head?_take_all (test : Char → Bool) (inside : index ≤ text.length) :
    (text.take index).reverse.head?.all (!test ·) = !(0 < index && charAt test text (index - 1)) := by
  rw [List.head?_reverse, List.getLast?_take]
  rcases Nat.eq_zero_or_pos index with rfl | positive
  · rfl
  · have before : index - 1 < text.length := by omega
    simp [charAt, positive, Nat.ne_of_gt positive, List.getElem?_eq_getElem before]

theorem firstEnd_exactCompoundPattern (inside : index ≤ text.length) :
    firstEnd exactCompoundPattern some (.at text index) =
      (compoundEnd text index).map (.at text) := by
  have unfolded : exactCompoundPattern =
      .seq (.guard fun before _ => before.head?.all (!isExactBoundaryWordChar ·))
        (.seq (plus (.one isAsciiAlnum))
          (.seq (.seq separatedGroup (.star separatedGroup)) compoundEnding)) := rfl
  have groups : ∀ place, firstEnd (.star separatedGroup) (firstEnd compoundEnding some)
      (Cursor.at text place) =
        ((laterEnd text (text.length - place) place).or (endingAt text place)).map (.at text) := by
    intro place
    rw [firstEnd, run, length_after_at, findSome_groups]
  have stuckGroups : ∀ place, charAt isAsciiAlnum text place = true →
      firstEnd (.star separatedGroup) (firstEnd compoundEnding some) (Cursor.at text place) =
        none := by
    intro place alnum
    rw [groups, endingAt_of_alnum alnum]
    cases text.length - place with
    | zero => rfl
    | succ rounds => simp [laterEnd, not_groupStarts_of_alnum alnum]
  have further : ∀ place, firstEnd (.seq (.seq separatedGroup (.star separatedGroup)) compoundEnding)
      some (Cursor.at text place) =
        if groupStarts text place then
          ((laterEnd text text.length (groupEnd text place)).or
            (endingAt text (groupEnd text place))).map (.at text)
        else none := by
    intro place
    rw [firstEnd_seq, firstEnd_seq, firstEnd_separatedGroup stuckGroups]
    split
    next =>
      have rounds : text.length ≤ groupEnd text place + (text.length - groupEnd text place) := by
        omega
      rw [groups, ← laterEnd_of_le rounds (Nat.sub_le _ _)]
    next => rfl
  rw [unfolded, firstEnd_seq, firstEnd_guard, firstEnd_seq, firstEnd_plus_consume, further]
  · simp only [Cursor.at, head?_take_all isExactBoundaryWordChar inside, compoundEnd,
      compoundStarts]
    split_ifs <;> simp_all
  · intro place alnum
    rw [further, not_groupStarts_of_alnum alnum]
    rfl

theorem compoundEnd_of_blocked (blocked : compoundStarts text index = false) :
    compoundEnd text index = none := by
  simp [compoundEnd, blocked]

theorem compoundEnd_of_not_alnum (other : charAt isAsciiAlnum text index = false) :
    compoundEnd text index = none := compoundEnd_of_blocked (by simp [compoundStarts, other])

/-- Behind a letter, a digit or a syllable no compound starts. -/
theorem compoundEnd_behind (boundary : charAt isExactBoundaryWordChar text index = true) :
    compoundEnd text (index + 1) = none :=
  compoundEnd_of_blocked (by simp [compoundStarts, boundary])

theorem endingAt_bounds {stop : Nat} (inside : index ≤ text.length)
    (ends : endingAt text index = some stop) : index ≤ stop ∧ stop ≤ text.length := by
  unfold endingAt at ends
  dsimp only at ends
  split at ends
  next => cases ends
  next =>
    obtain rfl := Option.some.inj ends
    exact ⟨le_consume, consume_le_length inside⟩

theorem groupEnd_le_length (starts : groupStarts text index = true) :
    groupEnd text index ≤ text.length :=
  consume_le_length (lt_length_of_charAt (Bool.and_eq_true_iff.mp starts).2).le

theorem laterEnd_bounds {rounds stop : Nat} (inside : index ≤ text.length)
    (ends : laterEnd text rounds index = some stop) : index ≤ stop ∧ stop ≤ text.length := by
  induction rounds generalizing index with
  | zero => cases ends
  | succ rounds inductionHypothesis =>
      rw [laterEnd] at ends
      split at ends
      next starts =>
        have further := lt_groupEnd starts
        have within := groupEnd_le_length starts
        rcases Option.or_eq_some_iff.mp ends with later | ⟨-, here⟩
        · have bounds := inductionHypothesis within later
          omega
        · have bounds := endingAt_bounds within here
          omega
      next => cases ends

theorem compoundEnd_bounds {stop : Nat} (ends : compoundEnd text index = some stop) :
    index < stop ∧ stop ≤ text.length := by
  unfold compoundEnd at ends
  dsimp only at ends
  split at ends
  next starts =>
    obtain ⟨-, starts⟩ := Bool.and_eq_true_iff.mp starts
    have start := @le_consume isAsciiAlnum text index
    have further := lt_groupEnd starts
    have within := groupEnd_le_length starts
    rcases Option.or_eq_some_iff.mp ends with later | ⟨-, here⟩
    · have bounds := laterEnd_bounds within later
      omega
    · have bounds := endingAt_bounds within here
      omega
  next => cases ends

end Compounds

/-! ## The scan -/

section Scan

variable [Unicode] {text : Text} {index : Nat}

/-- One round of the scan: the next position, and the span it appends. -/
def scanRound (text : Text) (index : Nat) : Nat × List (Nat × Nat × Text) :=
  if !compoundStarts text index then (index + 1, [])
  else
    let start := consume isAsciiAlnum text index
    let scan := scanCompound text text.length { cursor := start, rejectCursor := start }
    if scan.separatorGroups = 0 then (scan.cursor, [])
    else
      match scan.lastValidEnd with
      | none =>
          if charAt isExactBoundaryWordChar text scan.rejectCursor then
            (consume isExactBoundaryWordChar text scan.rejectCursor, [])
          else (max scan.rejectCursor (index + 1), [])
      | some stop => (stop, [(index, stop, Text.casefold (Text.slice index (stop - index) text))])

theorem exactCompoundSpansFrom_succ (fuel : Nat) :
    exactCompoundSpansFrom text (fuel + 1) index =
      if text.length ≤ index then []
      else (scanRound text index).2 ++ exactCompoundSpansFrom text fuel (scanRound text index).1 := by
  rw [exactCompoundSpansFrom]
  split
  next => rfl
  next =>
    unfold scanRound compoundStarts
    cases charAt isAsciiAlnum text index with
    | false => rfl
    | true =>
        cases decide (0 < index) && charAt isExactBoundaryWordChar text (index - 1) with
        | true => rfl
        | false =>
            simp only [Bool.not_true, Bool.or_self, Bool.false_eq_true, if_false, Bool.not_false,
              Bool.and_self]
            generalize scanCompound text text.length
              { cursor := consume isAsciiAlnum text index
                rejectCursor := consume isAsciiAlnum text index } = scan
            by_cases groups : scan.separatorGroups = 0
            · rw [if_pos groups, if_pos groups]
              rfl
            · rw [if_neg groups, if_neg groups]
              cases scan.lastValidEnd with
              | none =>
                  by_cases blocked : charAt isExactBoundaryWordChar text scan.rejectCursor = true
                  · simp only [if_pos blocked]
                    rfl
                  · simp only [if_neg blocked]
                    rfl
              | some stop => rfl

omit [Unicode] in
/-- Where no group follows, the scan of groups changes nothing. -/
theorem scanCompound_of_none (rounds : Nat) {scan : CompoundScan}
    (none_ : groupStarts text scan.cursor = false) : scanCompound text rounds scan = scan := by
  cases rounds with
  | zero => rfl
  | succ rounds => exact if_neg (by rw [← Bool.not_eq_true] at none_; exact none_)

omit [Unicode] in
theorem le_separatorGroups (rounds : Nat) (scan : CompoundScan) :
    scan.separatorGroups ≤ (scanCompound text rounds scan).separatorGroups := by
  induction rounds generalizing scan with
  | zero => rfl
  | succ rounds inductionHypothesis =>
      rw [scanCompound]
      dsimp only
      split
      next =>
        refine le_trans ?_ (inductionHypothesis _)
        exact Nat.le_succ _
      next => rfl

omit [Unicode] in
/-- The scan of groups behind a first run of letters and digits. -/
theorem scanCompound_start {start : Nat} (starts : groupStarts text start = true) :
    let scan := scanCompound text text.length { cursor := start, rejectCursor := start }
    scan.separatorGroups ≠ 0 ∧
      scan.lastValidEnd =
        (laterEnd text text.length (groupEnd text start)).or (endingAt text (groupEnd text start)) ∧
      (groupStarts text (groupEnd text start) = false →
        scan.rejectCursor = consume isHangul text (groupEnd text start)) := by
  have inside := lt_length_of_charAt (Bool.and_eq_true_iff.mp starts).2
  have further := lt_groupEnd starts
  obtain ⟨rounds, shape⟩ : ∃ rounds, text.length = rounds + 1 := ⟨text.length - 1, by omega⟩
  have enough : text.length ≤ groupEnd text start + rounds := by omega
  have first : scanCompound text (rounds + 1) { cursor := start, rejectCursor := start } =
      scanCompound text rounds
        { cursor := groupEnd text start
          separatorGroups := 1
          lastValidEnd := endingAt text (groupEnd text start)
          rejectCursor := consume isHangul text (groupEnd text start) } := by
    rw [scanCompound]
    exact if_pos starts
  dsimp only
  refine ⟨?_, ?_, ?_⟩
  · rw [shape, first]
    have grown := @le_separatorGroups text rounds
      { cursor := groupEnd text start
        separatorGroups := 1
        lastValidEnd := endingAt text (groupEnd text start)
        rejectCursor := consume isHangul text (groupEnd text start) }
    dsimp only at grown
    omega
  · rw [shape, first, scanCompound_lastValidEnd]
    rw [laterEnd_of_le enough (Nat.le_succ rounds)]
  · intro last
    rw [shape, first, scanCompound_of_none rounds last]

omit [Unicode] in
/-- Behind a rejected compound nothing starts before the run it ends in is over. -/
theorem compoundEnd_of_rejected {start place : Nat} (starts : groupStarts text start = true)
    (rejected : endingAt text (groupEnd text start) = none) (behind : start ≤ place)
    (within : place < consume isExactBoundaryWordChar text
      (consume isHangul text (groupEnd text start))) : compoundEnd text place = none := by
  obtain ⟨separator, alnum⟩ := Bool.and_eq_true_iff.mp starts
  have last : groupStarts text (groupEnd text start) = false := by
    by_contra more
    rw [endingAt_of_group ((Bool.not_eq_false _).mp more)] at rejected
    cases rejected
  have group : ∀ inner, start + 1 ≤ inner → inner < groupEnd text start →
      charAt isAsciiAlnum text inner = true := fun inner => charAt_of_lt_consume
  have boundary : ∀ {accepts : Char → Bool}, (∀ char, accepts char = true →
      isExactBoundaryWordChar char = true) → ∀ inner, charAt accepts text inner = true →
      compoundEnd text (inner + 1) = none :=
    fun implies inner here => compoundEnd_behind (charAt_mono implies here)
  have alnumBoundary : ∀ char, isAsciiAlnum char = true → isExactBoundaryWordChar char = true :=
    fun char accepted => by simp [isExactBoundaryWordChar, accepted]
  have hangulBoundary : ∀ char, isHangul char = true → isExactBoundaryWordChar char = true :=
    fun char accepted => by simp [isExactBoundaryWordChar, accepted]
  have further := lt_groupEnd starts
  have syllables := @le_consume isHangul text (groupEnd text start)
  rcases Nat.lt_or_ge place (start + 1) with atSeparator | inGroup
  · obtain rfl : place = start := by omega
    apply compoundEnd_of_not_alnum
    obtain ⟨char, found, accepted⟩ := (Option.any_eq_true _ _).mp separator
    have other := (Bool.or_eq_false_iff.mp (isSeparator_other accepted)).1
    simp [charAt, found, other]
  rcases Nat.eq_or_lt_of_le inGroup with rfl | inGroup
  · -- The group itself is a run that no group follows.
    have run_ : consume isAsciiAlnum text (start + 1) = groupEnd text start := rfl
    simp [compoundEnd, run_, last]
  obtain ⟨inner, rfl⟩ : ∃ inner, place = inner + 1 := ⟨place - 1, by omega⟩
  rcases Nat.lt_or_ge inner (groupEnd text start) with inRun | behindRun
  · exact boundary alnumBoundary inner (group inner (by omega) inRun)
  rcases Nat.lt_or_ge inner (consume isHangul text (groupEnd text start)) with inSyllables | behindAll
  · exact boundary hangulBoundary inner (charAt_of_lt_consume behindRun inSyllables)
  · exact compoundEnd_behind (charAt_of_lt_consume behindAll (by omega))

/-- One round goes on, and appends the compound that starts at its position if there is one. -/
theorem scanRound_spec (inside : index < text.length) :
    index < (scanRound text index).1 ∧
      ((∃ stop, compoundEnd text index = some stop ∧ scanRound text index =
          (stop, [(index, stop, Text.casefold (Text.slice index (stop - index) text))])) ∨
        ((scanRound text index).2 = [] ∧
          ∀ place, index ≤ place → place < (scanRound text index).1 →
            compoundEnd text place = none)) := by
  unfold scanRound
  split
  next blocked =>
    refine ⟨Nat.lt_succ_self _, Or.inr ⟨rfl, fun place behind within => ?_⟩⟩
    obtain rfl : place = index := by omega
    exact compoundEnd_of_blocked (by simpa using blocked)
  next starts =>
    simp only [Bool.not_eq_true', Bool.not_eq_false] at starts
    have alnum := (Bool.and_eq_true_iff.mp starts).1
    have start : index < consume isAsciiAlnum text index := by
      rw [consume_succ alnum]
      exact le_consume
    have run_ : ∀ place, index < place → place < consume isAsciiAlnum text index →
        compoundEnd text place = none := by
      intro place behind within
      obtain ⟨inner, rfl⟩ : ∃ inner, place = inner + 1 := ⟨place - 1, by omega⟩
      apply compoundEnd_behind
      exact charAt_mono (fun char accepted => by simp [isExactBoundaryWordChar, accepted])
        (@charAt_of_lt_consume isAsciiAlnum text index inner (by omega) (by omega))
    dsimp only
    cases group : groupStarts text (consume isAsciiAlnum text index) with
    | false =>
        rw [scanCompound_of_none _ group, if_pos rfl]
        refine ⟨start, Or.inr ⟨rfl, fun place behind within => ?_⟩⟩
        rcases Nat.eq_or_lt_of_le behind with rfl | behind
        · simp [compoundEnd, group]
        · exact run_ place behind within
    | true =>
        obtain ⟨groups, ends, last⟩ := scanCompound_start group
        rw [if_neg groups, ends]
        have same : compoundEnd text index =
            (laterEnd text text.length (groupEnd text (consume isAsciiAlnum text index))).or
              (endingAt text (groupEnd text (consume isAsciiAlnum text index))) := by
          simp [compoundEnd, starts, group]
        rw [← same]
        cases found : compoundEnd text index with
        | some stop => exact ⟨(compoundEnd_bounds found).1, Or.inl ⟨stop, rfl, rfl⟩⟩
        | none =>
            obtain ⟨later, rejected⟩ := Option.or_eq_none_iff.mp (same.symm.trans found)
            have alone : groupStarts text (groupEnd text (consume isAsciiAlnum text index)) =
                false := by
              by_contra more
              rw [endingAt_of_group ((Bool.not_eq_false _).mp more)] at rejected
              cases rejected
            rw [last alone]
            have runsOn : charAt isExactBoundaryWordChar text
                (consume isHangul text (groupEnd text (consume isAsciiAlnum text index))) = true := by
              by_contra stops
              simp [endingAt, stops] at rejected
            dsimp only
            rw [if_pos runsOn]
            have further := lt_groupEnd group
            have syllables :=
              @le_consume isHangul text (groupEnd text (consume isAsciiAlnum text index))
            have boundary := @le_consume isExactBoundaryWordChar text
              (consume isHangul text (groupEnd text (consume isAsciiAlnum text index)))
            refine ⟨by dsimp only; omega, Or.inr ⟨rfl, fun place behind within => ?_⟩⟩
            rcases Nat.eq_or_lt_of_le behind with rfl | behind
            · exact found
            · rcases Nat.lt_or_ge place (consume isAsciiAlnum text index) with inRun | behindRun
              · exact run_ place behind inRun
              · exact compoundEnd_of_rejected group rejected behindRun within

def compoundSpan (found : Pattern.Match) : Nat × Nat × Text :=
  (found.before.length, found.before.length + found.text.length, Text.casefold found.text)

omit [Unicode] in
theorem matchFrom_exactCompoundPattern (inside : index ≤ text.length) :
    matchFrom exactCompoundPattern (text.take index).reverse (text.drop index) =
      (compoundEnd text index).map fun stop =>
        ⟨text.take index, Text.slice index (stop - index) text, [], text.drop stop⟩ := by
  rw [matchFrom_at, firstEnd_exactCompoundPattern inside, Option.map_map]
  cases found : compoundEnd text index with
  | none => rfl
  | some stop =>
      have bounds := compoundEnd_bounds found
      have length : text.length - index - (text.length - stop) = stop - index := by omega
      simp [Cursor.at, Text.slice, List.length_drop, length]

theorem exactCompoundSpansFrom_eq (fuel : Nat) (enough : text.length - index < fuel) :
    exactCompoundSpansFrom text fuel index =
      (findFrom exactCompoundPattern 0 (text.take index).reverse (text.drop index)).map
        compoundSpan := by
  induction fuel generalizing index with
  | zero => omega
  | succ fuel inductionHypothesis =>
      rw [exactCompoundSpansFrom_succ]
      rcases Nat.lt_or_ge index text.length with inside | outside
      · rw [if_neg (by omega)]
        obtain ⟨further, round⟩ := scanRound_spec inside
        rw [inductionHypothesis (by omega)]
        rcases round with ⟨stop, found, round⟩ | ⟨empty, missing⟩
        · have bounds := compoundEnd_bounds found
          have length : (Text.slice index (stop - index) text).length = stop - index := by
            simp only [Text.slice, List.length_take, List.length_drop]
            omega
          have matched := matchFrom_exactCompoundPattern inside.le
          rw [found, Option.map_some] at matched
          have nonempty : Text.slice index (stop - index) text ≠ [] := by
            apply List.ne_nil_of_length_pos
            omega
          rw [findFrom_match inside matched nonempty]
          have start : (text.take index).length = index := List.length_take_of_le inside.le
          simp only [round, List.map_cons, compoundSpan, start, length, List.singleton_append,
            Nat.add_sub_cancel' bounds.1.le]
        · rw [empty, List.nil_append]
          obtain ⟨count, shape⟩ := Nat.exists_eq_add_of_le further.le
          rw [shape, ← findFrom_skip]
          intro offset within
          rcases Nat.lt_or_ge (index + offset) (text.length + 1) with near | far
          · rw [matchFrom_exactCompoundPattern (by omega), missing _ (by omega) (by omega)]
            rfl
          · have whole : matchFrom exactCompoundPattern (text.take text.length).reverse
                (text.drop text.length) = none := by
              rw [matchFrom_exactCompoundPattern le_rfl, compoundEnd_of_not_alnum]
              · rfl
              · simp [charAt]
            rw [List.take_of_length_le (by omega), List.drop_eq_nil_of_le (by omega)]
            simpa using whole
      · rw [if_pos outside, List.drop_eq_nil_of_le outside]
        simp [findFrom]

inductive ScanEnds (text : Text) : Nat → List (Nat × Nat × Text) → Prop where
  | over {index : Nat} : text.length ≤ index → ScanEnds text index []
  | round {index : Nat} {spans : List (Nat × Nat × Text)} : index < text.length →
      ScanEnds text (scanRound text index).1 spans →
      ScanEnds text index ((scanRound text index).2 ++ spans)

theorem scanEnds_exactCompoundSpansFrom (fuel : Nat) (enough : text.length - index < fuel) :
    ScanEnds text index (exactCompoundSpansFrom text fuel index) := by
  induction fuel generalizing index with
  | zero => omega
  | succ fuel inductionHypothesis =>
      rw [exactCompoundSpansFrom_succ]
      split
      next outside => exact .over outside
      next inside =>
        have further := (scanRound_spec (not_le.mp inside)).1
        exact .round (not_le.mp inside) (inductionHypothesis (by omega))

/-- The scan ends, with the leftmost matches of the expression that do not overlap. -/
theorem exactCompoundTokenSpans_eq_findAll (text : Text) :
    ScanEnds text 0 (exactCompoundTokenSpans text) ∧
      exactCompoundTokenSpans text =
        (findAll exactCompoundPattern text).map compoundSpan :=
  ⟨scanEnds_exactCompoundSpansFrom _ (Nat.lt_succ_self _),
    exactCompoundSpansFrom_eq (text.length + 1) (Nat.lt_succ_self _)⟩

end Scan

end LlmWikiServe
