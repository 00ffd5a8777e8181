import LlmWikiServe.LexicalScan

/-!
# Ranking with a managed prior

A managed prior reorders results within bands of nearly equal scores.  Scores are exact, the values
of the prior may be infinite or not a number.
-/

namespace LlmWikiServe.RankBands

noncomputable section

open LexicalScan (Scoring)

/-! ## Exact numbers with the special values -/

inductive ExactFloat where
  | finite (value : ℝ)
  | inf
  | negInf
  | nan

namespace ExactFloat

def value : ExactFloat → ℝ
  | finite number => number
  | _ => 0

def neg : ExactFloat → ExactFloat
  | finite number => finite (-number)
  | inf => negInf
  | negInf => inf
  | nan => nan

def add : ExactFloat → ExactFloat → ExactFloat
  | finite first, finite second => finite (first + second)
  | nan, _ => nan
  | _, nan => nan
  | inf, negInf => nan
  | negInf, inf => nan
  | inf, _ => inf
  | _, inf => inf
  | negInf, _ => negInf
  | _, negInf => negInf

def signed (number : ℝ) : ExactFloat :=
  if 0 < number then inf else if number < 0 then negInf else nan

/-- The sign of a number that is not `nan`. -/
def sign : ExactFloat → ℝ
  | finite number => SignType.sign number
  | inf => 1
  | negInf => -1
  | nan => 0

def mul : ExactFloat → ExactFloat → ExactFloat
  | finite first, finite second => finite (first * second)
  | nan, _ => nan
  | _, nan => nan
  | first, second => signed (first.sign * second.sign)

/-- Division, zero counting as positive; Python raises for a zero divisor, which is never used. -/
def div : ExactFloat → ExactFloat → ExactFloat
  | finite first, finite second => finite (first / second)
  | nan, _ => nan
  | _, nan => nan
  | finite _, _ => finite 0
  | first, finite second => signed (first.sign * if second < 0 then -1 else 1)
  | _, _ => nan

def lt : ExactFloat → ExactFloat → Bool
  | finite first, finite second => decide (first < second)
  | nan, _ => false
  | _, nan => false
  | negInf, negInf => false
  | negInf, _ => true
  | finite _, inf => true
  | _, _ => false

def le : ExactFloat → ExactFloat → Bool
  | finite first, finite second => decide (first ≤ second)
  | nan, _ => false
  | _, nan => false
  | negInf, _ => true
  | _, inf => true
  | _, _ => false

def isFinite : ExactFloat → Bool
  | finite _ => true
  | _ => false

def onFinite (function : ℝ → ℝ) : ExactFloat → ExactFloat
  | finite number => finite (function number)
  | other => other

end ExactFloat

instance [Scoring] : Floats ExactFloat where
  ofRat number := .finite number
  add := ExactFloat.add
  sub first second := first.add second.neg
  mul := ExactFloat.mul
  div := ExactFloat.div
  lt := ExactFloat.lt
  le := ExactFloat.le
  log := ExactFloat.onFinite Scoring.log
  log1p := ExactFloat.onFinite Scoring.log1p
  round digits := ExactFloat.onFinite (Scoring.round digits)
  isFinite := ExactFloat.isFinite

/-! ## The orders -/

abbrev Result := SearchResult ExactFloat

def score (result : Result) : ℝ := result.score.value

/-- `(-score, role_rank, path)` -/
def lexicalKey (result : Result) : ℝ ×ₗ ℕ ×ₗ Text :=
  toLex (-score result, toLex (roleRank result.role, result.path))

def clamped (prior : Result → Option ExactFloat) (band : ℝ) (result : Result) : ℝ :=
  match prior result with
  | some (.finite boost) => max 0 (min boost band)
  | _ => 0

/-- `(-(score + boost), -score, role_rank, path)` -/
def managedKey (prior : Result → Option ExactFloat) (band : ℝ) (result : Result) :
    ℝ ×ₗ ℝ ×ₗ ℕ ×ₗ Text :=
  toLex (-(score result + clamped prior band result), lexicalKey result)

def IsFinite (result : Result) : Prop := result.score.isFinite = true

theorem score_eq {result : Result} (finite : IsFinite result) :
    result.score = .finite (score result) := by
  unfold IsFinite at finite
  unfold score
  cases number : result.score with
  | finite value => rfl
  | inf => simp [number, ExactFloat.isFinite] at finite
  | negInf => simp [number, ExactFloat.isFinite] at finite
  | nan => simp [number, ExactFloat.isFinite] at finite

section Orders

variable [Scoring] {prior : Result → Option ExactFloat} {band : ℝ} {first second : Result}
  (firstFinite : IsFinite first) (secondFinite : IsFinite second)

include firstFinite secondFinite

theorem lexicalLe_iff : lexicalLe first second = true ↔ lexicalKey first ≤ lexicalKey second := by
  unfold lexicalLe lexicalKey
  rw [score_eq firstFinite, score_eq secondFinite, Prod.Lex.toLex_le_toLex,
    Prod.Lex.toLex_le_toLex]
  simp only [Floats.lt, ExactFloat.lt, decide_eq_true_eq]
  rcases lt_trichotomy (score first) (score second) with less | equal | more
  · rw [if_neg less.asymm, if_pos less]
    simp [less.asymm, less.ne]
  · rw [equal, if_neg (lt_irrefl _), if_neg (lt_irrefl _)]
    by_cases ranks : roleRank first.role = roleRank second.role
    · simp [ranks]
    · simp [ranks]
  · rw [if_pos more]
    simp [more]

omit firstFinite secondFinite in
theorem boost_eq (positive : 0 < band) (result : Result) :
    (ManagedRanking.mk prior (.finite band)).boost result =
      .finite (clamped prior band result) := by
  have zero : (Floats.ofRat 0 : ExactFloat) = .finite 0 := by simp [Floats.ofRat]
  unfold ManagedRanking.boost clamped
  rw [zero]
  dsimp only
  cases prior result with
  | none => rfl
  | some value =>
      cases value with
      | finite boost =>
          simp only [Floats.isFinite, ExactFloat.isFinite, Floats.le, ExactFloat.le, Floats.lt,
            ExactFloat.lt, Bool.not_true, Bool.false_or, decide_eq_true_eq]
          by_cases small : boost ≤ 0
          · rw [if_pos small, min_eq_left (small.trans positive.le), max_eq_left small]
          · rw [if_neg small]
            by_cases above : band < boost
            · rw [if_pos above, min_eq_right above.le, max_eq_right positive.le]
            · rw [if_neg above, min_eq_left (not_lt.mp above), max_eq_right (not_le.mp small).le]
      | inf => rfl
      | negInf => rfl
      | nan => rfl

omit [Scoring] firstFinite secondFinite in
theorem clamped_nonneg (result : Result) : 0 ≤ clamped prior band result := by
  unfold clamped
  split
  · exact le_max_left _ _
  · exact le_rfl

omit [Scoring] firstFinite secondFinite in
theorem clamped_le (positive : 0 < band) (result : Result) : clamped prior band result ≤ band := by
  unfold clamped
  split
  · exact max_le positive.le (min_le_right _ _)
  · exact positive.le

theorem managedLe_iff (positive : 0 < band) :
    managedLe (ManagedRanking.mk prior (.finite band)) first second = true ↔
      managedKey prior band first ≤ managedKey prior band second := by
  unfold managedLe managedKey
  rw [boost_eq positive, boost_eq positive, score_eq firstFinite, score_eq secondFinite,
    Prod.Lex.toLex_le_toLex, ← lexicalLe_iff firstFinite secondFinite]
  simp only [Floats.lt, Floats.add, ExactFloat.add, ExactFloat.lt, decide_eq_true_eq]
  generalize score first + clamped prior band first = firstTotal
  generalize score second + clamped prior band second = secondTotal
  rcases lt_trichotomy firstTotal secondTotal with less | equal | more
  · rw [if_neg less.asymm, if_pos less]
    simp [less.asymm, less.ne]
  · rw [equal, if_neg (lt_irrefl _), if_neg (lt_irrefl _)]
    simp
  · rw [if_pos more]
    simp [more]

end Orders

/-! ## Bands -/

section Bands

variable [Scoring] (prior : Result → Option ExactFloat) (band : ℝ)

/-- What may be said when one result comes before another. -/
structure Allowed (first second : Result) : Prop where
  near : score second ≤ score first + band
  boosted : score first < score second →
    score second - score first ≤ clamped prior band first - clamped prior band second ∧
      clamped prior band first - clamped prior band second ≤ band

/-- The managed context of a prior and a band. -/
abbrev managed : ManagedRanking ExactFloat := ⟨prior, .finite band⟩

variable {prior band}

theorem mem_takeWhile_band {top result : Result} {rest : List Result} (topFinite : IsFinite top)
    (finite : ∀ other ∈ rest, IsFinite other)
    (among : result ∈ rest.takeWhile fun other =>
      Floats.le (Floats.sub top.score other.score) (managed prior band).tieBand) :
    score top - score result ≤ band := by
  have within := List.mem_takeWhile_imp among
  have resultFinite := finite result ((List.takeWhile_sublist _).mem among)
  rw [score_eq topFinite, score_eq resultFinite] at within
  simpa [Floats.le, Floats.sub, ExactFloat.le, ExactFloat.add, ExactFloat.neg, sub_eq_add_neg]
    using within

theorem rankBands_pairwise (positive : 0 < band) (fuel : Nat) {results : List Result}
    (enough : results.length ≤ fuel) (finite : ∀ result ∈ results, IsFinite result)
    (descending : results.Pairwise fun first second => score second ≤ score first) :
    (rankBands (managed prior band) fuel results).Pairwise (Allowed prior band) := by
  induction fuel generalizing results with
  | zero =>
      obtain rfl := List.length_eq_zero_iff.mp (Nat.le_zero.mp enough)
      exact .nil
  | succ fuel inductionHypothesis =>
      cases results with
      | nil => exact .nil
      | cons top rest =>
          obtain ⟨topLargest, restDescending⟩ := List.pairwise_cons.mp descending
          have restFinite : ∀ result ∈ rest, IsFinite result :=
            fun result among => finite result (List.mem_cons_of_mem _ among)
          rw [rankBands]
          let inBand := fun other : Result =>
            Floats.le (Floats.sub top.score other.score) (managed prior band).tieBand
          have bandFinite : ∀ result ∈ top :: rest.takeWhile inBand, IsFinite result := by
            intro result among
            rcases List.mem_cons.mp among with rfl | later
            · exact finite result List.mem_cons_self
            · exact restFinite result ((List.takeWhile_sublist _).mem later)
          have bandLow : ∀ result ∈ top :: rest.takeWhile inBand, score top ≤ score result + band := by
            intro result among
            rcases List.mem_cons.mp among with rfl | later
            · linarith
            · have close := mem_takeWhile_band (finite top List.mem_cons_self) restFinite later
              linarith
          have bandHigh : ∀ result ∈ top :: rest.takeWhile inBand, score result ≤ score top := by
            intro result among
            rcases List.mem_cons.mp among with rfl | later
            · exact le_rfl
            · exact topLargest result ((List.takeWhile_sublist _).mem later)
          have sorted := @sortBy_pairwise _ _ _ _ (managedKey prior band)
            (top :: rest.takeWhile inBand) fun first firstIn second secondIn =>
              managedLe_iff (bandFinite first firstIn) (bandFinite second secondIn) positive
          refine List.pairwise_append.mpr ⟨?_, ?_, ?_⟩
          · -- Inside a band the sums of score and boost descend.
            refine sorted.imp_of_mem fun {first second} firstIn secondIn ordered => ?_
            rw [mem_sortBy] at firstIn secondIn
            refine ⟨by linarith [bandHigh second secondIn, bandLow first firstIn], fun less => ?_⟩
            have sums : score second + clamped prior band second ≤
                score first + clamped prior band first := by
              rcases Prod.Lex.toLex_le_toLex.mp ordered with strict | ⟨equal, _⟩
              · exact (neg_lt_neg_iff.mp strict).le
              · exact (neg_inj.mp equal).ge
            exact ⟨by linarith, by
              linarith [@clamped_le prior band positive first, @clamped_nonneg prior band second]⟩
          · refine inductionHypothesis ?_ (fun result among =>
              restFinite result ((List.dropWhile_sublist _).mem among))
              (restDescending.sublist (List.dropWhile_sublist _))
            exact (List.dropWhile_sublist _).length_le.trans (Nat.le_of_succ_le_succ enough)
          · -- A later band has no larger score.
            intro first firstIn second secondIn
            rw [mem_sortBy] at firstIn
            rw [(rankBands_perm _ _).mem_iff] at secondIn
            have descends : score second ≤ score first := by
              have regrouped : (top :: rest.takeWhile inBand) ++ rest.dropWhile inBand =
                  top :: rest := by
                rw [List.cons_append, List.takeWhile_append_dropWhile]
              rw [← regrouped] at descending
              exact (List.pairwise_append.mp descending).2.2 first firstIn second secondIn
            exact ⟨by linarith, fun less => absurd less descends.not_gt⟩

/-- A constant prior keeps the order. -/
theorem rankBands_constant (positive : 0 < band) {constant : Option ExactFloat} (fuel : Nat)
    {results : List Result} (finite : ∀ result ∈ results, IsFinite result)
    (sorted : results.Pairwise fun first second => lexicalKey first ≤ lexicalKey second) :
    rankBands (managed (fun _ => constant) band) fuel results = results := by
  induction fuel generalizing results with
  | zero => rfl
  | succ fuel inductionHypothesis =>
      cases results with
      | nil => rfl
      | cons top rest =>
          rw [rankBands]
          let inBand := fun other : Result =>
            Floats.le (Floats.sub top.score other.score) (managed (fun _ => constant) band).tieBand
          have regrouped : (top :: rest.takeWhile inBand) ++ rest.dropWhile inBand =
              top :: rest := by
            rw [List.cons_append, List.takeWhile_append_dropWhile]
          have bandSorted : (top :: rest.takeWhile inBand).Pairwise fun first second =>
              lexicalKey first ≤ lexicalKey second :=
            sorted.sublist ((List.takeWhile_sublist _).cons_cons top)
          have bandFinite : ∀ result ∈ top :: rest.takeWhile inBand, IsFinite result :=
            fun result among =>
              finite result (((List.takeWhile_sublist _).cons_cons top).mem among)
          have unmoved : sortBy (managedLe (managed (fun _ => constant) band))
              (top :: rest.takeWhile inBand) = top :: rest.takeWhile inBand := by
            rw [@sortBy_eq _ _ _ _ (managedKey (fun _ => constant) band) _
              fun first firstIn second secondIn =>
                managedLe_iff (bandFinite first firstIn) (bandFinite second secondIn) positive]
            apply List.Pairwise.insertionSort_eq
            refine bandSorted.imp fun {first second} ordered => ?_
            have sameBoost : clamped (fun _ => constant) band first =
                clamped (fun _ => constant) band second := rfl
            refine Prod.Lex.toLex_le_toLex.mpr ?_
            rcases Prod.Lex.toLex_le_toLex.mp ordered with strict | ⟨equal, _⟩
            · exact .inl (neg_lt_neg (by
                rw [sameBoost]
                linarith [neg_lt_neg_iff.mp strict]))
            · exact .inr ⟨by simpa [sameBoost] using equal, ordered⟩
          have later := @inductionHypothesis (rest.dropWhile inBand)
            (fun result among => finite result
              (List.mem_cons_of_mem _ ((List.dropWhile_sublist _).mem among)))
            ((List.pairwise_cons.mp sorted).2.sublist (List.dropWhile_sublist _))
          exact (congrArg₂ (· ++ ·) unmoved later).trans regrouped

end Bands

/-- Ranking permutes the results and moves a result past a better one only within the band, by a
larger boost; without a prior, a band or a difference of boosts the order is the lexical one. -/
theorem rankSearchResults_bands [Scoring] {results : List Result}
    (finite : ∀ result ∈ results, IsFinite result) (prior : Result → Option ExactFloat) (band : ℝ) :
    let ranked := rankSearchResults (some (managed prior band)) results
    let lexical := results.insertionSort fun first second => lexicalKey first ≤ lexicalKey second
    ranked.Perm results ∧ (0 < band → ranked.Pairwise (Allowed prior band)) ∧
      (band ≤ 0 ∨ (∃ constant, prior = fun _ => constant) → ranked = lexical) ∧
      rankSearchResults none results = lexical := by
  intro ranked lexical
  have compares : ∀ first ∈ results, ∀ second ∈ results,
      (lexicalLe first second = true ↔ lexicalKey first ≤ lexicalKey second) :=
    fun first firstIn second secondIn =>
      lexicalLe_iff (finite first firstIn) (finite second secondIn)
  have unranked : rankSearchResults none results = lexical := sortBy_eq compares
  have sorted := @sortBy_pairwise _ _ _ _ lexicalKey _ compares
  have sortedFinite : ∀ result ∈ sortBy lexicalLe results, IsFinite result :=
    fun result among => finite result (mem_sortBy.mp among)
  have closed : band ≤ 0 → ranked = sortBy lexicalLe results := by
    intro small
    refine if_pos ?_
    simp [Floats.le, ExactFloat.le, Floats.ofRat, small]
  have banded : 0 < band → ranked =
      rankBands (managed prior band) (sortBy lexicalLe results).length (sortBy lexicalLe results) := by
    intro positive
    refine if_neg ?_
    simp [Floats.le, ExactFloat.le, Floats.ofRat, Floats.isFinite, ExactFloat.isFinite, positive]
  refine ⟨?_, fun positive => ?_, ?_, unranked⟩
  · rcases le_or_gt band 0 with small | positive
    · exact closed small ▸ List.perm_insertionSort _ _
    · exact banded positive ▸ (rankBands_perm _ _).trans (List.perm_insertionSort _ _)
  · rw [banded positive]
    refine rankBands_pairwise positive _ le_rfl sortedFinite (sorted.imp fun {first second} ordered => ?_)
    rcases Prod.Lex.toLex_le_toLex.mp ordered with strict | ⟨equal, _⟩
    · exact (neg_lt_neg_iff.mp strict).le
    · exact (neg_inj.mp equal).ge
  · intro quiet
    rcases le_or_gt band 0 with small | positive
    · exact (closed small).trans unranked
    · obtain ⟨constant, rfl⟩ := quiet.resolve_left positive.not_ge
      exact (banded positive).trans
        ((rankBands_constant positive _ sortedFinite sorted).trans unranked)

/-- Two results, the second one with an infinite boost. -/
def sampleResult (path : Text) (number : ℝ) : Result where
  pageId := path
  title := path
  path := path
  score := .finite number
  snippet := []
  role := .topic

/-- The functions of `math`, rounding half up. -/
@[reducible]
def sampleScoring : Scoring where
  log := Real.log
  log1p number := Real.log (1 + number)
  round digits number := round (number * 10 ^ digits) / 10 ^ digits

theorem rankSearchResults_bands_two :
    letI := sampleScoring
    let results := [sampleResult "a.md" 1, sampleResult "b.md" 2]
    let prior : Result → Option ExactFloat := fun result =>
      if result.path = "b.md" then some .inf else some (.finite 3)
    (rankSearchResults (some (managed prior 1)) results).Perm results := by
  intro results prior
  refine (@rankSearchResults_bands sampleScoring results ?_ prior 1).1
  intro result among
  simp only [results, List.mem_cons, List.not_mem_nil, or_false] at among
  rcases among with rfl | rfl
  · rfl
  · rfl

end

end LlmWikiServe.RankBands
