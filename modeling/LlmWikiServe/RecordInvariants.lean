import LlmWikiServe.ManagedUpdates

/-!
# Runs of updates

One call of `update_hits` after the other, with clock values that may go back, keeps the records
in the file in bounds.  Nothing is assumed of the decay of the counters.
-/

namespace LlmWikiServe.ManagedContext

open Transition

/-! ## Counters in millionths -/

/-- A multiple of 0.000001 above zero. -/
def PositiveMillionths (value : PyFloat) : Prop :=
  ∃ count : Int, 0 < count ∧ value = .finite (count / 10 ^ 6)

/-- A configuration that was checked, its numbers being exact. -/
structure ExactConfig (config : ManagedContextConfig) : Prop where
  maxHitCounter : PositiveMillionths config.maxHitCounter
  hitIncrement : PositiveMillionths config.hitIncrement
  maxHitEntries : 0 ≤ config.maxHitEntries
  maxBoost : (PyFloat.finite 0).le config.maxBoost = true

theorem roundRat_millionths (count : Int) : roundRat 6 (count / 10 ^ 6) = count / 10 ^ 6 := by
  rw [roundRat_eq, div_mul_cancel₀ _ (by norm_num), nearest_intCast]

/-- A counter of at least a millionth and no more than the maximum. -/
def CounterBounded (config : ManagedContextConfig) (counter : PyFloat) : Prop :=
  ∃ value : ℚ, counter = .finite value ∧ 1 / 10 ^ 6 ≤ value ∧
    (PyFloat.finite value).le config.maxHitCounter = true

theorem le_finite_iff {first second : ℚ} :
    (PyFloat.finite first).le (.finite second) = true ↔ first ≤ second := by
  simp [PyFloat.le, PyFloat.lt, le_iff_lt_or_eq]

theorem round_bounded {config : ManagedContextConfig} (exact : ExactConfig config)
    {counter : PyFloat} (bounded : CounterBounded config counter) :
    CounterBounded config counter.round := by
  obtain ⟨count, -, limit⟩ := exact.maxHitCounter
  obtain ⟨value, rfl, lower, upper⟩ := bounded
  have unit : roundRat 6 (1 / 10 ^ 6) = 1 / 10 ^ 6 := by
    simpa using roundRat_millionths 1
  refine ⟨roundRat 6 value, rfl, unit ▸ roundRat_mono 6 lower, ?_⟩
  rw [limit, le_finite_iff] at upper ⊢
  rw [← roundRat_millionths]
  exact roundRat_mono 6 upper

/-- A counter that is not below a millionth is cut into the bounds. -/
theorem cappedCounter_bounded {config : ManagedContextConfig} (exact : ExactConfig config)
    {counter : PyFloat} (large : counter.lt (.finite (1 / 10 ^ 6)) = false) :
    CounterBounded config (cappedCounter config counter) := by
  apply round_bounded exact
  obtain ⟨count, positive, limit⟩ := exact.maxHitCounter
  have atLeastOne : (1 : ℚ) ≤ count := by exact_mod_cast positive
  unfold PyFloat.min
  split
  next below =>
    cases counter with
    | finite value =>
        rw [limit] at below
        simp only [PyFloat.lt, decide_eq_true_eq, decide_eq_false_iff_not, not_lt] at below large
        exact ⟨value, rfl, large, limit ▸ le_finite_iff.mpr below.le⟩
    | inf => simp [PyFloat.lt] at below
    | negInf => simp [PyFloat.lt] at large
    | nan => simp [PyFloat.lt] at below
  next => exact ⟨count / 10 ^ 6, limit, by gcongr, limit ▸ le_finite_iff.mpr le_rfl⟩

def Millionths (value : PyFloat) : Prop := ∃ count : Int, value = .finite (count / 10 ^ 6)

theorem Millionths.positive {value : PyFloat} (millionths : Millionths value)
    (above : value.le (.finite 0) = false) : PositiveMillionths value := by
  obtain ⟨count, rfl⟩ := millionths
  refine ⟨count, ?_, rfl⟩
  by_contra small
  have nonpositive : (count : ℚ) / 10 ^ 6 ≤ 0 := by
    apply div_nonpos_of_nonpos_of_nonneg _ (by norm_num)
    exact_mod_cast not_lt.mp small
  rw [le_finite_iff.mpr nonpositive] at above
  cases above

/-- What the checks of an enabled configuration establish. -/
theorem exactConfig_of_valid [Unicode] {config : ManagedContextConfig}
    (enabled : config.enabled = true) (valid : validateManagedContextConfig config = none)
    (counter : Millionths config.maxHitCounter) (increment : Millionths config.hitIncrement)
    (boost : config.maxBoost ≠ .nan) : ExactConfig config := by
  have checked := configChecked_of_valid enabled valid
  have boostSign := checked.maxBoost
  refine ⟨counter.positive checked.maxHitCounter, increment.positive checked.hitIncrement,
    checked.maxHitEntries.le, ?_⟩
  · cases shape : config.maxBoost with
    | finite value =>
        rw [shape] at boostSign
        simp only [PyFloat.lt, decide_eq_false_iff_not, not_lt] at boostSign
        exact le_finite_iff.mpr boostSign
    | inf => rfl
    | negInf => simp [shape, PyFloat.lt] at boostSign
    | nan => exact absurd shape boost

/-! ## The hits of an update -/

section Updates

variable [Numbers] {config : ManagedContextConfig}

/-- Hits of one time with counters in bounds. -/
def HitsAt (config : ManagedContextConfig) (now : ℚ) (hits : Hits) : Prop :=
  ∀ entry ∈ hits, entry.2.lastHitAt = now ∧ CounterBounded config entry.2.counter

theorem hitsAt_decayedHits (exact : ExactConfig config) (hits : Hits) (now : ℚ) :
    HitsAt config now (decayedHits hits config now) := by
  intro entry among
  obtain ⟨old, -, kept⟩ := List.mem_filterMap.mp (mem_of_mem_trimHits among)
  dsimp only at kept
  split at kept
  next => cases kept
  next large =>
    obtain rfl := Option.some.inj kept
    refine ⟨rfl, cappedCounter_bounded exact ?_⟩
    rw [Bool.not_eq_true, PyFloat.le, Bool.or_eq_false_iff] at large
    norm_num at large ⊢
    exact large.1

omit [Numbers] in
theorem hitsAt_addHit (exact : ExactConfig config) {hits : Hits} {now : ℚ}
    (bounded : HitsAt config now hits) (pageKey : Text) :
    HitsAt config now (addHit config now hits pageKey) := by
  intro entry among
  rcases Keyed.mem_set among with rfl | old
  · refine ⟨rfl, cappedCounter_bounded exact ?_⟩
    obtain ⟨count, positive, increment⟩ := exact.hitIncrement
    have atLeastOne : (1 : ℚ) ≤ count := by exact_mod_cast positive
    have unit : (1 : ℚ) / 10 ^ 6 ≤ count / 10 ^ 6 := by gcongr
    rw [increment]
    have sum : ∀ value : ℚ, 1 / 10 ^ 6 ≤ value → (PyFloat.ofExact value).lt
        (.finite (1 / 10 ^ 6)) = false := by
      intro value large
      have above : ¬ value < 0 := not_lt.mpr (le_trans (by norm_num) large)
      unfold PyFloat.ofExact
      split_ifs <;> simp [PyFloat.lt]
      simpa using large
    cases found : Keyed.get? hits pageKey with
    | none => exact sum _ (by simpa using unit)
    | some hit =>
        obtain ⟨-, value, shape, lower, -⟩ := bounded _ (Keyed.mem_of_get? found)
        have counter : hit.counter = .finite value := shape
        simp only [Option.map_some, Option.getD_some, counter, PyFloat.add]
        exact sum _ (by linarith)
  · exact bounded entry old

theorem hitsAt_updatedRecord (exact : ExactConfig config) (scope : ManagedContextScope)
    (pageKeys : List Text) (now : ℚ) (current : Option ManagedContextRecord) :
    HitsAt config (updatedRecord scope pageKeys config now current).updatedAt
      (updatedRecord scope pageKeys config now current).hits := by
  intro entry among
  have added : ∀ (keys : List Text) (hits : Hits) (time : ℚ), HitsAt config time hits →
      HitsAt config time (keys.foldl (addHit config time) hits) := by
    intro keys hits time bounded
    induction keys generalizing hits with
    | nil => exact bounded
    | cons key rest inductionHypothesis =>
        exact inductionHypothesis _ (hitsAt_addHit exact bounded key)
  exact added _ _ _ (hitsAt_decayedHits exact _ _) entry (mem_of_mem_trimHits among)

end Updates

/-! ## The boost of a page -/

section Boost

variable [Numbers] {config : ManagedContextConfig}

def CounterInRange (config : ManagedContextConfig) (counter : PyFloat) : Prop :=
  ∃ value : ℚ, counter = .finite value ∧ 0 < value ∧
    (PyFloat.finite value).le config.maxHitCounter = true

omit [Numbers] in
theorem CounterBounded.inRange {counter : PyFloat} (bounded : CounterBounded config counter) :
    CounterInRange config counter := by
  obtain ⟨value, shape, lower, upper⟩ := bounded
  exact ⟨value, shape, lt_of_lt_of_le (by norm_num) lower, upper⟩

omit [Numbers] in
/-- A share of the maximal boost is between zero and the maximal boost. -/
theorem min_mul_bounds {boost : PyFloat} (nonnegative : (PyFloat.finite 0).le boost = true)
    {share : ℚ} (positive : 0 < share) :
    (PyFloat.finite 0).le (boost.min (boost.mul (.finite share))) = true ∧
      (boost.min (boost.mul (.finite share))).le boost = true := by
  cases boost with
  | finite most =>
      rw [le_finite_iff] at nonnegative
      simp only [PyFloat.mul, PyFloat.min, PyFloat.lt, decide_eq_true_eq]
      split
      next less => exact ⟨le_finite_iff.mpr (by positivity), le_finite_iff.mpr less.le⟩
      next => exact ⟨le_finite_iff.mpr nonnegative, le_finite_iff.mpr le_rfl⟩
  | inf =>
      simp [PyFloat.mul, PyFloat.sign, PyFloat.ofSign, positive.ne', not_lt.mpr positive.le,
        PyFloat.min, PyFloat.lt, PyFloat.le]
  | negInf => simp [PyFloat.le, PyFloat.lt] at nonnegative
  | nan => simp [PyFloat.le, PyFloat.lt] at nonnegative

omit [Numbers] in
theorem boost_bounds (exact : ExactConfig config) {counter : PyFloat}
    (lasting : counter.le (.finite 0) = false) :
    ∃ normalized, (counter.min config.maxHitCounter).div? config.maxHitCounter = some normalized ∧
      (PyFloat.finite 0).le (config.maxBoost.min (config.maxBoost.mul normalized)) = true ∧
      (config.maxBoost.min (config.maxBoost.mul normalized)).le config.maxBoost = true := by
  obtain ⟨count, positive, limit⟩ := exact.maxHitCounter
  have atLeastOne : (1 : ℚ) ≤ count := by exact_mod_cast positive
  have most : (0 : ℚ) < count / 10 ^ 6 := by positivity
  have share : ∀ {value : ℚ}, 0 < value → ∃ normalized,
      (PyFloat.finite value).div? config.maxHitCounter = some normalized ∧
        (PyFloat.finite 0).le (config.maxBoost.min (config.maxBoost.mul normalized)) = true ∧
        (config.maxBoost.min (config.maxBoost.mul normalized)).le config.maxBoost = true := by
    intro value above
    have divided : (PyFloat.finite value).div? config.maxHitCounter =
        some (.finite (value / (count / 10 ^ 6))) := by
      rw [limit]
      simp only [PyFloat.div?, PyFloat.finite.injEq, most.ne', if_false]
    exact ⟨_, divided, min_mul_bounds exact.maxBoost (by positivity)⟩
  cases counter with
  | finite value =>
      rw [PyFloat.le, Bool.or_eq_false_iff] at lasting
      simp only [PyFloat.lt, decide_eq_false_iff_not, not_lt, Bool.and_eq_false_iff, ne_eq,
        reduceCtorEq, not_false_eq_true, decide_true, Bool.true_eq_false, false_or,
        PyFloat.finite.injEq] at lasting
      have above : 0 < value := lt_of_le_of_ne lasting.1 (Ne.symm lasting.2)
      unfold PyFloat.min
      split
      next => exact limit ▸ share most
      next => exact share above
  | inf =>
      have cut : PyFloat.inf.min config.maxHitCounter = config.maxHitCounter := by
        simp [limit, PyFloat.min, PyFloat.lt]
      rw [cut]
      nth_rewrite 1 [limit]
      exact share most
  | negInf => simp [PyFloat.le, PyFloat.lt] at lasting
  | nan =>
      refine ⟨.nan, ?_, ?_⟩
      · simp [limit, PyFloat.min, PyFloat.lt, PyFloat.div?, most.ne', PyFloat.sign, PyFloat.ofSign]
      · have same : config.maxBoost.min (config.maxBoost.mul .nan) = config.maxBoost := by
          cases config.maxBoost <;> simp [PyFloat.mul, PyFloat.sign, PyFloat.ofSign, PyFloat.min,
            PyFloat.lt]
        rw [same]
        refine ⟨exact.maxBoost, ?_⟩
        have number : config.maxBoost ≠ .nan := by
          intro none_
          have sign := exact.maxBoost
          rw [none_] at sign
          cases sign
        simp [PyFloat.le, number]

theorem decayedBoost_bounds (exact : ExactConfig config) (record : ManagedContextRecord)
    (pageKey : Text) (now : ℚ) :
    ∃ boost, record.decayedBoost pageKey now config = some boost ∧
      (PyFloat.finite 0).le boost = true ∧ boost.le config.maxBoost = true := by
  have zero : (PyFloat.finite 0).le (.finite 0) = true ∧
      (PyFloat.finite 0).le config.maxBoost = true := ⟨by decide, exact.maxBoost⟩
  unfold ManagedContextRecord.decayedBoost
  split
  next => exact ⟨_, rfl, zero⟩
  next hit found =>
    dsimp only
    split
    next => exact ⟨_, rfl, zero⟩
    next lasting =>
      obtain ⟨normalized, divided, bounds⟩ :=
        boost_bounds exact ((Bool.not_eq_true _).mp lasting)
      exact ⟨_, by rw [divided, Option.map_some], bounds⟩

end Boost

/-! ## Runs -/

/-- The record as the file holds it, its numbers rounded. -/
def asStored (record : ManagedContextRecord) : ManagedContextRecord where
  scope := record.scope
  generation := record.generation
  createdAt := roundRat 6 record.createdAt
  updatedAt := roundRat 6 record.updatedAt
  hits := record.hits.map fun entry =>
    (entry.1, ⟨entry.2.counter.round, roundRat 6 entry.2.lastHitAt⟩)

structure RunState where
  file : Option Text := none
  /-- All records written so far, which no step looks at. -/
  written : List ManagedContextRecord := []

inductive CallEvent where
  | update (pageKeys : List Text) (now : ℚ)
  /-- A call that raises before the file is replaced. -/
  | fails

section Runs

variable [Hashing] [Numbers] [Json.FloatRepr PyFloat] (scope : ManagedContextScope)
  (config : ManagedContextConfig)

def callStep (state : RunState) : CallEvent → Option RunState
  | .update pageKeys now =>
      if pageKeys = [] then some state
      else
        match updateHits scope pageKeys config now state.file with
        | none => some state
        | some record =>
            some { file := some (fileText record), written := state.written ++ [record] }
  | .fails => some state

/-- Clock values are at least one, and what is written fits the read size limit. -/
def CallPermitted (state : RunState) (event : CallEvent) : Prop :=
  ∀ pageKeys now, event = .update pageKeys now → 1 ≤ now ∧ (pageKeys ≠ [] →
    ∀ record, updateHits scope pageKeys config now state.file = some record →
      utf8Length (fileText record) ≤ recordReadMaxBytes)

omit [Hashing] [Json.FloatRepr PyFloat] in
structure Sound (record : ManagedContextRecord) : Prop where
  ordered : record.createdAt ≤ record.updatedAt
  lastHits : ∀ entry ∈ record.hits, entry.2.lastHitAt ≤ record.updatedAt
  counters : ∀ entry ∈ record.hits, CounterInRange config entry.2.counter
  few : record.hits.length ≤ config.maxHitEntries
  boosts : ∀ pageKey now, ∃ boost, record.decayedBoost pageKey now config = some boost ∧
    (PyFloat.finite 0).le boost = true ∧ boost.le config.maxBoost = true

/-- The records of a run: each call that writes adds one to the generation, the creation time
stays and the time of the update does not go back. -/
structure RunSound (state : RunState) : Prop where
  generations : ∀ (index : Nat) (record : ManagedContextRecord),
    state.written[index]? = some record → record.generation = index + 1
  created : ∀ first ∈ state.written.head?, ∀ record ∈ state.written,
    (asStored record).createdAt = (asStored first).createdAt
  updated : state.written.Pairwise fun earlier later =>
    (asStored earlier).updatedAt ≤ (asStored later).updatedAt
  sound : ∀ record ∈ state.written, Sound config (asStored record)
  reads : ∀ last ∈ state.written.getLast?, ∀ now, ∃ current,
    read scope config now false state.file = .value current ∧ Sound config current ∧
      current.generation = last.generation ∧ current.createdAt = (asStored last).createdAt ∧
      current.updatedAt = (asStored last).updatedAt

variable {scope config}

structure Written (scope : ManagedContextScope) (config : ManagedContextConfig)
    (record : ManagedContextRecord) : Prop where
  scope : record.scope = scope
  legible : Legible record
  hits : HitsAt config record.updatedAt record.hits
  few : record.hits.length ≤ config.maxHitEntries
  fits : utf8Length (fileText record) ≤ recordReadMaxBytes

theorem Written.sound {record : ManagedContextRecord} (exact : ExactConfig config)
    (written : Written scope config record) : Sound config (asStored record) := by
  refine ⟨roundRat_mono 6 written.legible.ordered, ?_, ?_, ?_, decayedBoost_bounds exact _⟩
  · intro entry among
    obtain ⟨kept, keptIn, rfl⟩ := List.mem_map.mp among
    exact (congrArg (roundRat 6) (written.hits kept keptIn).1).le
  · intro entry among
    obtain ⟨kept, keptIn, rfl⟩ := List.mem_map.mp among
    exact (round_bounded exact (written.hits kept keptIn).2).inRange
  · rw [asStored, List.length_map]
    exact written.few

theorem Written.read {record : ManagedContextRecord} (exact : ExactConfig config)
    (written : Written scope config record) (now : ℚ) :
    ∃ current, read scope config now false (some (fileText record)) = .value current ∧
      Sound config current ∧ current.generation = record.generation ∧
      current.createdAt = (asStored record).createdAt ∧
      current.updatedAt = (asStored record).updatedAt := by
  have created : rereadTime now record.createdAt = roundRat 6 record.createdAt :=
    rereadTime_of_ne_zero written.legible.created
  have updated : rereadTime now record.updatedAt = roundRat 6 record.updatedAt :=
    rereadTime_of_ne_zero (roundRat_ne_zero written.legible.updated)
  have ordered := roundRat_mono 6 written.legible.ordered
  have valid : ¬ (record.generation < 1 ∨
      rereadTime now record.updatedAt < rereadTime now record.createdAt) := by
    rw [created, updated]
    rintro (tooSmall | backwards)
    · exact absurd written.legible.generation (not_le.mpr tooSmall)
    · exact absurd ordered (not_le.mpr backwards)
  have found := (read_fileText config now written.fits).trans (if_neg valid)
  rw [written.scope, created, updated] at found
  have hits : ∀ entry ∈ trimHits (rereadHits config now record.hits) config,
      entry.2.lastHitAt = roundRat 6 record.updatedAt ∧
        CounterBounded config entry.2.counter := by
    intro entry among
    rcases Keyed.mem_update (mem_of_mem_trimHits among) with absent | among
    · cases absent
    · obtain ⟨kept, keptIn, rfl⟩ := List.mem_map.mp among
      obtain ⟨lastHitAt, bounded⟩ := written.hits kept (mem_lastingEntries.mp keptIn).1
      refine ⟨congrArg (roundRat 6) lastHitAt, cappedCounter_bounded exact ?_⟩
      obtain ⟨value, rounded, lower, -⟩ := round_bounded exact bounded
      rw [rounded]
      simpa [PyFloat.lt] using lower
  refine ⟨_, found, ⟨ordered, ?_, ?_, ?_, decayedBoost_bounds exact _⟩, rfl, rfl, rfl⟩
  · exact fun entry among => (hits entry among).1.le
  · exact fun entry among => (hits entry among).2.inRange
  · have most := length_trimHits (rereadHits config now record.hits) config
    rw [if_pos exact.maxHitEntries] at most
    have limit := Int.toNat_of_nonneg exact.maxHitEntries
    rw [most]
    omega

variable (scope config) in
/-- What holds between two calls. -/
structure RunInvariant (state : RunState) : Prop where
  file : state.file = state.written.getLast?.map fileText
  each : ∀ record ∈ state.written, Written scope config record
  generations : ∀ (index : Nat) (record : ManagedContextRecord),
    state.written[index]? = some record → record.generation = index + 1
  created : ∀ first ∈ state.written.head?, ∀ record ∈ state.written,
    (asStored record).createdAt = (asStored first).createdAt
  updated : state.written.Pairwise fun earlier later =>
    (asStored earlier).updatedAt ≤ (asStored later).updatedAt

omit [Numbers] in
theorem RunInvariant.start : RunInvariant scope config {} := by
  constructor <;> simp

theorem RunInvariant.dated {state : RunState} (invariant : RunInvariant scope config state) :
    Dated scope state.file := by
  rw [invariant.file]
  cases last : state.written.getLast? with
  | none =>
      rintro config now current - found
      cases found
  | some record =>
      rw [Option.map_some, ← (invariant.each record (List.mem_of_getLast? last)).scope]
      exact dated_fileText record

theorem written_updateHits (exact : ExactConfig config) {file : Option Text}
    (dated : Dated scope file) {pageKeys : List Text} {now : ℚ} (late : 1 ≤ now)
    {record : ManagedContextRecord}
    (planned : updateHits scope pageKeys config now file = some record)
    (fits : utf8Length (fileText record) ≤ recordReadMaxBytes) : Written scope config record := by
  have few : ∀ current,
      (updatedRecord scope pageKeys config now current).hits.length ≤ config.maxHitEntries := by
    intro current
    have most := length_updatedRecord scope pageKeys now current exact.maxHitEntries
    have limit := Int.toNat_of_nonneg exact.maxHitEntries
    omega
  have legible := updateHits_legible dated late planned
  unfold updateHits at planned
  split at planned
  · obtain rfl := Option.some.inj planned
    exact ⟨rfl, legible, hitsAt_updatedRecord exact scope pageKeys now _, few _, fits⟩
  · obtain rfl := Option.some.inj planned
    exact ⟨rfl, legible, hitsAt_updatedRecord exact scope pageKeys now _, few _, fits⟩
  · cases planned

theorem updateHits_follows (exact : ExactConfig config) {last next : ManagedContextRecord}
    (written : Written scope config last) {pageKeys : List Text} {now : ℚ}
    (planned : updateHits scope pageKeys config now (some (fileText last)) = some next) :
    next.generation = last.generation + 1 ∧
      (asStored next).createdAt = (asStored last).createdAt ∧
      (asStored last).updatedAt ≤ (asStored next).updatedAt := by
  obtain ⟨current, found, -, generation, created, updated⟩ := written.read exact now
  simp only [updateHits, found, Option.some.injEq] at planned
  subst planned
  simp only [updatedRecord, Option.map_some, Option.getD_some, asStored]
  simp only [asStored] at created updated
  refine ⟨by rw [generation], by rw [created, roundRat_roundRat], ?_⟩
  rw [← roundRat_roundRat 6 last.updatedAt, ← updated]
  apply roundRat_mono
  split
  next => exact le_rfl
  next early => exact not_lt.mp early

theorem RunInvariant.write {state : RunState} (exact : ExactConfig config)
    (invariant : RunInvariant scope config state) {pageKeys : List Text} {now : ℚ}
    (late : 1 ≤ now) {next : ManagedContextRecord}
    (planned : updateHits scope pageKeys config now state.file = some next)
    (fits : utf8Length (fileText next) ≤ recordReadMaxBytes) :
    RunInvariant scope config
      { file := some (fileText next), written := state.written ++ [next] } := by
  have written := written_updateHits exact invariant.dated late planned fits
  have each : ∀ record ∈ state.written ++ [next], Written scope config record := by
    intro record among
    rcases List.mem_append.mp among with earlier | new
    · exact invariant.each record earlier
    · exact List.mem_singleton.mp new ▸ written
  rcases List.eq_nil_or_concat' state.written with none_ | ⟨earlier, last, split⟩
  · have absent : state.file = none := by rw [invariant.file, none_]; rfl
    refine ⟨by simp, each, ?_, ?_, ?_⟩
    · simp only [none_, List.nil_append]
      rintro (_ | index) record found
      · obtain rfl := Option.some.inj found
        rw [generation_updateHits planned, absent]
        simp [read, readJsonPayload, Conversion.value?]
      · simp at found
    · simp [none_]
    · simp [none_]
  · have lastIn : last ∈ state.written := by simp [split]
    have stored : state.file = some (fileText last) := by rw [invariant.file, split]; simp
    obtain ⟨generation, created, updated⟩ :=
      updateHits_follows exact (invariant.each last lastIn) (stored ▸ planned)
    refine ⟨by simp, each, ?_, ?_, ?_⟩
    · intro index record found
      rw [List.getElem?_append] at found
      split at found
      next => exact invariant.generations index record found
      next beyond =>
        rw [List.getElem?_singleton] at found
        split at found
        next isNew =>
          obtain rfl := Option.some.inj found
          have before := invariant.generations earlier.length last (by simp [split])
          have length : state.written.length = earlier.length + 1 := by simp [split]
          rw [generation, before]
          omega
        next => cases found
    · intro first isFirst record among
      have isHead : first ∈ state.written.head? := by
        rw [List.head?_append_of_ne_nil _ (by simp [split])] at isFirst
        exact isFirst
      rcases List.mem_append.mp among with earlierIn | new
      · exact invariant.created first isHead record earlierIn
      · rw [List.mem_singleton.mp new, created]
        exact invariant.created first isHead last lastIn
    · rw [List.pairwise_append]
      refine ⟨invariant.updated, List.pairwise_singleton _ _, ?_⟩
      intro record recordIn new newIn
      rw [List.mem_singleton.mp newIn]
      refine le_trans ?_ updated
      have ordered := invariant.updated
      rw [split, List.pairwise_append] at ordered
      rw [split] at recordIn
      rcases List.mem_append.mp recordIn with recordIn | isLast
      · exact ordered.2.2 record recordIn last (by simp)
      · rw [List.mem_singleton.mp isLast]

theorem RunInvariant.step {state after : RunState} {event : CallEvent} (exact : ExactConfig config)
    (invariant : RunInvariant scope config state) (permitted : CallPermitted scope config state event)
    (stepped : callStep scope config state event = some after) :
    RunInvariant scope config after := by
  cases event with
  | update pageKeys now =>
      obtain ⟨late, fits⟩ := permitted pageKeys now rfl
      simp only [callStep] at stepped
      split at stepped
      next => exact Option.some.inj stepped ▸ invariant
      next hit =>
        split at stepped
        next => exact Option.some.inj stepped ▸ invariant
        next record planned =>
          obtain rfl := Option.some.inj stepped
          exact invariant.write exact late planned (fits hit record planned)
  | fails => exact Option.some.inj stepped ▸ invariant

/-- In every run of calls the records stay in bounds. -/
theorem run_sound [Unicode] (enabled : config.enabled = true)
    (valid : validateManagedContextConfig config = none)
    (counter : Millionths config.maxHitCounter) (increment : Millionths config.hitIncrement)
    (boost : config.maxBoost ≠ .nan) {state : RunState}
    (reached : ReachableVia (callStep scope config) (CallPermitted scope config) {} state) :
    RunSound scope config state := by
  have exact := exactConfig_of_valid enabled valid counter increment boost
  have invariant : RunInvariant scope config state :=
    @ReachableVia.invariant _ _ _ _ _ _ (RunInvariant scope config) reached RunInvariant.start
      fun _ _ _ invariant permitted stepped => invariant.step exact permitted stepped
  refine ⟨invariant.generations, invariant.created, invariant.updated,
    fun record among => (invariant.each record among).sound exact, ?_⟩
  intro last isLast now
  have lastIn := List.mem_of_getLast? isLast
  obtain ⟨current, found, sound, generation, created, updated⟩ :=
    (invariant.each last lastIn).read exact now
  refine ⟨current, ?_, sound, generation, created, updated⟩
  rw [invariant.file, Option.mem_def.mp isLast]
  exact found

end Runs

/-! ## A run whose clock goes back -/

section Sample

attribute [local instance] Unicode.ascii Hashing.transparent sampleFloats sampleNumbers

def sampleCalls : List CallEvent := [.update ["pk_1"] 100, .fails, .update ["pk_1", "pk_2"] 50]

/-- The condition on calls, computed. -/
def callPermitted (config : ManagedContextConfig) (state : RunState) : CallEvent → Bool
  | .update pageKeys now =>
      decide (1 ≤ now) &&
        (updateHits sampleScope pageKeys config now state.file).all fun record =>
          decide (utf8Length (fileText record) ≤ recordReadMaxBytes)
  | .fails => true

theorem callPermitted_sound (config : ManagedContextConfig) (state : RunState) (event : CallEvent)
    (checked : callPermitted config state event = true) :
    CallPermitted sampleScope config state event := by
  rintro pageKeys now rfl
  simp only [callPermitted, Bool.and_eq_true, decide_eq_true_eq, Option.all_eq_true] at checked
  exact ⟨checked.1, fun _ record planned => checked.2 record planned⟩

theorem run_sound_sample :
    ∃ state, exec (callStep sampleScope { enabled := true }) {} sampleCalls = some state ∧
      RunSound sampleScope { enabled := true } state := by
  have runs : (exec (callStep sampleScope { enabled := true }) {} sampleCalls).isSome := by
    decide +kernel
  have checked : checks (callStep sampleScope { enabled := true })
      (callPermitted { enabled := true }) {} sampleCalls = true := by
    decide +kernel
  obtain ⟨state, ran⟩ := Option.isSome_iff_exists.mp runs
  exact ⟨state, ran, run_sound rfl (by decide +kernel) ⟨10000000, by norm_num⟩
    ⟨1000000, by norm_num⟩ (by decide)
    (reachableVia_of_exec (admits_of_checks (callPermitted_sound _) checked) ran)⟩

end Sample

end LlmWikiServe.ManagedContext
