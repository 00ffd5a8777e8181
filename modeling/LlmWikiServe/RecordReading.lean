import LlmWikiServe.Foundation.Ranking
import LlmWikiServe.RecordRoundTrip

/-!
# Which records are read back

A call of `update_hits` writes a record that is read back or not by the numbers of the
configuration, the pages that are hit and the record in the file.
-/

namespace LlmWikiServe.ManagedContext

open Transition

/-! ## The order of hits -/

/-- Hits with greater counters come first, then later ones, then those of lesser pages. -/
def hitKey (entry : Text × ManagedPageHit) : (WithBot (WithTop ℚ))ᵒᵈ ×ₗ ℚᵒᵈ ×ₗ Text :=
  toLex (OrderDual.toDual entry.2.counter.level,
    toLex (OrderDual.toDual entry.2.lastHitAt, entry.1))

/-- No counter of the hits is NaN. -/
def Numbered (hits : Hits) : Prop := ∀ entry ∈ hits, entry.2.counter ≠ .nan

theorem hitLe_iff_key {first second : Text × ManagedPageHit} (firstNumber : first.2.counter ≠ .nan)
    (secondNumber : second.2.counter ≠ .nan) :
    hitLe first second = true ↔ hitKey first ≤ hitKey second := by
  have above := PyFloat.lt_iff_level secondNumber firstNumber
  have below := PyFloat.lt_iff_level firstNumber secondNumber
  simp only [hitKey, Prod.Lex.toLex_le_toLex, OrderDual.toDual_lt_toDual, hitLe,
    OrderDual.toDual_inj]
  rcases lt_trichotomy first.2.counter.level second.2.counter.level with less | same | more
  · simp [below.mpr less, Bool.eq_false_iff.mpr (mt above.mp less.not_gt), less.not_gt, less.ne]
  · simp only [Bool.eq_false_iff.mpr (mt above.mp same.not_gt),
      Bool.eq_false_iff.mpr (mt below.mp same.not_lt), same, lt_irrefl, false_or, true_and]
    rcases lt_trichotomy first.2.lastHitAt second.2.lastHitAt with earlier | sameTime | later
    · simp [earlier, earlier.not_gt, earlier.ne]
    · simp [sameTime]
    · simp [later]
  · simp [above.mpr more, more]

theorem hitKey_injective {first second : Text × ManagedPageHit}
    (firstNumber : first.2.counter ≠ .nan) (secondNumber : second.2.counter ≠ .nan)
    (same : hitKey first = hitKey second) : first = second := by
  simp only [hitKey, toLex_inj, Prod.mk.injEq, OrderDual.toDual_inj] at same
  obtain ⟨level, time, name⟩ := same
  have counter := PyFloat.level_injective firstNumber secondNumber level
  obtain ⟨_, _, _⟩ := first
  obtain ⟨_, _, _⟩ := second
  simp_all

theorem sortBy_hitLe_pairwise {hits : Hits} (numbered : Numbered hits) :
    (sortBy hitLe hits).Pairwise fun first second => hitKey first ≤ hitKey second :=
  sortBy_pairwise fun first firstIn second secondIn =>
    hitLe_iff_key (numbered first firstIn) (numbered second secondIn)

theorem counter_of_trimmed {hits : Hits} {config : ManagedContextConfig}
    (limited : 0 ≤ config.maxHitEntries) (numbered : Numbered hits)
    {kept dropped : Text × ManagedPageHit} (isKept : kept ∈ trimHits hits config)
    (among : dropped ∈ hits) (isDropped : dropped ∉ trimHits hits config) :
    kept.2.counter.lt dropped.2.counter = false := by
  rw [trimHits, takeLimit, if_pos limited] at isKept isDropped
  have ordered := Ranking.le_of_mem_take (sortBy_hitLe_pairwise numbered) isKept
    (mem_sortBy.mpr among) isDropped
  have keptIn := mem_sortBy.mp (List.mem_of_mem_take isKept)
  rw [Bool.eq_false_iff, ne_eq, PyFloat.lt_iff_level (numbered _ keptIn) (numbered _ among)]
  intro less
  apply absurd ordered
  rw [not_le, hitKey, hitKey, Prod.Lex.toLex_lt_toLex]
  exact Or.inl (OrderDual.toDual_lt_toDual.mpr less)

/-- The hits before which fewer others come than are kept. -/
def leadingHits (config : ManagedContextConfig) (hits : Hits) : Hits :=
  hits.filter fun entry =>
    hits.countP (fun other => !hitLe entry other) < config.maxHitEntries.toNat

theorem leadingHits_perm (config : ManagedContextConfig) {first second : Hits}
    (same : first.Perm second) : (leadingHits config first).Perm (leadingHits config second) := by
  unfold leadingHits
  simp only [same.countP_eq]
  exact same.filter _

theorem trimHits_perm_leading {hits : Hits} {config : ManagedContextConfig}
    (limited : 0 ≤ config.maxHitEntries) (numbered : Numbered hits) (distinct : hits.Nodup) :
    (trimHits hits config).Perm (leadingHits config hits) := by
  have strict : (sortBy hitLe hits).Pairwise fun first second => hitKey first < hitKey second := by
    have apart := (sortBy_perm hitLe hits).nodup_iff.mpr distinct
    refine ((sortBy_hitLe_pairwise numbered).and apart).imp_of_mem ?_
    rintro first second firstIn secondIn ⟨ordered, other⟩
    refine lt_of_le_of_ne ordered fun same => other ?_
    exact hitKey_injective (numbered _ (mem_sortBy.mp firstIn)) (numbered _ (mem_sortBy.mp secondIn))
      same
  rw [trimHits, takeLimit, if_pos limited]
  refine (Ranking.take_perm_filter_rank (sortBy_perm hitLe hits) strict _).trans ?_
  apply List.Perm.of_eq
  apply List.filter_congr
  intro entry among
  rw [Ranking.rank]
  congr 1
  apply propext
  rw [List.countP_congr]
  intro other otherIn
  simp [← hitLe_iff_key (numbered _ among) (numbered _ otherIn), ← not_le]

/-! ## The hits of a call -/

section Inputs

variable [Numbers] (config : ManagedContextConfig)

/-- The time of an update, which does not go back. -/
def effectiveTime (now : ℚ) (stored : Option ManagedContextRecord) : ℚ :=
  stored.elim now fun record => max now record.updatedAt

/-- What a hit still counts, unless it is forgotten. -/
def remaining (time : ℚ) (hit : ManagedPageHit) : Option PyFloat :=
  let counter := decayedCounter hit.counter hit.lastHitAt time config.hitHalfLifeSeconds
  if counter.le (.finite (1 / 1000000)) then none else some counter

/-- What a page counts before the call. -/
def heldCounter (time : ℚ) (hits : Hits) (pageKey : Text) : Option PyFloat :=
  ((Keyed.get? hits pageKey).bind (remaining config time)).map (cappedCounter config)

/-- What a page that is hit counts, before it is cut at the maximum. -/
def raisedCounter (time : ℚ) (hits : Hits) (pageKey : Text) : PyFloat :=
  ((heldCounter config time hits pageKey).getD (.finite 0)).add config.hitIncrement

/-- What a page counts after the call. -/
def dueCounter (time : ℚ) (hits : Hits) (pageKeys : List Text) (pageKey : Text) :
    Option PyFloat :=
  if pageKey ∈ pageKeys then some (cappedCounter config (raisedCounter config time hits pageKey))
  else heldCounter config time hits pageKey

def dueHits (time : ℚ) (hits : Hits) (pageKeys : List Text) : Hits :=
  (hits.map Prod.fst ++ pageKeys).dedup.filterMap fun pageKey =>
    (dueCounter config time hits pageKeys pageKey).map fun counter => (pageKey, ⟨counter, time⟩)

def survivors (time : ℚ) (hits : Hits) : Hits :=
  hits.filterMap fun entry =>
    (remaining config time entry.2).map fun counter =>
      (entry.1, ⟨cappedCounter config counter, time⟩)

variable {config} {time : ℚ} {hits : Hits} {pageKeys : List Text}

theorem decayedHits_eq :
    decayedHits hits config time = trimHits (survivors config time hits) config := by
  unfold decayedHits survivors
  congr 2
  funext entry
  unfold remaining
  dsimp only
  split <;> rfl

theorem length_survivors :
    (survivors config time hits).length =
      hits.countP fun entry => (remaining config time entry.2).isSome := by
  simp [survivors, List.length_filterMap_eq_countP]

theorem survivors_sublist :
    ((survivors config time hits).map Prod.fst).Sublist (hits.map Prod.fst) := by
  apply Keyed.filterMap_keys
  intro entry kept found
  obtain ⟨counter, -, rfl⟩ := Option.map_eq_some_iff.mp found
  rfl

theorem get?_survivors (distinct : (hits.map Prod.fst).Nodup) (pageKey : Text) :
    Keyed.get? (survivors config time hits) pageKey =
      (heldCounter config time hits pageKey).map fun counter => ⟨counter, time⟩ := by
  induction hits with
  | nil => rfl
  | cons entry rest inductionHypothesis =>
      obtain ⟨fresh, restDistinct⟩ := List.nodup_cons.mp distinct
      have later := inductionHypothesis restDistinct
      by_cases here : entry.1 = pageKey
      · subst here
        have absent : Keyed.get? (survivors config time rest) entry.1 = none :=
          Keyed.get?_eq_none_iff.mpr fun among => fresh (survivors_sublist.subset among)
        cases left : remaining config time entry.2 <;>
          simp_all [survivors, heldCounter, Keyed.get?]
      · have skipped : heldCounter config time (entry :: rest) pageKey =
            heldCounter config time rest pageKey := by
          simp [heldCounter, Keyed.get?, here]
        rw [skipped, ← later]
        cases left : remaining config time entry.2 <;> simp [survivors, Keyed.get?, here, left]

/-- The hits before the new ones are added, when none of them is trimmed. -/
theorem decayedHits_perm (few : hits.length ≤ config.maxHitEntries) :
    (decayedHits hits config time).Perm (survivors config time hits) := by
  rw [decayedHits_eq]
  apply trimHits_perm
  have fewer : (survivors config time hits).length ≤ hits.length := List.length_filterMap_le _ _
  rw [length_trimHits, if_pos (by omega)]
  omega

theorem get?_decayedHits (distinct : (hits.map Prod.fst).Nodup)
    (few : hits.length ≤ config.maxHitEntries) (pageKey : Text) :
    Keyed.get? (decayedHits hits config time) pageKey =
      (heldCounter config time hits pageKey).map fun counter => ⟨counter, time⟩ := by
  rw [Keyed.get?_of_perm (decayedHits_perm few) (decayedHits_entries distinct config time).1,
    get?_survivors distinct]

omit [Numbers] in
theorem get?_foldl_addHit {keys : List Text} (once : keys.Nodup) (before : Hits) (pageKey : Text) :
    Keyed.get? (keys.foldl (addHit config time) before) pageKey =
      if pageKey ∈ keys then
        some ⟨cappedCounter config ((((Keyed.get? before pageKey).map
          ManagedPageHit.counter).getD (.finite 0)).add config.hitIncrement), time⟩
      else Keyed.get? before pageKey := by
  induction keys generalizing before with
  | nil => rfl
  | cons key rest inductionHypothesis =>
      obtain ⟨fresh, restOnce⟩ := List.nodup_cons.mp once
      rw [List.foldl_cons, inductionHypothesis restOnce]
      simp only [addHit, Keyed.get?_set, List.mem_cons]
      by_cases here : key = pageKey
      · subst here
        simp [fresh]
      · simp [here, Ne.symm here]

variable (config time hits pageKeys) in
/-- The hits of a call before they are trimmed. -/
def addedHits : Hits :=
  (uniqueTokens pageKeys).foldl (addHit config time) (decayedHits hits config time)

theorem nodup_addedHits (distinct : (hits.map Prod.fst).Nodup) :
    ((addedHits config time hits pageKeys).map Prod.fst).Nodup :=
  (foldl_addHit (decayedHits_entries distinct config time).1).1

theorem get?_addedHits (distinct : (hits.map Prod.fst).Nodup)
    (few : hits.length ≤ config.maxHitEntries) (pageKey : Text) :
    Keyed.get? (addedHits config time hits pageKeys) pageKey =
      (dueCounter config time hits pageKeys pageKey).map fun counter => ⟨counter, time⟩ := by
  have once : (uniqueTokens pageKeys).Nodup := by
    simpa [uniqueTokens] using List.nodup_dedup pageKeys.reverse
  have same : pageKey ∈ uniqueTokens pageKeys ↔ pageKey ∈ pageKeys := by simp [uniqueTokens]
  rw [addedHits, get?_foldl_addHit once, get?_decayedHits distinct few, dueCounter]
  by_cases hit : pageKey ∈ pageKeys
  · rw [if_pos (same.mpr hit), if_pos hit, raisedCounter]
    cases heldCounter config time hits pageKey <;> rfl
  · rw [if_neg (mt same.mp hit), if_neg hit]

/-- The hits of a call, from what it is given. -/
theorem mem_addedHits (distinct : (hits.map Prod.fst).Nodup)
    (few : hits.length ≤ config.maxHitEntries) {entry : Text × ManagedPageHit} :
    entry ∈ addedHits config time hits pageKeys ↔
      entry.2.lastHitAt = time ∧
        dueCounter config time hits pageKeys entry.1 = some entry.2.counter := by
  obtain ⟨pageKey, counter, lastHitAt⟩ := entry
  have found := @get?_addedHits _ _ time _ pageKeys distinct few pageKey
  constructor
  · intro among
    rw [Keyed.get?_of_mem (nodup_addedHits distinct) among, eq_comm, Option.map_eq_some_iff] at found
    obtain ⟨due, isDue, same⟩ := found
    cases same
    exact ⟨rfl, isDue⟩
  · rintro ⟨rfl, isDue⟩
    rw [isDue] at found
    exact Keyed.mem_of_get? found

theorem mem_dueHits {entry : Text × ManagedPageHit} :
    entry ∈ dueHits config time hits pageKeys ↔
      entry.2.lastHitAt = time ∧
        dueCounter config time hits pageKeys entry.1 = some entry.2.counter := by
  obtain ⟨pageKey, counter, lastHitAt⟩ := entry
  simp only [dueHits, List.mem_filterMap, List.mem_dedup, Option.map_eq_some_iff, Prod.mk.injEq,
    ManagedPageHit.mk.injEq]
  constructor
  · rintro ⟨_, -, _, due, rfl, rfl, rfl⟩
    exact ⟨rfl, due⟩
  · rintro ⟨rfl, due⟩
    refine ⟨pageKey, ?_, counter, due, rfl, rfl, rfl⟩
    by_cases hit : pageKey ∈ pageKeys
    · exact List.mem_append_right _ hit
    · apply List.mem_append_left
      rw [dueCounter, if_neg hit, heldCounter, Option.map_eq_some_iff] at due
      obtain ⟨_, left, -⟩ := due
      obtain ⟨_, stored, -⟩ := Option.bind_eq_some_iff.mp left
      exact Keyed.get?_isSome_iff.mp (by rw [stored]; rfl)

theorem nodup_dueHits : (dueHits config time hits pageKeys).Nodup := by
  apply List.Nodup.filterMap _ (List.nodup_dedup _)
  intro first second entry fromFirst fromSecond
  obtain ⟨_, -, rfl⟩ := Option.map_eq_some_iff.mp fromFirst
  obtain ⟨_, -, same⟩ := Option.map_eq_some_iff.mp fromSecond
  exact (Prod.mk.inj same).1.symm

theorem addedHits_perm (distinct : (hits.map Prod.fst).Nodup)
    (few : hits.length ≤ config.maxHitEntries) :
    (addedHits config time hits pageKeys).Perm (dueHits config time hits pageKeys) :=
  (List.perm_ext_iff_of_nodup (List.Nodup.of_map _ (nodup_addedHits distinct)) nodup_dueHits).mpr
    fun _ => (mem_addedHits distinct few).trans mem_dueHits.symm

end Inputs

/-! ## Counters that the reader keeps -/

namespace PyFloat

theorem ofExact_eq_finite {value other : ℚ} (same : ofExact value = .finite other) :
    other = value := by
  unfold ofExact at same
  split_ifs at same
  exact (PyFloat.finite.inj same).symm

theorem ofExact_ne_negInf {value : ℚ} (nonnegative : 0 ≤ value) : ofExact value ≠ .negInf := by
  unfold ofExact
  split_ifs <;> simp_all [not_lt.mpr nonnegative]

theorem ofExact_small {value : ℚ} (nonnegative : 0 ≤ value) (small : value < 1) :
    ofExact value = .finite value := by
  have numerator : value.num.natAbs < value.den := by
    have below := Rat.lt_iff _ _ |>.mp small
    have sign := Rat.num_nonneg.mpr nonnegative
    simp at below
    omega
  have bound : 1 ≤ overflowBound := by decide +kernel
  rw [ofExact, if_pos]
  calc
    value.num.natAbs < value.den := numerator
    _ ≤ overflowBound * value.den := Nat.le_mul_of_pos_left _ bound

end PyFloat

/-- A number above zero. -/
def Counted (counter : PyFloat) : Prop := ∃ value : ℚ, counter = .finite value ∧ 0 < value

theorem roundRat_zero : roundRat 6 0 = 0 := by decide +kernel

theorem roundRat_nonneg {value : ℚ} (nonnegative : 0 ≤ value) : 0 ≤ roundRat 6 value :=
  roundRat_zero ▸ roundRat_mono 6 nonnegative

section Counters

variable {config : ManagedContextConfig} {counter : PyFloat}

theorem counted_capped_iff {most : ℚ} (limit : config.maxHitCounter = .finite most)
    (large : 0 < roundRat 6 most) (proper : counter ≠ .negInf) :
    Counted (cappedCounter config counter) ↔
      ∀ value, counter = .finite value → 0 < roundRat 6 value := by
  have top : Counted (PyFloat.finite most).round := ⟨_, rfl, large⟩
  cases counter with
  | finite value =>
      by_cases below : value < most
      · simp [cappedCounter, PyFloat.min, limit, PyFloat.lt, below, Counted, PyFloat.round]
      · have above : 0 < roundRat 6 value :=
          lt_of_lt_of_le large (roundRat_mono 6 (not_lt.mp below))
        simpa [cappedCounter, PyFloat.min, limit, PyFloat.lt, below, above] using top
  | inf => simpa [cappedCounter, PyFloat.min, limit, PyFloat.lt] using top
  | negInf => exact absurd rfl proper
  | nan => simpa [cappedCounter, PyFloat.min, limit, PyFloat.lt] using top

theorem capped_inf (limit : config.maxHitCounter = .inf) :
    cappedCounter config counter =
      match counter with
      | .finite value => .finite (roundRat 6 value)
      | .negInf => .negInf
      | _ => .inf := by
  cases counter <;> simp [cappedCounter, PyFloat.min, limit, PyFloat.lt, PyFloat.round]

theorem capped_ne_nan (number : config.maxHitCounter ≠ .nan) : cappedCounter config counter ≠ .nan := by
  unfold cappedCounter PyFloat.min
  split
  next below => cases counter <;> simp_all [PyFloat.round, PyFloat.lt]
  next => cases limit : config.maxHitCounter <;> simp_all [PyFloat.round]

/-- A maximum that is rounded to zero, or is no number, leaves nothing. -/
theorem maximum_of_counted (counted : Counted (cappedCounter config counter)) :
    (PyFloat.finite 0).lt config.maxHitCounter.round = true := by
  obtain ⟨value, shape, positive⟩ := counted
  unfold cappedCounter PyFloat.min at shape
  split at shape
  next below =>
    cases counter with
    | finite number =>
        cases limit : config.maxHitCounter with
        | finite most =>
            simp only [limit, PyFloat.lt, decide_eq_true_eq] at below
            simp only [PyFloat.round, PyFloat.finite.injEq] at shape
            simp only [PyFloat.round, PyFloat.lt, decide_eq_true_eq]
            exact lt_of_lt_of_le (shape ▸ positive) (roundRat_mono 6 below.le)
        | inf => rfl
        | negInf => simp [limit, PyFloat.lt] at below
        | nan => simp [limit, PyFloat.lt] at below
    | inf => simp [PyFloat.round] at shape
    | negInf => simp [PyFloat.round] at shape
    | nan => simp [PyFloat.round] at shape
  next =>
    rw [shape]
    simpa [PyFloat.lt] using positive

/-- The maxima under which some counter is kept. -/
theorem maximum_cases (maximum : (PyFloat.finite 0).lt config.maxHitCounter.round = true) :
    (∃ most, config.maxHitCounter = .finite most ∧ 0 < roundRat 6 most) ∨
      config.maxHitCounter = .inf := by
  cases limit : config.maxHitCounter <;> simp_all [PyFloat.round, PyFloat.lt]

variable [Numbers] {time : ℚ}

/-- A hit that is not forgotten counts at least a millionth. -/
theorem remaining_spec {hit : ManagedPageHit} (left : remaining config time hit = some counter) :
    counter ≠ .negInf ∧ ∀ value, counter = .finite value → 0 < roundRat 6 value := by
  unfold remaining at left
  dsimp only at left
  split at left
  · cases left
  next large =>
    obtain rfl := Option.some.inj left
    rw [Bool.not_eq_true] at large
    refine ⟨fun low => ?_, fun value shape => ?_⟩
    · rw [low] at large
      cases large
    · rw [shape, PyFloat.le, Bool.or_eq_false_iff] at large
      have above : (1 / 1000000 : ℚ) ≤ value := by simpa [PyFloat.lt] using large.1
      have unit : (0 : ℚ) < roundRat 6 (1 / 1000000) := by decide +kernel
      exact lt_of_lt_of_le unit (roundRat_mono 6 above)

theorem remaining_finite {value lastHitAt : ℚ}
    (left : remaining config time ⟨.finite value, lastHitAt⟩ = some counter) :
    counter.isFinite = true ∨ config.hitHalfLifeSeconds = .nan := by
  unfold remaining decayedCounter at left
  cases halfLife : config.hitHalfLifeSeconds with
  | finite number =>
      left
      simp only [halfLife] at left
      split_ifs at left <;> obtain rfl := Option.some.inj left <;> rfl
  | inf =>
      left
      simp only [halfLife] at left
      split_ifs at left <;> obtain rfl := Option.some.inj left <;> rfl
  | negInf => simp [halfLife, PyFloat.le, PyFloat.lt] at left
  | nan => exact Or.inr rfl

theorem remaining_nan (halfLife : config.hitHalfLifeSeconds = .nan) (value lastHitAt : ℚ) :
    remaining config time ⟨.finite value, lastHitAt⟩ = some .nan := by
  simp [remaining, decayedCounter, halfLife, PyFloat.le, PyFloat.lt]

end Counters

/-! ## The hits that are kept -/

section Kept

variable [Numbers] {config : ManagedContextConfig} {time : ℚ} {hits : Hits} {pageKeys : List Text}

variable (config time hits pageKeys) in
/-- Without a maximum, no counter grows to infinity. -/
def StaysFinite : Prop :=
  config.maxHitCounter = .inf →
    (config.hitHalfLifeSeconds = .nan → hits = []) ∧
      ∀ pageKey ∈ pageKeys, (raisedCounter config time hits pageKey).isFinite = true

omit [Numbers] in
theorem increment_cases (increment : config.hitIncrement.le (.finite 0) = false) :
    (∃ value, config.hitIncrement = .finite value ∧ 0 < value) ∨ config.hitIncrement = .inf ∨
      config.hitIncrement = .nan := by
  cases shape : config.hitIncrement with
  | finite value =>
      rw [shape, PyFloat.le, Bool.or_eq_false_iff] at increment
      refine Or.inl ⟨value, rfl, lt_of_le_of_ne ?_ ?_⟩
      · simpa [PyFloat.lt] using increment.1
      · simpa [eq_comm] using increment.2
  | inf => exact Or.inr (Or.inl rfl)
  | negInf => simp [shape, PyFloat.le, PyFloat.lt] at increment
  | nan => exact Or.inr (Or.inr rfl)

omit [Numbers] in
/-- A number that is rounded to nothing does not overflow. -/
theorem tiny_sum {added : ℚ} (nonnegative : 0 ≤ added) (zero : roundRat 6 added = 0) :
    (PyFloat.finite 0).add (.finite added) = .finite added := by
  have small : added < 1 := by
    by_contra big
    have one : roundRat 6 1 = 1 := by decide +kernel
    have above := roundRat_mono 6 (not_lt.mp big)
    rw [one, zero] at above
    exact absurd above (by norm_num)
  rw [PyFloat.add, zero_add, PyFloat.ofExact_small nonnegative small]

variable (maximum : (PyFloat.finite 0).lt config.maxHitCounter.round = true)

include maximum

theorem held_proper {pageKey : Text} {held : PyFloat}
    (isHeld : heldCounter config time hits pageKey = some held) :
    held ≠ .negInf ∧ ∀ value, held = .finite value → 0 < value := by
  obtain ⟨counter, left, rfl⟩ := Option.map_eq_some_iff.mp isHeld
  obtain ⟨hit, -, left⟩ := Option.bind_eq_some_iff.mp left
  obtain ⟨proper, large⟩ := remaining_spec left
  rcases maximum_cases maximum with ⟨most, limit, positive⟩ | limit
  · obtain ⟨value, shape, above⟩ := (counted_capped_iff limit positive proper).mpr large
    rw [shape]
    exact ⟨by simp, fun other same => PyFloat.finite.inj same ▸ above⟩
  · rw [capped_inf limit]
    cases counter <;> simp_all

theorem raised_proper (increment : config.hitIncrement.le (.finite 0) = false) (pageKey : Text) :
    raisedCounter config time hits pageKey ≠ .negInf := by
  have base : ∃ held, (heldCounter config time hits pageKey).getD (.finite 0) = held ∧
      held ≠ .negInf ∧ ∀ value, held = .finite value → 0 ≤ value := by
    cases isHeld : heldCounter config time hits pageKey with
    | none => exact ⟨_, rfl, by simp, fun value same => (PyFloat.finite.inj same).le⟩
    | some held =>
        obtain ⟨proper, above⟩ := held_proper maximum isHeld
        exact ⟨held, rfl, proper, fun value same => (above value same).le⟩
  obtain ⟨held, isBase, proper, nonnegative⟩ := base
  rw [raisedCounter, isBase]
  rcases increment_cases increment with ⟨value, shape, above⟩ | shape | shape
  · rw [shape]
    cases held with
    | finite number =>
        exact PyFloat.ofExact_ne_negInf (add_nonneg (nonnegative number rfl) above.le)
    | inf => simp [PyFloat.add]
    | negInf => exact absurd rfl proper
    | nan => simp [PyFloat.add]
  · cases held <;> simp_all [PyFloat.add]
  · cases held <;> simp [shape, PyFloat.add]

variable (counters : ∀ entry ∈ hits, ∃ value : ℚ,
    entry.2.counter = cappedCounter config (.finite value))
  (finite : StaysFinite config time hits pageKeys)

include counters finite in
theorem held_counted {pageKey : Text} {held : PyFloat}
    (isHeld : heldCounter config time hits pageKey = some held) : Counted held := by
  obtain ⟨counter, left, rfl⟩ := Option.map_eq_some_iff.mp isHeld
  obtain ⟨⟨stored, lastHitAt⟩, found, left⟩ := Option.bind_eq_some_iff.mp left
  obtain ⟨proper, large⟩ := remaining_spec left
  rcases maximum_cases maximum with ⟨most, limit, positive⟩ | limit
  · exact (counted_capped_iff limit positive proper).mpr large
  · have among := Keyed.mem_of_get? found
    obtain ⟨value, shape⟩ := counters _ among
    rw [capped_inf limit] at shape
    obtain rfl : stored = .finite (roundRat 6 value) := shape
    rcases remaining_finite left with isFinite | halfLife
    · rw [capped_inf limit]
      cases counter with
      | finite number => exact ⟨_, rfl, large number rfl⟩
      | inf => cases isFinite
      | negInf => cases isFinite
      | nan => cases isFinite
    · rw [(finite limit).1 halfLife] at among
      cases among

include counters finite in
/-- A page that is hit is kept by the reader if it counted before, or if the increment is not
rounded to nothing. -/
theorem counted_raised_iff (increment : config.hitIncrement.le (.finite 0) = false)
    {pageKey : Text} (hit : pageKey ∈ pageKeys) :
    Counted (cappedCounter config (raisedCounter config time hits pageKey)) ↔
      (heldCounter config time hits pageKey).isSome = true ∨
        config.hitIncrement.round ≠ .finite 0 := by
  have proper := @raised_proper _ _ time hits maximum increment pageKey
  have kept : Counted (cappedCounter config (raisedCounter config time hits pageKey)) ↔
      ∀ value, raisedCounter config time hits pageKey = .finite value → 0 < roundRat 6 value := by
    rcases maximum_cases maximum with ⟨most, limit, positive⟩ | limit
    · exact counted_capped_iff limit positive proper
    · have isFinite := (finite limit).2 pageKey hit
      rw [capped_inf limit]
      cases shape : raisedCounter config time hits pageKey with
      | finite value => simp [Counted]
      | inf => simp [shape, PyFloat.isFinite] at isFinite
      | negInf => exact absurd shape proper
      | nan => simp [shape, PyFloat.isFinite] at isFinite
  rw [kept]
  cases isHeld : heldCounter config time hits pageKey with
  | some held =>
      simp only [Option.isSome_some, true_or, iff_true]
      obtain ⟨number, shape, positive⟩ := held_counted maximum counters finite isHeld
      have rounded : roundRat 6 number = number := by
        obtain ⟨counter, -, capped⟩ := Option.map_eq_some_iff.mp isHeld
        have again : held.round = held := by rw [← capped, cappedCounter, round_round]
        rw [shape] at again
        exact PyFloat.finite.inj again
      intro value raised
      rw [raisedCounter, isHeld, Option.getD_some, shape] at raised
      rcases increment_cases increment with ⟨added, addedShape, above⟩ | addedShape | addedShape
      · rw [addedShape] at raised
        obtain rfl := PyFloat.ofExact_eq_finite raised
        exact lt_of_lt_of_le (rounded ▸ positive) (roundRat_mono 6 (by linarith))
      · simp [addedShape, PyFloat.add] at raised
      · simp [addedShape, PyFloat.add] at raised
  | none =>
      simp only [Option.isSome_none, Bool.false_eq_true, false_or]
      rw [raisedCounter, isHeld, Option.getD_none]
      rcases increment_cases increment with ⟨added, addedShape, above⟩ | addedShape | addedShape
      · rw [addedShape, PyFloat.round, ne_eq, PyFloat.finite.injEq]
        have nonnegative := roundRat_nonneg above.le
        constructor
        · intro large zero
          have sum := tiny_sum above.le zero
          exact absurd (large added sum) (by rw [zero]; exact lt_irrefl 0)
        · intro nonzero value raised
          obtain rfl := PyFloat.ofExact_eq_finite raised
          rw [zero_add]
          exact lt_of_le_of_ne nonnegative (Ne.symm nonzero)
      · simp [addedShape, PyFloat.add, PyFloat.round]
      · simp [addedShape, PyFloat.add, PyFloat.round]

omit maximum in
/-- Hits among which few enough were stored are those of the call. -/
theorem mem_addedHits_of_due (distinct : (hits.map Prod.fst).Nodup)
    (few : hits.length ≤ config.maxHitEntries) {pageKey : Text} {counter : PyFloat}
    (due : dueCounter config time hits pageKeys pageKey = some counter) :
    (pageKey, ⟨counter, time⟩) ∈ addedHits config time hits pageKeys :=
  (mem_addedHits distinct few).mpr ⟨rfl, due⟩

omit maximum in
theorem counter_of_added (distinct : (hits.map Prod.fst).Nodup)
    (few : hits.length ≤ config.maxHitEntries) {entry : Text × ManagedPageHit}
    (among : entry ∈ addedHits config time hits pageKeys) :
    ∃ counter, entry.2.counter = cappedCounter config counter := by
  have due := ((mem_addedHits distinct few).mp among).2
  unfold dueCounter at due
  split at due
  · exact ⟨_, (Option.some.inj due).symm⟩
  · obtain ⟨counter, -, same⟩ := Option.map_eq_some_iff.mp due
    exact ⟨counter, same.symm⟩

theorem numbered_addedHits (distinct : (hits.map Prod.fst).Nodup)
    (few : hits.length ≤ config.maxHitEntries) :
    Numbered (addedHits config time hits pageKeys) := by
  intro entry among
  obtain ⟨counter, shape⟩ := counter_of_added distinct few among
  rw [shape]
  apply capped_ne_nan
  intro none_
  rw [none_] at maximum
  cases maximum

include counters in
theorem infinite_of_not_finite (distinct : (hits.map Prod.fst).Nodup)
    (few : hits.length ≤ config.maxHitEntries)
    (increment : config.hitIncrement.le (.finite 0) = false)
    (grows : ¬ StaysFinite config time hits pageKeys) :
    ∃ entry ∈ addedHits config time hits pageKeys, entry.2.counter = .inf := by
  obtain ⟨limit, grows⟩ := Classical.not_imp.mp grows
  have cut : ∀ pageKey ∈ pageKeys, (raisedCounter config time hits pageKey).isFinite = false →
      ∃ entry ∈ addedHits config time hits pageKeys, entry.2.counter = .inf := by
    intro pageKey hit infinite
    have due : dueCounter config time hits pageKeys pageKey = some .inf := by
      rw [dueCounter, if_pos hit, capped_inf limit]
      have proper := @raised_proper _ _ time hits maximum increment pageKey
      cases shape : raisedCounter config time hits pageKey <;> simp_all [PyFloat.isFinite]
    exact ⟨_, mem_addedHits_of_due distinct few due, rfl⟩
  rcases not_and_or.mp grows with decays | raises
  · obtain ⟨halfLife, stored⟩ := Classical.not_imp.mp decays
    obtain ⟨⟨pageKey, counter, lastHitAt⟩, among⟩ := List.exists_mem_of_ne_nil _ stored
    obtain ⟨value, shape⟩ := counters _ among
    rw [capped_inf limit] at shape
    obtain rfl : counter = .finite (roundRat 6 value) := shape
    have held : heldCounter config time hits pageKey = some .inf := by
      rw [heldCounter, Keyed.get?_of_mem distinct among, Option.bind_some,
        remaining_nan halfLife, Option.map_some, capped_inf limit]
    by_cases hit : pageKey ∈ pageKeys
    · apply cut pageKey hit
      rw [raisedCounter, held, Option.getD_some]
      rcases increment_cases increment with ⟨added, addedShape, -⟩ | addedShape | addedShape <;>
        simp [addedShape, PyFloat.add, PyFloat.isFinite]
    · have due : dueCounter config time hits pageKeys pageKey = some .inf := by
        rw [dueCounter, if_neg hit, held]
      exact ⟨_, mem_addedHits_of_due distinct few due, rfl⟩
  · push Not at raises
    obtain ⟨pageKey, hit, infinite⟩ := raises
    exact cut pageKey hit (by simpa using infinite)

omit maximum in
theorem addedHits_ne_nil (distinct : (hits.map Prod.fst).Nodup)
    (few : hits.length ≤ config.maxHitEntries) (hit : pageKeys ≠ []) :
    addedHits config time hits pageKeys ≠ [] := by
  obtain ⟨pageKey, among⟩ := List.exists_mem_of_ne_nil _ hit
  have due : dueCounter config time hits pageKeys pageKey =
      some (cappedCounter config (raisedCounter config time hits pageKey)) := by
    rw [dueCounter, if_pos among]
  exact List.ne_nil_of_mem (mem_addedHits_of_due distinct few due)

omit [Numbers] maximum in
theorem trimHits_ne_nil (positive : 0 < config.maxHitEntries) {added : Hits} (some_ : added ≠ []) :
    trimHits added config ≠ [] := by
  apply List.ne_nil_of_length_pos
  have length := List.length_pos_of_ne_nil some_
  rw [length_trimHits, if_pos positive.le]
  omega

/-- An infinite counter is kept in front, or gives way to another one. -/
theorem not_counted_of_infinite (positive : 0 < config.maxHitEntries)
    (distinct : (hits.map Prod.fst).Nodup) (few : hits.length ≤ config.maxHitEntries)
    {entry : Text × ManagedPageHit} (among : entry ∈ addedHits config time hits pageKeys)
    (infinite : entry.2.counter = .inf) :
    ∃ kept ∈ trimHits (addedHits config time hits pageKeys) config, ¬ Counted kept.2.counter := by
  have numbered := @numbered_addedHits _ _ time _ pageKeys maximum distinct few
  obtain ⟨kept, isKept⟩ :=
    List.exists_mem_of_ne_nil _ (trimHits_ne_nil positive (List.ne_nil_of_mem among))
  by_cases here : entry ∈ trimHits (addedHits config time hits pageKeys) config
  · refine ⟨entry, here, ?_⟩
    rintro ⟨value, shape, -⟩
    cases infinite.symm.trans shape
  · refine ⟨kept, isKept, ?_⟩
    rintro ⟨value, shape, -⟩
    have ordered := counter_of_trimmed positive.le numbered isKept among here
    rw [infinite, shape] at ordered
    cases ordered

/-- A new page that is hit by nothing but a rounding error. -/
theorem raised_of_unheld (increment : config.hitIncrement.le (.finite 0) = false)
    (zero : config.hitIncrement.round = .finite 0) {pageKey : Text}
    (unheld : ¬ (heldCounter config time hits pageKey).isSome = true) :
    ∃ value, cappedCounter config (raisedCounter config time hits pageKey) = .finite value := by
  have isNone : heldCounter config time hits pageKey = none := by simpa using unheld
  rcases increment_cases increment with ⟨added, shape, above⟩ | shape | shape
  · rw [shape, PyFloat.round, PyFloat.finite.injEq] at zero
    rw [raisedCounter, isNone, Option.getD_none, shape, tiny_sum above.le zero]
    rcases maximum_cases maximum with ⟨most, limit, -⟩ | limit
    · rw [cappedCounter, limit, PyFloat.min]
      split
      · exact ⟨_, rfl⟩
      · exact ⟨_, rfl⟩
    · rw [capped_inf limit]
      exact ⟨_, rfl⟩
  · simp [shape, PyFloat.round] at zero
  · simp [shape, PyFloat.round] at zero

/-- Where no counter is infinite, the reader keeps all hits unless an increment that is rounded to
nothing leaves a new page without a count among those that are kept. -/
theorem counted_trimmed_iff
    (counters : ∀ entry ∈ hits, ∃ value : ℚ, entry.2.counter = cappedCounter config (.finite value))
    (finite : StaysFinite config time hits pageKeys)
    (increment : config.hitIncrement.le (.finite 0) = false)
    (distinct : (hits.map Prod.fst).Nodup) (few : hits.length ≤ config.maxHitEntries) :
    (∀ entry ∈ trimHits (addedHits config time hits pageKeys) config, Counted entry.2.counter) ↔
      (config.hitIncrement.round = .finite 0 →
        (∀ pageKey ∈ pageKeys, (heldCounter config time hits pageKey).isSome = true) ∨
          config.maxHitEntries ≤ hits.countP fun entry => (remaining config time entry.2).isSome) := by
  have nonnegative : 0 ≤ config.maxHitEntries := by omega
  have raised := @counted_raised_iff _ _ time _ pageKeys maximum counters finite increment
  have held := @held_counted _ _ time _ pageKeys maximum counters finite
  have nodupAdded : ((addedHits config time hits pageKeys).map Prod.fst).Nodup :=
    nodup_addedHits distinct
  have survivorKeys : ∀ pageKey, pageKey ∈ (survivors config time hits).map Prod.fst ↔
      (heldCounter config time hits pageKey).isSome = true := by
    intro pageKey
    rw [← Keyed.get?_isSome_iff, get?_survivors distinct, Option.isSome_map]
  have nodupSurvivors : ((survivors config time hits).map Prod.fst).Nodup :=
    distinct.sublist survivors_sublist
  have few' := length_trimHits (addedHits config time hits pageKeys) config
  rw [if_pos nonnegative] at few'
  rw [← length_survivors]
  constructor
  · intro counted zero
    by_contra neither
    push Not at neither
    obtain ⟨⟨pageKey, hit, unheld⟩, less⟩ := neither
    have sub : (trimHits (addedHits config time hits pageKeys) config).map Prod.fst ⊆
        (survivors config time hits).map Prod.fst := by
      intro other among
      obtain ⟨entry, isKept, rfl⟩ := List.mem_map.mp among
      rw [survivorKeys]
      have due := ((mem_addedHits distinct few).mp (mem_of_mem_trimHits isKept)).2
      unfold dueCounter at due
      split at due
      next isHit =>
        have isCounted := counted entry isKept
        rw [← Option.some.inj due, raised isHit] at isCounted
        exact isCounted.resolve_right (not_not.mpr zero)
      next => exact Option.isSome_iff_exists.mpr ⟨_, due⟩
    have fewer : (trimHits (addedHits config time hits pageKeys) config).length ≤
        (survivors config time hits).length := by
      simpa using (List.subperm_of_subset (nodup_trimHits nodupAdded config) sub).length_le
    have whole : (trimHits (addedHits config time hits pageKeys) config).length =
        (addedHits config time hits pageKeys).length := by
      omega
    have due : dueCounter config time hits pageKeys pageKey =
        some (cappedCounter config (raisedCounter config time hits pageKey)) := by
      rw [dueCounter, if_pos hit]
    have isCounted :=
      counted _ ((trimHits_perm whole).mem_iff.mpr (mem_addedHits_of_due distinct few due))
    rcases (raised hit).mp isCounted with isHeld | nonzero
    · exact unheld isHeld
    · exact nonzero zero
  · intro enough entry isKept
    have among := mem_of_mem_trimHits isKept
    have due := ((mem_addedHits distinct few).mp among).2
    unfold dueCounter at due
    split at due
    next isHit =>
      by_contra uncounted
      rw [← Option.some.inj due] at uncounted
      obtain ⟨unheld, zero⟩ := not_or.mp (mt (raised isHit).mpr uncounted)
      rw [not_not] at zero
      obtain ⟨least, shape⟩ :=
        @raised_of_unheld _ _ time hits maximum increment zero _ unheld
      have nothing : least ≤ 0 := not_lt.mp fun positive => uncounted ⟨least, shape, positive⟩
      rcases enough zero with all | many
      · exact unheld (all _ isHit)
      · -- Every page that counted before stays, and there is no place for this one.
        have sub : entry.1 :: (survivors config time hits).map Prod.fst ⊆
            (trimHits (addedHits config time hits pageKeys) config).map Prod.fst := by
          intro pageKey isOne
          rcases List.mem_cons.mp isOne with rfl | survives
          · exact List.mem_map_of_mem isKept
          · have isHeld := (survivorKeys _).mp survives
            obtain ⟨counter, isDue, value, rfl, positive⟩ : ∃ counter,
                dueCounter config time hits pageKeys pageKey = some counter ∧ Counted counter := by
              by_cases alsoHit : pageKey ∈ pageKeys
              · exact ⟨_, if_pos alsoHit, (raised alsoHit).mpr (Or.inl isHeld)⟩
              · obtain ⟨counter, found⟩ := Option.isSome_iff_exists.mp isHeld
                exact ⟨counter, (if_neg alsoHit).trans found, held found⟩
            by_contra dropped
            have numbered :=
              @numbered_addedHits _ _ time _ pageKeys maximum distinct few
            have ordered := counter_of_trimmed nonnegative numbered isKept
              (mem_addedHits_of_due distinct few isDue) fun kept =>
                dropped (List.mem_map_of_mem kept)
            rw [← Option.some.inj due, shape, PyFloat.lt, decide_eq_false_iff_not] at ordered
            exact ordered (lt_of_le_of_lt nothing positive)
        have nodup : (entry.1 :: (survivors config time hits).map Prod.fst).Nodup := by
          refine List.nodup_cons.mpr ⟨fun survives => ?_, nodupSurvivors⟩
          exact unheld ((survivorKeys _).mp survives)
        have length := (List.subperm_of_subset nodup sub).length_le
        simp only [List.length_cons, List.length_map] at length
        omega
    next => exact held due

end Kept

/-! ## The size of a file -/

@[simp]
theorem utf8Length_nil : utf8Length [] = 0 := rfl

@[simp]
theorem utf8Length_cons (char : Char) (text : Text) :
    utf8Length (char :: text) = char.utf8Size + utf8Length text := by
  simp [utf8Length]

@[simp]
theorem utf8Length_append (first second : Text) :
    utf8Length (first ++ second) = utf8Length first + utf8Length second := by
  simp [utf8Length]

theorem utf8Length_lineBreak (indent depth : Nat) :
    utf8Length (Json.lineBreak indent depth) = 1 + indent * depth := by
  have blank : ('\n' : Char).utf8Size = 1 ∧ (' ' : Char).utf8Size = 1 := by decide
  simp [utf8Length, Json.lineBreak, blank]

@[simp]
theorem utf8Length_opening (depth : Nat) :
    utf8Length ((Json.Layout.indented 2).opening depth) = 1 + 2 * depth :=
  utf8Length_lineBreak 2 depth

@[simp]
theorem utf8Length_separating (depth : Nat) :
    utf8Length ((Json.Layout.indented 2).separating depth) = 1 + 2 * depth :=
  utf8Length_lineBreak 2 depth

@[simp]
theorem utf8Length_closing (depth : Nat) :
    utf8Length ((Json.Layout.indented 2).closing depth) = 1 + 2 * depth :=
  utf8Length_lineBreak 2 depth

section Bytes

variable [Json.FloatRepr PyFloat]

theorem utf8Length_printItems (depth : Nat) (items : List (Json PyFloat)) :
    utf8Length (Json.printItems (.indented 2) depth items) =
      (items.map fun item => utf8Length (Json.print (.indented 2) depth item) +
        (2 + 2 * depth)).sum := by
  have comma : (',' : Char).utf8Size = 1 := by decide
  induction items with
  | nil => rfl
  | cons item items inductionHypothesis =>
      simp only [Json.printItems, utf8Length_cons, utf8Length_append, utf8Length_separating, comma,
        inductionHypothesis, List.map_cons, List.sum_cons]
      ring

theorem utf8Length_printMembers (depth : Nat) (members : List (Text × Json PyFloat)) :
    utf8Length (Json.printMembers (.indented 2) depth members) =
      (members.map fun member => utf8Length (Json.printMember (.indented 2) depth member) +
        (2 + 2 * depth)).sum := by
  have comma : (',' : Char).utf8Size = 1 := by decide
  induction members with
  | nil => rfl
  | cons member members inductionHypothesis =>
      simp only [Json.printMembers, utf8Length_cons, utf8Length_append, utf8Length_separating, comma,
        inductionHypothesis, List.map_cons, List.sum_cons]
      ring

theorem utf8Length_array (depth : Nat) {items : List (Json PyFloat)} (some_ : items ≠ []) :
    utf8Length (Json.print (.indented 2) depth (.array items)) =
      (items.map fun item => utf8Length (Json.print (.indented 2) (depth + 1) item) +
        (4 + 2 * depth)).sum + (2 + 2 * depth) := by
  have marks : ('[' : Char).utf8Size = 1 ∧ (']' : Char).utf8Size = 1 := by decide
  obtain ⟨item, rest, rfl⟩ := List.exists_cons_of_ne_nil some_
  have deeper : 2 + 2 * (depth + 1) = 4 + 2 * depth := by ring
  simp only [Json.print, utf8Length_cons, utf8Length_append, utf8Length_nil, utf8Length_opening,
    utf8Length_closing, utf8Length_printItems, marks.1, marks.2, deeper, List.map_cons, List.sum_cons]
  ring

theorem utf8Length_object (depth : Nat) {members : List (Text × Json PyFloat)}
    (some_ : members ≠ []) :
    utf8Length (Json.print (.indented 2) depth (.object members)) =
      (members.map fun member => utf8Length (Json.printMember (.indented 2) (depth + 1) member) +
        (4 + 2 * depth)).sum + (2 + 2 * depth) := by
  have marks : ('\x7b' : Char).utf8Size = 1 ∧ ('\x7d' : Char).utf8Size = 1 := by decide
  obtain ⟨member, rest, rfl⟩ := List.exists_cons_of_ne_nil some_
  have deeper : 2 + 2 * (depth + 1) = 4 + 2 * depth := by ring
  simp only [Json.print, utf8Length_cons, utf8Length_append, utf8Length_nil, utf8Length_opening,
    utf8Length_closing, utf8Length_printMembers, marks.1, marks.2, deeper, List.map_cons, List.sum_cons]
  ring

def hitBytes (entry : Text × ManagedPageHit) : Nat :=
  utf8Length (Json.print (.indented 2) 2 (hitPayload entry).sortKeys) + 6

variable [Hashing]

/-- The bytes that a record takes without its hits. -/
def headerBytes (record : ManagedContextRecord) : Nat :=
  utf8Length (fileText { record with hits := [] }) + 2

/-- The members that do not depend on hits. -/
def plainMembers (record : ManagedContextRecord) : List (Text × Json PyFloat) :=
  (expectedMembers record.scope).map (fun member => (member.1, Json.string member.2)) ++
    (recordMembers record).take 4

omit [Json.FloatRepr PyFloat] in
theorem sortKeys_recordToPayload (record : ManagedContextRecord) :
    (recordToPayload record).sortKeys = .object
      ((Json.sortMembers (plainMembers record) ++ [("page_hit_prior".toList,
        Json.array (Json.sortItems ((sortBy pageKeyLe record.hits).map hitPayload)))]).insertionSort
          Json.nameLe) := by
  rw [recordToPayload, Json.sortKeys]
  simp [plainMembers, recordMembers, Json.sortMembers_eq_map, Json.sortMember, Json.sortKeys]

theorem utf8Length_fileText {record : ManagedContextRecord} (some_ : record.hits ≠ []) :
    utf8Length (fileText record) = headerBytes record + (record.hits.map hitBytes).sum := by
  have size : ∀ record : ManagedContextRecord, utf8Length (fileText record) =
      ((Json.sortMembers (plainMembers record)).map fun member =>
        utf8Length (Json.printMember (.indented 2) 1 member) + 4).sum +
      utf8Length (Json.printMember (.indented 2) 1 ("page_hit_prior".toList,
        Json.array (Json.sortItems ((sortBy pageKeyLe record.hits).map hitPayload)))) + 7 := by
    intro record
    have newline : ('\n' : Char).utf8Size = 1 := by decide
    rw [fileText, Json.dumps, sortKeys_recordToPayload, utf8Length_append, utf8Length_object]
    · rw [((List.perm_insertionSort _ _).map _).sum_eq]
      simp [newline]
      ring
    · apply List.ne_nil_of_length_pos
      rw [List.length_insertionSort]
      simp
  have items : ∀ hits : Hits, Json.sortItems (hits.map hitPayload) =
      hits.map fun entry => (hitPayload entry).sortKeys := by
    intro hits
    induction hits with
    | nil => rfl
    | cons entry rest inductionHypothesis => simp [Json.sortItems, inductionHypothesis]
  have sortedHits : sortBy pageKeyLe record.hits ≠ [] := by
    intro none_
    have same := sortBy_perm pageKeyLe record.hits
    rw [none_] at same
    exact some_ same.nil_eq.symm
  have empty : Json.print (F := PyFloat) (.indented 2) 1 (.array []) = ['[', ']'] := rfl
  have brackets : utf8Length ['[', ']'] = 2 := by decide
  rw [headerBytes, size record, size { record with hits := [] }, items, items]
  simp only [Json.printMember, utf8Length_append, utf8Length_cons]
  rw [utf8Length_array 1 (by simpa using sortedHits)]
  have nothing : (sortBy pageKeyLe ([] : Hits)).map (fun entry => (hitPayload entry).sortKeys) = [] :=
    rfl
  have plain : plainMembers { record with hits := [] } = plainMembers record := rfl
  have bytes : (record.hits.map hitBytes).sum =
      (((sortBy pageKeyLe record.hits).map fun entry => (hitPayload entry).sortKeys).map fun item =>
        utf8Length (Json.print (.indented 2) (1 + 1) item) + (4 + 2 * 1)).sum := by
    rw [← ((sortBy_perm pageKeyLe record.hits).map hitBytes).sum_eq, List.map_map]
    rfl
  rw [nothing, empty, brackets, plain, bytes]
  ring

end Bytes

/-! ## Calls whose record is read back -/

section Calls

variable [Hashing] [Numbers] [Json.FloatRepr PyFloat]

/-- The record of a call without its hits. -/
def dueHeader (scope : ManagedContextScope) (now : ℚ) (stored : Option ManagedContextRecord) :
    ManagedContextRecord where
  scope := scope
  generation := stored.elim 1 fun record => record.generation + 1
  createdAt := stored.elim now ManagedContextRecord.createdAt
  updatedAt := effectiveTime now stored
  hits := []

def storedHits (stored : Option ManagedContextRecord) : Hits :=
  (stored.map ManagedContextRecord.hits).getD []

/-- What a call must be given so that its record is read back, with the record in the file. -/
structure KeepsHits (scope : ManagedContextScope) (config : ManagedContextConfig) (now : ℚ)
    (pageKeys : List Text) (stored : Option ManagedContextRecord) : Prop where
  /-- The maximum is a number and not rounded to zero. -/
  maximum : (PyFloat.finite 0).lt config.maxHitCounter.round = true
  /-- Without a maximum, no counter grows to infinity. -/
  finite : StaysFinite config (effectiveTime now stored) (storedHits stored) pageKeys
  /-- An increment that is rounded to zero goes to pages that count already, or finds no place. -/
  increment : config.hitIncrement.round = .finite 0 →
    (∀ pageKey ∈ pageKeys,
      (heldCounter config (effectiveTime now stored) (storedHits stored) pageKey).isSome = true) ∨
    config.maxHitEntries ≤ (storedHits stored).countP fun entry =>
      (remaining config (effectiveTime now stored) entry.2).isSome
  /-- Nothing decays between the rounded time of the update and the clock. -/
  decay : (decayedCounter (.finite 1) (roundRat 6 (effectiveTime now stored)) now
    config.hitHalfLifeSeconds).le (.finite 0) = false
  fits : headerBytes (dueHeader scope now stored) +
    ((leadingHits config (dueHits config (effectiveTime now stored) (storedHits stored)
      pageKeys)).map hitBytes).sum ≤ recordReadMaxBytes

omit [Hashing] [Json.FloatRepr PyFloat] in
theorem decays_iff {value : ℚ} (positive : 0 < value) (lastHitAt now : ℚ) (halfLife : PyFloat) :
    (decayedCounter (.finite value) lastHitAt now halfLife).le (.finite 0) =
      (decayedCounter (.finite 1) lastHitAt now halfLife).le (.finite 0) := by
  have sign (factor : ℚ) : (PyFloat.finite (value * factor)).le (.finite 0) =
      (PyFloat.finite (1 * factor)).le (.finite 0) := by
    rw [Bool.eq_iff_iff]
    simp only [PyFloat.le, PyFloat.lt, Bool.or_eq_true, decide_eq_true_eq, Bool.and_eq_true, ne_eq,
      reduceCtorEq, not_false_eq_true, decide_true, true_and, PyFloat.finite.injEq, one_mul]
    rw [← le_iff_lt_or_eq, ← le_iff_lt_or_eq]
    constructor
    · intro nonpositive
      by_contra above
      exact absurd nonpositive (not_le.mpr (mul_pos positive (not_le.mp above)))
    · exact fun nonpositive => mul_nonpos_of_nonneg_of_nonpos positive.le nonpositive
  unfold decayedCounter
  split
  · rfl
  · cases halfLife with
    | finite number => exact sign _
    | inf => simp [PyFloat.le, PyFloat.lt, positive.not_gt, positive.ne']
    | negInf => rfl
    | nan => rfl

theorem read_hits {record current : ManagedContextRecord} {config : ManagedContextConfig} {now : ℚ}
    (limited : 0 ≤ config.maxHitEntries)
    (found : read record.scope config now false (some (fileText record)) = .value current) :
    current.hits.length ≤ config.maxHitEntries ∧
      ∀ entry ∈ current.hits, ∃ value : ℚ, entry.2.counter = cappedCounter config (.finite value) := by
  by_cases fits : utf8Length (fileText record) ≤ recordReadMaxBytes
  · rw [read_fileText config now fits] at found
    split at found
    · cases found
    · obtain rfl := Conversion.value.inj found
      refine ⟨?_, fun entry among => ?_⟩
      · have length := length_trimHits (rereadHits config now record.hits) config
        rw [if_pos limited] at length
        dsimp only
        omega
      · rcases Keyed.mem_update (mem_of_mem_trimHits among) with absent | rereadIn
        · cases absent
        · obtain ⟨kept, keptIn, rfl⟩ := List.mem_map.mp rereadIn
          obtain ⟨-, value, rounded, -⟩ := mem_lastingEntries.mp keptIn
          exact ⟨value, by rw [rereadEntry, rounded]⟩
  · simp [read_tooLarge _ config now (not_le.mp fits)] at found

/-- The file of a record never makes the reader raise. -/
theorem updateHits_reachable {scope : ManagedContextScope} {file : Option Text}
    (reached : Reachable (fileStep scope) none file) (config : ManagedContextConfig)
    (pageKeys : List Text) (now : ℚ) :
    updateHits scope pageKeys config now file =
      some (updatedRecord scope pageKeys config now (read scope config now false file).value?) := by
  have lenient : read scope config now false file ≠ .overflow := by
    rcases reachable_file reached with rfl | ⟨record, rfl, rfl⟩
    · simp [read, readJsonPayload]
    · by_cases fits : utf8Length (fileText record) ≤ recordReadMaxBytes
      · rw [read_fileText config now fits]
        split <;> simp
      · simp [read_tooLarge _ config now (not_le.mp fits)]
  unfold updateHits
  cases found : read scope config now false file with
  | overflow => exact absurd found lenient
  | refused => rfl
  | value record => rfl

omit [Hashing] [Json.FloatRepr PyFloat] in
theorem updatedRecord_eq (scope : ManagedContextScope) (pageKeys : List Text)
    (config : ManagedContextConfig) (now : ℚ) (stored : Option ManagedContextRecord) :
    updatedRecord scope pageKeys config now stored =
      { dueHeader scope now stored with
        hits := trimHits (addedHits config (effectiveTime now stored) (storedHits stored) pageKeys)
          config } := by
  cases stored with
  | none => rfl
  | some record =>
      have later : (if now < record.updatedAt then record.updatedAt else now) =
          max now record.updatedAt := by
        rw [max_comm, max_def]
        split_ifs <;> first | rfl | linarith
      simp only [updatedRecord, dueHeader, effectiveTime, addedHits, storedHits, Option.map_some,
        Option.getD_some, Option.elim_some, later]

/-- What is known of the record that a call finds. -/
structure Found (config : ManagedContextConfig) (now : ℚ) (stored : Option ManagedContextRecord) :
    Prop where
  invariant : ∀ record, stored = some record → RecordInvariant now record
  distinct : ((storedHits stored).map Prod.fst).Nodup
  few : (storedHits stored).length ≤ config.maxHitEntries
  counters : ∀ entry ∈ storedHits stored, ∃ value : ℚ,
    entry.2.counter = cappedCounter config (.finite value)

theorem found_reachable {scope : ManagedContextScope} {file : Option Text}
    (reached : Reachable (fileStep scope) none file) {config : ManagedContextConfig}
    (limited : 0 ≤ config.maxHitEntries) (now : ℚ) :
    Found config now (read scope config now false file).value? := by
  cases stored : (read scope config now false file).value? with
  | none =>
      refine ⟨fun _ absent => ?_, List.nodup_nil, limited, fun _ absent => ?_⟩
      · cases absent
      · exact absurd absent List.not_mem_nil
  | some current =>
      have found := Conversion.value?_eq_some.mp stored
      rcases reachable_file reached with rfl | ⟨record, rfl, rfl⟩
      · simp [read, readJsonPayload] at found
      · have invariant := read_invariant found
        obtain ⟨few, counters⟩ := read_hits limited found
        exact ⟨fun _ same => Option.some.inj same ▸ invariant, invariant.distinct, few, counters⟩

/-- The bytes of the record that a call writes. -/
theorem utf8Length_updatedRecord {config : ManagedContextConfig} {now : ℚ}
    {stored : Option ManagedContextRecord} (found : Found config now stored)
    (maximum : (PyFloat.finite 0).lt config.maxHitCounter.round = true)
    (positive : 0 < config.maxHitEntries) {pageKeys : List Text} (hit : pageKeys ≠ [])
    (scope : ManagedContextScope) :
    utf8Length (fileText (updatedRecord scope pageKeys config now stored)) =
      headerBytes (dueHeader scope now stored) +
        ((leadingHits config (dueHits config (effectiveTime now stored) (storedHits stored)
          pageKeys)).map hitBytes).sum := by
  have leading := (trimHits_perm_leading positive.le
    (@numbered_addedHits _ _ (effectiveTime now stored) _ pageKeys maximum found.distinct
      found.few) (List.Nodup.of_map _ (nodup_addedHits found.distinct))).trans
    (leadingHits_perm config (addedHits_perm found.distinct found.few))
  rw [updatedRecord_eq, utf8Length_fileText, (leading.map hitBytes).sum_eq]
  · rfl
  · exact trimHits_ne_nil positive (addedHits_ne_nil found.distinct found.few hit)

end Calls

section Sample

attribute [local instance] Unicode.ascii Hashing.transparent sampleFloats sampleNumbers

/-- No maximum, and an increment that overflows when it is added to itself. -/
def hugeConfig : ManagedContextConfig :=
  { enabled := true, maxHitCounter := .inf, hitIncrement := .finite (3 / 2 * 10 ^ 308) }

/-- The file after a call for one page. -/
def hugeFile : Option Text :=
  some (fileText (updatedRecord sampleScope ["pk_1"] hugeConfig 100 none))

deriving instance DecidableEq for ManagedContextScope
deriving instance DecidableEq for ManagedContextRecord

end Sample

end LlmWikiServe.ManagedContext
