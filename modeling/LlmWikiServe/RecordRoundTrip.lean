import LlmWikiServe.Foundation.Transition
import LlmWikiServe.ManagedContext

/-!
# Reading managed context records back

What `update_hits` writes is read back unless the file is too large or an entry is one the reader
skips.
-/

namespace LlmWikiServe.ManagedContext

open Transition

/-! ## Rounding -/

/-- The integer a number is rounded to, ties going to the even neighbour. -/
def nearest (value : ℚ) : Int :=
  let down := value.floor
  let rest := value - down
  if rest < 1 / 2 then down
  else if 1 / 2 < rest then down + 1
  else if down % 2 = 0 then down
  else down + 1

theorem roundRat_eq (digits : Nat) (value : ℚ) :
    roundRat digits value = nearest (value * 10 ^ digits) / 10 ^ digits := rfl

theorem nearest_bounds (value : ℚ) :
    value.floor ≤ nearest value ∧ nearest value ≤ value.floor + 1 := by
  simp only [nearest]
  split_ifs <;> omega

theorem nearest_intCast (number : Int) : nearest number = number := by
  have floor : (number : ℚ).floor = number := Rat.floor_intCast number
  simp [nearest, floor]

theorem nearest_mono {first second : ℚ} (ordered : first ≤ second) :
    nearest first ≤ nearest second := by
  have floors : first.floor ≤ second.floor := Int.floor_mono ordered
  rcases lt_or_eq_of_le floors with less | same
  · have below := (nearest_bounds first).2
    have above := (nearest_bounds second).1
    omega
  · have rests : first - first.floor ≤ second - first.floor := by linarith
    simp only [nearest, ← same]
    split_ifs <;> first | omega | linarith

theorem roundRat_mono (digits : Nat) {first second : ℚ} (ordered : first ≤ second) :
    roundRat digits first ≤ roundRat digits second := by
  rw [roundRat_eq, roundRat_eq]
  have scaled : first * 10 ^ digits ≤ second * 10 ^ digits := by gcongr
  have rounded : (nearest (first * 10 ^ digits) : ℚ) ≤ nearest (second * 10 ^ digits) := by
    exact_mod_cast nearest_mono scaled
  gcongr

theorem roundRat_roundRat (digits : Nat) (value : ℚ) :
    roundRat digits (roundRat digits value) = roundRat digits value := by
  have cancelled : roundRat digits value * 10 ^ digits = nearest (value * 10 ^ digits) := by
    rw [roundRat_eq]
    field_simp
  rw [roundRat_eq digits (roundRat digits value), cancelled, nearest_intCast, roundRat_eq]

theorem round_round (value : PyFloat) : value.round.round = value.round := by
  cases value <;> simp [PyFloat.round, roundRat_roundRat]

/-- A counter that was cut stays as it is when it is cut again. -/
theorem cappedCounter_capped {config : ManagedContextConfig} {counter : PyFloat} {value : ℚ}
    (capped : cappedCounter config counter = .finite value) :
    cappedCounter config (.finite value) = .finite value := by
  have rounded : (PyFloat.finite value).round = .finite value := by
    rw [← capped, cappedCounter, round_round]
  simp only [cappedCounter, PyFloat.min] at capped ⊢
  by_cases below : PyFloat.lt (.finite value) config.maxHitCounter = true
  · rw [if_pos below, rounded]
  · rw [if_neg below]
    by_cases cut : counter.lt config.maxHitCounter = true
    · rw [if_pos cut] at capped
      -- The counter is below the maximum, and both are rounded to the same number.
      cases counter with
      | finite number =>
          simp only [PyFloat.round, PyFloat.finite.injEq] at capped rounded
          cases limit : config.maxHitCounter with
          | finite most =>
              simp only [limit, PyFloat.lt, decide_eq_true_eq, not_lt] at below cut
              simp only [PyFloat.round, PyFloat.finite.injEq]
              apply le_antisymm
              · rw [← rounded]
                exact roundRat_mono 6 below
              · rw [← capped]
                exact roundRat_mono 6 (le_of_lt cut)
          | inf => simp [limit, PyFloat.lt] at below
          | negInf => simp [limit, PyFloat.lt] at cut
          | nan => simp [limit, PyFloat.lt] at cut
      | inf => simp [PyFloat.round] at capped
      | negInf => simp [PyFloat.round] at capped
      | nan => simp [PyFloat.round] at capped
    · rwa [if_neg cut] at capped

/-! ## The payload of a record -/

section Payload

variable [Hashing]

omit [Hashing] in
theorem hitPayload_distinct (entry : Text × ManagedPageHit) : (hitPayload entry).Distinct := by
  have names : [("page_key" : Text), "counter", "last_hit_at"].Nodup := by decide
  simp only [hitPayload, roundedTime, Json.Distinct, Json.DistinctMembers, Json.DistinctMember]
  exact ⟨names, trivial, trivial, trivial, trivial⟩

theorem recordToPayload_distinct (record : ManagedContextRecord) :
    (recordToPayload record).Distinct := by
  have names : [("schema_version" : Text), "config_version", "namespace_digest",
      "source_id_digest", "adapter_kind", "projection_signature_digest",
      "source_signature_digest", "created_at", "updated_at", "generation",
      "orientation_generation", "page_hit_prior"].Nodup := by decide
  have orientation : [("strategy" : Text), "generated_at"].Nodup := by decide
  have hits : Json.DistinctItems ((sortBy pageKeyLe record.hits).map hitPayload) := by
    generalize sortBy pageKeyLe record.hits = entries
    induction entries with
    | nil => trivial
    | cons entry entries inductionHypothesis =>
        exact ⟨hitPayload_distinct entry, inductionHypothesis⟩
  simp only [recordToPayload, expectedMembers, recordMembers, roundedTime, List.map_cons,
    List.map_nil, List.cons_append, List.nil_append, Json.Distinct, Json.DistinctMembers,
    Json.DistinctMember]
  exact ⟨names, trivial, trivial, trivial, trivial, trivial, trivial, trivial, trivial, trivial,
    trivial, ⟨orientation, trivial, trivial, trivial⟩, hits, trivial⟩

theorem get_recordToPayload {record : ManagedContextRecord} {name : Text} {value : Json PyFloat}
    (member : (name, value) ∈
      (expectedMembers record.scope).map (fun member => (member.1, Json.string member.2)) ++
        recordMembers record) :
    (recordToPayload record).sortKeys.get name = value.sortKeys := by
  have distinct := recordToPayload_distinct record
  rw [Json.get_sortKeys distinct]
  simp only [recordToPayload, Json.Distinct] at distinct
  have found := Keyed.get?_of_mem distinct.1 member
  simp only [recordToPayload, Json.get, found, Option.getD_some]

omit [Hashing] in
theorem get_hitPayload (entry : Text × ManagedPageHit) :
    (hitPayload entry).sortKeys.get "page_key" = .string entry.1 ∧
      (hitPayload entry).sortKeys.get "counter" = .float entry.2.counter.round ∧
      (hitPayload entry).sortKeys.get "last_hit_at" = roundedTime entry.2.lastHitAt := by
  have distinct := hitPayload_distinct entry
  rw [Json.get_sortKeys distinct, Json.get_sortKeys distinct, Json.get_sortKeys distinct]
  exact ⟨rfl, rfl, rfl⟩

end Payload

section Reading

variable [Hashing] [Numbers]

/-- The reader keeps an entry that is written with this hit. -/
def Lasts (config : ManagedContextConfig) (now : ℚ) (entry : Text × ManagedPageHit) : Prop :=
  ∃ value : ℚ, entry.2.counter.round = .finite value ∧
    Text.startsWith entry.1 "pk_" = true ∧ 0 < value ∧
    (decayedCounter (.finite value) (roundRat 6 entry.2.lastHitAt) now
      config.hitHalfLifeSeconds).le (.finite 0) = false

def rereadEntry (config : ManagedContextConfig) (entry : Text × ManagedPageHit) :
    Text × ManagedPageHit :=
  (entry.1, ⟨cappedCounter config entry.2.counter.round, roundRat 6 entry.2.lastHitAt⟩)

omit [Hashing] in
theorem readHit_lasting {config : ManagedContextConfig} {now : ℚ} {entry : Text × ManagedPageHit}
    (lasts : Lasts config now entry) :
    readHit config now (hitPayload entry).sortKeys = .value (rereadEntry config entry) := by
  obtain ⟨value, counter, isKey, positive, decays⟩ := lasts
  obtain ⟨pageKey, counterRead, timeRead⟩ := get_hitPayload entry
  simp only [readHit, pageKey, counterRead, timeRead, toFloat, roundedTime, counter, isNull, isKey,
    decays, Bool.not_true, Bool.or_self, Conversion.value_bind, not_le.mpr positive, if_false,
    rereadEntry, Bool.false_eq_true]
  rfl

omit [Hashing] in
theorem readHit_passing {config : ManagedContextConfig} {now : ℚ} {entry : Text × ManagedPageHit}
    (passes : ¬ Lasts config now entry) :
    readHit config now (hitPayload entry).sortKeys = .refused := by
  obtain ⟨pageKey, counterRead, timeRead⟩ := get_hitPayload entry
  simp only [readHit, pageKey, counterRead, timeRead, toFloat, roundedTime, isNull, Bool.or_false,
    Conversion.value_bind]
  split
  · rfl
  next isKey =>
  cases counter : entry.2.counter.round with
  | finite value =>
      simp only
      split
      · rfl
      next positive =>
        split
        · rfl
        next decays =>
          refine absurd ⟨value, counter, ?_, not_le.mp positive, ?_⟩ passes
          · simpa using isKey
          · exact (Bool.not_eq_true _).mp decays
  | inf => rfl
  | negInf => rfl
  | nan => rfl

/-- A time as it is read back at a clock value. -/
def rereadTime (now time : ℚ) : ℚ := if roundRat 6 time = 0 then now else roundRat 6 time

omit [Hashing] in
theorem toTime_rounded (now time : ℚ) :
    toTime now (roundedTime time) = .value (.finite (rereadTime now time)) := by
  unfold toTime rereadTime roundedTime
  by_cases zero : roundRat 6 time = 0 <;> simp [truthy, zero, toFloat]

omit [Hashing] in
theorem toInt_int (value : Int) : toInt (.int value) = .value value := by
  by_cases zero : value = 0 <;> simp [toInt, intOf, truthy, zero]

open Classical in
/-- The entries the reader keeps, in the order of the file. -/
noncomputable def lastingEntries (config : ManagedContextConfig) (now : ℚ) (hits : Hits) : Hits :=
  (sortBy pageKeyLe hits).filter fun entry => decide (Lasts config now entry)

/-- The hits that are read back from the hits of a record, before they are trimmed. -/
noncomputable def rereadHits (config : ManagedContextConfig) (now : ℚ) (hits : Hits) : Hits :=
  Keyed.update [] ((lastingEntries config now hits).map (rereadEntry config))

omit [Hashing] in
theorem readHits_payload (config : ManagedContextConfig) (now : ℚ) (entries : Hits) :
    readHits config now (Json.sortItems (entries.map hitPayload)) =
      .value (open Classical in
        (entries.filter fun entry => decide (Lasts config now entry)).map (rereadEntry config)) := by
  induction entries with
  | nil => rfl
  | cons entry entries inductionHypothesis =>
      simp only [List.map_cons, Json.sortItems, readHits]
      by_cases lasts : Lasts config now entry
      · rw [readHit_lasting lasts, List.filter_cons_of_pos (by simpa using lasts), List.map_cons]
        simp only [inductionHypothesis]
        rfl
      · rw [readHit_passing lasts, List.filter_cons_of_neg (by simpa using lasts)]
        exact inductionHypothesis

variable [Json.FloatRepr PyFloat]

theorem read_fileText {record : ManagedContextRecord} (config : ManagedContextConfig) (now : ℚ)
    (fits : utf8Length (fileText record) ≤ recordReadMaxBytes) :
    read record.scope config now false (some (fileText record)) =
      if record.generation < 1 ∨ rereadTime now record.updatedAt < rereadTime now record.createdAt
      then .refused
      else .value
        { scope := record.scope
          generation := record.generation
          createdAt := rereadTime now record.createdAt
          updatedAt := rereadTime now record.updatedAt
          hits := trimHits (rereadHits config now record.hits) config } := by
  have loaded : readJsonPayload (some (fileText record)) =
      some (recordToPayload record).sortKeys := by
    rw [readJsonPayload, Option.bind_some, if_neg (not_lt.mpr fits), fileText]
    exact Json.loads_dumps_append _ (recordToPayload_distinct record) rfl
  have expected : ((expectedMembers record.scope).any fun member =>
      !hasMember (recordToPayload record).sortKeys member) = false := by
    apply List.any_eq_false.mpr
    intro member among
    rw [hasMember, get_recordToPayload (List.mem_append_left _ (List.mem_map_of_mem among))]
    simp [Json.sortKeys]
  have field : ∀ name value, (name, value) ∈ recordMembers record →
      (recordToPayload record).sortKeys.get name = value.sortKeys :=
    fun name value among => get_recordToPayload (List.mem_append_right _ among)
  have createdAt := field "created_at" (roundedTime record.createdAt) (by simp [recordMembers])
  have updatedAt := field "updated_at" (roundedTime record.updatedAt) (by simp [recordMembers])
  have generation := field "generation" (.int record.generation) (by simp [recordMembers])
  have hits := field "page_hit_prior" (.array ((sortBy pageKeyLe record.hits).map hitPayload))
    (by simp [recordMembers])
  have items := readHits_payload config now (sortBy pageKeyLe record.hits)
  simp only [Json.sortKeys] at hits
  unfold read
  rw [if_neg (by decide), loaded, Option.elim_some, recordFromPayload, expected,
    if_neg (by decide), hits]
  have times := toTime_rounded now
  simp only [roundedTime] at createdAt updatedAt times
  simp only [items, createdAt, updatedAt, generation, Json.sortKeys, times, toInt_int,
    Conversion.value_bind]
  rfl

theorem read_tooLarge {record : ManagedContextRecord} (scope : ManagedContextScope)
    (config : ManagedContextConfig) (now : ℚ)
    (large : recordReadMaxBytes < utf8Length (fileText record)) :
    read scope config now false (some (fileText record)) = .refused := by
  simp [read, readJsonPayload, large]

end Reading

/-! ## Trimmed hits -/

theorem mem_of_mem_trimHits {hits : Hits} {config : ManagedContextConfig}
    {entry : Text × ManagedPageHit} (among : entry ∈ trimHits hits config) : entry ∈ hits :=
  (sortBy_perm hitLe hits).mem_iff.mp ((takeLimit_sublist _ _).subset among)

theorem nodup_trimHits {hits : Hits} (distinct : (hits.map Prod.fst).Nodup)
    (config : ManagedContextConfig) : ((trimHits hits config).map Prod.fst).Nodup :=
  (((sortBy_perm hitLe hits).map Prod.fst).nodup_iff.mpr distinct).sublist
    ((takeLimit_sublist _ _).map Prod.fst)

theorem length_trimHits (hits : Hits) (config : ManagedContextConfig) :
    (trimHits hits config).length =
      if 0 ≤ config.maxHitEntries then min config.maxHitEntries.toNat hits.length
      else hits.length - config.maxHitEntries.natAbs := by
  have sorted : (sortBy hitLe hits).length = hits.length := (sortBy_perm hitLe hits).length_eq
  unfold trimHits takeLimit
  split <;> simp [sorted]

/-- Hits that are not too many are only put in another order. -/
theorem trimHits_perm {hits : Hits} {config : ManagedContextConfig}
    (kept : (trimHits hits config).length = hits.length) : (trimHits hits config).Perm hits := by
  have whole : trimHits hits config = sortBy hitLe hits := by
    apply (takeLimit_sublist _ _).eq_of_length
    rw [(sortBy_perm hitLe hits).length_eq]
    exact kept
  rw [whole]
  exact sortBy_perm hitLe hits

/-! ## What updates keep -/

section Updates

variable [Hashing] [Numbers]

/-- A time that is read as the clock, or as it was written. -/
def Settled (now time : ℚ) : Prop := time = now ∨ roundRat 6 time = time ∧ time ≠ 0

omit [Hashing] [Numbers] in
theorem settled_rereadTime (now time : ℚ) : Settled now (rereadTime now time) := by
  unfold rereadTime
  split
  next => exact Or.inl rfl
  next other => exact Or.inr ⟨roundRat_roundRat 6 time, other⟩

omit [Hashing] [Numbers] in
theorem round_rereadTime {now time : ℚ} (settled : Settled now time) :
    roundRat 6 (rereadTime now time) = roundRat 6 time := by
  unfold rereadTime
  split
  next zero =>
    rcases settled with rfl | ⟨rounded, other⟩
    · rfl
    · exact absurd (rounded.symm.trans zero) other
  next => exact roundRat_roundRat 6 time

omit [Hashing] [Numbers] in
theorem rereadTime_mono {now first second : ℚ} (firstSettled : Settled now first)
    (secondSettled : Settled now second) (ordered : first ≤ second) :
    rereadTime now first ≤ rereadTime now second := by
  unfold rereadTime
  by_cases firstZero : roundRat 6 first = 0 <;> by_cases secondZero : roundRat 6 second = 0
  · simp [firstZero, secondZero]
  · rw [if_pos firstZero, if_neg secondZero]
    rcases firstSettled with rfl | ⟨rounded, other⟩
    · rcases secondSettled with rfl | ⟨rounded, -⟩
      · exact absurd firstZero secondZero
      · rwa [rounded]
    · exact absurd (rounded.symm.trans firstZero) other
  · rw [if_neg firstZero, if_pos secondZero]
    rcases secondSettled with rfl | ⟨rounded, other⟩
    · rcases firstSettled with rfl | ⟨rounded, -⟩
      · exact absurd secondZero firstZero
      · rwa [rounded]
    · exact absurd (rounded.symm.trans secondZero) other
  · rw [if_neg firstZero, if_neg secondZero]
    exact roundRat_mono 6 ordered

/-- What holds of a record at a clock value, read or about to be written. -/
structure RecordInvariant (now : ℚ) (record : ManagedContextRecord) : Prop where
  generation : 1 ≤ record.generation
  ordered : record.createdAt ≤ record.updatedAt
  created : Settled now record.createdAt
  updated : Settled now record.updatedAt
  distinct : (record.hits.map Prod.fst).Nodup
  keyed : ∀ entry ∈ record.hits, Text.startsWith entry.1 "pk_" = true

omit [Hashing] in
theorem mem_lastingEntries {config : ManagedContextConfig} {now : ℚ} {hits : Hits}
    {entry : Text × ManagedPageHit} :
    entry ∈ lastingEntries config now hits ↔ entry ∈ hits ∧ Lasts config now entry := by
  simp [lastingEntries]

omit [Hashing] in
theorem rereadHits_of_distinct {hits : Hits} (distinct : (hits.map Prod.fst).Nodup)
    (config : ManagedContextConfig) (now : ℚ) :
    rereadHits config now hits = (lastingEntries config now hits).map (rereadEntry config) := by
  apply Keyed.update_nil
  have names : ((lastingEntries config now hits).map (rereadEntry config)).map Prod.fst =
      (lastingEntries config now hits).map Prod.fst := by
    simp [rereadEntry, Function.comp_def]
  rw [names]
  exact (((sortBy_perm pageKeyLe hits).map Prod.fst).nodup_iff.mpr distinct).sublist
    ((List.filter_sublist).map Prod.fst)

variable [Json.FloatRepr PyFloat]

theorem read_invariant {record current : ManagedContextRecord} {config : ManagedContextConfig}
    {now : ℚ}
    (found : read record.scope config now false (some (fileText record)) = .value current) :
    RecordInvariant now current := by
  by_cases fits : utf8Length (fileText record) ≤ recordReadMaxBytes
  · rw [read_fileText config now fits] at found
    split at found
    · cases found
    next valid =>
      obtain rfl := Conversion.value.inj found
      obtain ⟨generation, ordered⟩ := not_or.mp valid
      refine ⟨not_lt.mp generation, not_lt.mp ordered, settled_rereadTime _ _,
        settled_rereadTime _ _, ?_, ?_⟩
      · exact nodup_trimHits (Keyed.nodup_map_fst_update (by simp)) config
      · intro entry among
        have key : entry.1 ∈ (rereadHits config now record.hits).map Prod.fst :=
          List.mem_map_of_mem (mem_of_mem_trimHits among)
        rcases Keyed.mem_map_fst_update.mp key with absent | among
        · cases absent
        · obtain ⟨reread, rereadIn, same⟩ := List.mem_map.mp among
          obtain ⟨kept, keptIn, rfl⟩ := List.mem_map.mp rereadIn
          obtain ⟨-, -, -, isKey, -⟩ := mem_lastingEntries.mp keptIn
          exact same ▸ isKey
  · simp [read_tooLarge _ config now (not_le.mp fits)] at found

omit [Hashing] [Numbers] [Json.FloatRepr PyFloat] in
theorem foldl_addHit {config : ManagedContextConfig} {now : ℚ} {pageKeys : List Text}
    {hits : Hits} (distinct : (hits.map Prod.fst).Nodup) :
    ((pageKeys.foldl (addHit config now) hits).map Prod.fst).Nodup ∧
      ∀ entry ∈ pageKeys.foldl (addHit config now) hits,
        entry ∈ hits ∨ entry.1 ∈ pageKeys ∧ ∃ counter, entry.2 = ⟨cappedCounter config counter, now⟩ := by
  induction pageKeys generalizing hits with
  | nil => exact ⟨distinct, fun entry among => Or.inl among⟩
  | cons pageKey rest inductionHypothesis =>
      have added : ((addHit config now hits pageKey).map Prod.fst).Nodup :=
        Keyed.nodup_map_fst_set distinct _ _
      obtain ⟨nodup, entries⟩ := inductionHypothesis added
      refine ⟨nodup, ?_⟩
      intro entry among
      rcases entries entry among with earlier | ⟨key, counter, new⟩
      · rcases Keyed.mem_set earlier with rfl | old
        · exact Or.inr ⟨List.mem_cons_self, _, rfl⟩
        · exact Or.inl old
      · exact Or.inr ⟨List.mem_cons_of_mem _ key, counter, new⟩

omit [Hashing] [Json.FloatRepr PyFloat] in
theorem decayedHits_entries {hits : Hits} (distinct : (hits.map Prod.fst).Nodup)
    (config : ManagedContextConfig) (now : ℚ) :
    ((decayedHits hits config now).map Prod.fst).Nodup ∧
      ∀ entry ∈ decayedHits hits config now, entry.1 ∈ hits.map Prod.fst ∧
        ∃ counter, entry.2 = ⟨cappedCounter config counter, now⟩ := by
  refine ⟨?_, ?_⟩
  · apply nodup_trimHits
    refine List.Nodup.sublist ?_ distinct
    clear distinct
    induction hits with
    | nil => exact .slnil
    | cons entry hits inductionHypothesis =>
        simp only [List.filterMap_cons, List.map_cons]
        split
        next dropped =>
          split at dropped
          · exact inductionHypothesis.cons _
          · cases dropped
        next kept =>
          split at kept
          · cases kept
          · obtain rfl := Option.some.inj kept
            exact inductionHypothesis.cons_cons _
  · intro entry among
    obtain ⟨old, oldIn, kept⟩ := List.mem_filterMap.mp (mem_of_mem_trimHits among)
    dsimp only at kept
    split at kept
    · cases kept
    · obtain rfl := Option.some.inj kept
      exact ⟨List.mem_map.mpr ⟨old, oldIn, rfl⟩, _, rfl⟩

omit [Hashing] [Json.FloatRepr PyFloat] in
/-- What an update writes keeps the invariant, and its counters are cut. -/
theorem updatedRecord_invariant {scope : ManagedContextScope} {pageKeys : List Text}
    {config : ManagedContextConfig} {now : ℚ} {current : Option ManagedContextRecord}
    (invariant : ∀ record, current = some record → RecordInvariant now record)
    (keys : ∀ key ∈ pageKeys, Text.startsWith key "pk_" = true) :
    RecordInvariant now (updatedRecord scope pageKeys config now current) ∧
      (∀ entry ∈ (updatedRecord scope pageKeys config now current).hits,
        ∃ counter, entry.2.counter = cappedCounter config counter) := by
  have hits : ∀ (before : Hits) (effectiveNow : ℚ), (before.map Prod.fst).Nodup →
      (∀ entry ∈ before, Text.startsWith entry.1 "pk_" = true) →
      ((trimHits ((uniqueTokens pageKeys).foldl (addHit config effectiveNow)
          (decayedHits before config effectiveNow)) config).map Prod.fst).Nodup ∧
        ∀ entry ∈ trimHits ((uniqueTokens pageKeys).foldl (addHit config effectiveNow)
            (decayedHits before config effectiveNow)) config,
          Text.startsWith entry.1 "pk_" = true ∧
            ∃ counter, entry.2.counter = cappedCounter config counter := by
    intro before effectiveNow distinct keyed
    obtain ⟨decayedDistinct, decayedEntries⟩ := decayedHits_entries distinct config effectiveNow
    obtain ⟨addedDistinct, addedEntries⟩ :=
      @foldl_addHit config effectiveNow (uniqueTokens pageKeys) _ decayedDistinct
    refine ⟨nodup_trimHits addedDistinct config, ?_⟩
    intro entry among
    rcases addedEntries entry (mem_of_mem_trimHits among) with old | ⟨key, counter, new⟩
    · obtain ⟨key, counter, same⟩ := decayedEntries entry old
      obtain ⟨earlier, earlierIn, sameKey⟩ := List.mem_map.mp key
      exact ⟨sameKey ▸ keyed earlier earlierIn, counter, by rw [same]⟩
    · have among : entry.1 ∈ pageKeys := by simpa [uniqueTokens] using key
      exact ⟨keys _ among, counter, by rw [new]⟩
  cases current with
  | none =>
      obtain ⟨distinct, entries⟩ := hits [] now (by simp) (by simp)
      exact ⟨⟨le_refl 1, le_refl now, Or.inl rfl, Or.inl rfl, distinct,
        fun entry among => (entries entry among).1⟩, fun entry among => (entries entry among).2⟩
  | some record =>
      have before := invariant record rfl
      obtain ⟨distinct, entries⟩ := hits record.hits
        (if now < record.updatedAt then record.updatedAt else now) before.distinct before.keyed
      refine ⟨⟨?_, ?_, before.created, ?_, distinct, fun entry among => (entries entry among).1⟩,
        fun entry among => (entries entry among).2⟩
      · have earlier := before.generation
        simp only [updatedRecord, Option.map_some, Option.getD_some]
        omega
      · simp only [updatedRecord, Option.map_some, Option.getD_some]
        split
        · exact before.ordered
        next late => exact before.ordered.trans (not_lt.mp late)
      · simp only [updatedRecord]
        split
        · exact before.updated
        · exact Or.inl rfl

end Updates

/-! ## Reading what was written -/

section ReadsBack

variable [Hashing] [Numbers] [Json.FloatRepr PyFloat]

/-- Equal up to rounding to six decimals. -/
def HitAlike (first second : ManagedPageHit) : Prop :=
  first.counter.round = second.counter.round ∧
    roundRat 6 first.lastHitAt = roundRat 6 second.lastHitAt

/-- The record is read back from its file at the clock value, up to rounding. -/
def ReadsBack (config : ManagedContextConfig) (now : ℚ) (record : ManagedContextRecord) : Prop :=
  ∃ back, read record.scope config now false (some (fileText record)) = .value back ∧
    back.generation = record.generation ∧
    roundRat 6 back.createdAt = roundRat 6 record.createdAt ∧
    roundRat 6 back.updatedAt = roundRat 6 record.updatedAt ∧
    ∀ pageKey, Option.Rel HitAlike (Keyed.get? back.hits pageKey) (Keyed.get? record.hits pageKey)

/-- The file of the record is small enough, and the reader skips and trims none of its hits. -/
structure Readable (config : ManagedContextConfig) (now : ℚ) (record : ManagedContextRecord) :
    Prop where
  fits : utf8Length (fileText record) ≤ recordReadMaxBytes
  lasts : ∀ entry ∈ record.hits, Lasts config now entry
  limit : 0 ≤ config.maxHitEntries ∨ record.hits = []

omit [Hashing] [Numbers] [Json.FloatRepr PyFloat] in
theorem optionRel_get?_map {relation : ManagedPageHit → ManagedPageHit → Prop}
    {change : Text × ManagedPageHit → Text × ManagedPageHit} {hits : Hits}
    (related : ∀ entry ∈ hits, (change entry).1 = entry.1 ∧ relation (change entry).2 entry.2)
    (pageKey : Text) :
    Option.Rel relation (Keyed.get? (hits.map change) pageKey) (Keyed.get? hits pageKey) := by
  induction hits with
  | nil => exact .none
  | cons entry hits inductionHypothesis =>
      obtain ⟨sameKey, alike⟩ := related entry List.mem_cons_self
      have later := inductionHypothesis fun other among => related other (List.mem_cons_of_mem _ among)
      by_cases here : entry.1 = pageKey
      · simpa [Keyed.get?, sameKey, here] using Option.Rel.some alike
      · simpa [Keyed.get?, sameKey, here] using later

/-- A record of the invariant whose counters are cut is read back exactly when it is readable. -/
theorem readsBack_iff {config : ManagedContextConfig} {now : ℚ} {record : ManagedContextRecord}
    (invariant : RecordInvariant now record)
    (cut : ∀ entry ∈ record.hits, ∃ counter, entry.2.counter = cappedCounter config counter)
    (trimmed : 0 ≤ config.maxHitEntries → record.hits.length ≤ config.maxHitEntries.toNat) :
    ReadsBack config now record ↔ Readable config now record := by
  have reread := rereadHits_of_distinct invariant.distinct config now
  constructor
  · rintro ⟨back, found, -, -, -, alike⟩
    have fits : utf8Length (fileText record) ≤ recordReadMaxBytes := by
      by_contra large
      simp [read_tooLarge _ config now (not_le.mp large)] at found
    rw [read_fileText config now fits] at found
    split at found
    · cases found
    obtain rfl := Conversion.value.inj found
    have kept : ∀ entry ∈ record.hits,
        entry.1 ∈ (trimHits (rereadHits config now record.hits) config).map Prod.fst := by
      intro entry among
      have stored := Keyed.get?_of_mem invariant.distinct among
      have related := alike entry.1
      rw [stored] at related
      apply Keyed.get?_isSome_iff.mp
      generalize Keyed.get? (trimHits (rereadHits config now record.hits) config) entry.1 = backHit
        at related ⊢
      cases related
      rfl
    have lasts : ∀ entry ∈ record.hits, Lasts config now entry := by
      intro entry among
      obtain ⟨back, backIn, sameKey⟩ := List.mem_map.mp (kept entry among)
      rw [reread] at backIn
      obtain ⟨old, oldIn, rfl⟩ := List.mem_map.mp (mem_of_mem_trimHits backIn)
      obtain ⟨oldAmong, oldLasts⟩ := mem_lastingEntries.mp oldIn
      obtain rfl := List.inj_on_of_nodup_map invariant.distinct oldAmong among sameKey
      exact oldLasts
    refine ⟨fits, lasts, ?_⟩
    by_contra neither
    obtain ⟨negative, nonempty⟩ := not_or.mp neither
    -- The reader drops entries again, so that it has fewer keys than the record.
    have fewer := length_trimHits (rereadHits config now record.hits) config
    rw [if_neg negative, reread, List.length_map] at fewer
    have sub : (lastingEntries config now record.hits).length ≤ record.hits.length := by
      rw [← (sortBy_perm pageKeyLe record.hits).length_eq]
      exact List.length_filter_le _ _
    have many : record.hits.length ≤
        (trimHits (rereadHits config now record.hits) config).length := by
      have subset : (record.hits.map Prod.fst).Subperm
          ((trimHits (rereadHits config now record.hits) config).map Prod.fst) := by
        apply List.subperm_of_subset invariant.distinct
        intro key among
        obtain ⟨entry, entryIn, rfl⟩ := List.mem_map.mp among
        exact kept entry entryIn
      simpa using subset.length_le
    have some_ := List.length_pos_iff.mpr nonempty
    rw [reread] at many
    omega
  · intro readable
    have all : (lastingEntries config now record.hits) = sortBy pageKeyLe record.hits := by
      apply List.filter_eq_self.mpr
      intro entry among
      simpa using readable.lasts entry ((sortBy_perm pageKeyLe record.hits).mem_iff.mp among)
    have listed : rereadHits config now record.hits =
        (sortBy pageKeyLe record.hits).map (rereadEntry config) := by rw [reread, all]
    have size : (rereadHits config now record.hits).length = record.hits.length := by
      rw [listed, List.length_map, (sortBy_perm pageKeyLe record.hits).length_eq]
    have whole : (trimHits (rereadHits config now record.hits) config).length =
        (rereadHits config now record.hits).length := by
      rw [length_trimHits]
      rcases readable.limit with nonnegative | nothing
      · rw [if_pos nonnegative, size]
        exact Nat.min_eq_right (trimmed nonnegative)
      · have none_ : (rereadHits config now record.hits).length = 0 := by
          rw [size, nothing]
          rfl
        rw [none_]
        split <;> simp
    refine ⟨_, (read_fileText config now readable.fits).trans (if_neg ?_), rfl,
      round_rereadTime invariant.created, round_rereadTime invariant.updated, ?_⟩
    · rintro (none_ | backwards)
      · exact absurd invariant.generation (not_le.mpr none_)
      · exact absurd (rereadTime_mono invariant.created invariant.updated invariant.ordered)
          (not_le.mpr backwards)
    · intro pageKey
      have order : (trimHits (rereadHits config now record.hits) config).Perm
          (record.hits.map (rereadEntry config)) := by
        refine (trimHits_perm whole).trans ?_
        rw [listed]
        exact (sortBy_perm pageKeyLe record.hits).map _
      have names : (record.hits.map (rereadEntry config)).map Prod.fst =
          record.hits.map Prod.fst := by
        simp [rereadEntry, Function.comp_def]
      rw [← Keyed.get?_of_perm order.symm (names ▸ invariant.distinct)]
      apply optionRel_get?_map
      intro entry among
      obtain ⟨value, rounded, -⟩ := readable.lasts entry among
      obtain ⟨counter, capped⟩ := cut entry among
      have same : entry.2.counter = .finite value := by
        rw [← rounded, capped, cappedCounter, round_round]
      have settled : (PyFloat.finite value).round = .finite value := by rw [← rounded, round_round]
      refine ⟨rfl, ?_, roundRat_roundRat 6 _⟩
      rw [rereadEntry, rounded, cappedCounter_capped (capped.symm.trans same)]
      exact settled

inductive FileEvent where
  /-- An `update_hits` that holds the lock; the file stays where the reader raises. -/
  | update (config : ManagedContextConfig) (pageKeys : List Text) (now : ℚ)
  /-- The file is removed by something else. -/
  | remove

def fileStep (scope : ManagedContextScope) (file : Option Text) : FileEvent → Option (Option Text)
  | .update config pageKeys now =>
      if pageKeys = [] ∨ (pageKeys.any fun key => !Text.startsWith key "pk_") = true then none
      else some (((updateHits scope pageKeys config now file).map fileText).or file)
  | .remove => some none

def IsRecordFile (scope : ManagedContextScope) (file : Option Text) : Prop :=
  file = none ∨ ∃ record, record.scope = scope ∧ file = some (fileText record)

theorem updateHits_scope {scope : ManagedContextScope} {pageKeys : List Text}
    {config : ManagedContextConfig} {now : ℚ} {file : Option Text} {record : ManagedContextRecord}
    (planned : updateHits scope pageKeys config now file = some record) : record.scope = scope := by
  unfold updateHits at planned
  split at planned <;> cases planned <;> rfl

theorem reachable_file {scope : ManagedContextScope} {file : Option Text}
    (reached : Reachable (fileStep scope) none file) : IsRecordFile scope file := by
  refine @ReachableVia.invariant _ _ _ _ _ _ (IsRecordFile scope) reached (Or.inl rfl) ?_
  intro before event after held _ stepped
  cases event with
  | update config pageKeys now =>
      simp only [fileStep] at stepped
      split at stepped
      · cases stepped
      · obtain rfl := Option.some.inj stepped
        cases planned : updateHits scope pageKeys config now before with
        | none => exact held
        | some record => exact Or.inr ⟨record, updateHits_scope planned, rfl⟩
  | remove => exact Or.inl (Option.some.inj stepped).symm

omit [Hashing] [Json.FloatRepr PyFloat] in
theorem length_updatedRecord (scope : ManagedContextScope) (pageKeys : List Text)
    {config : ManagedContextConfig} (now : ℚ) (current : Option ManagedContextRecord)
    (nonnegative : 0 ≤ config.maxHitEntries) :
    (updatedRecord scope pageKeys config now current).hits.length ≤
      config.maxHitEntries.toNat := by
  simp only [updatedRecord, length_trimHits, if_pos nonnegative]
  exact Nat.min_le_left _ _

end ReadsBack

section Sample

/-- The text of a float: its numerator and, after the point, one less than its denominator. -/
def sampleRepr : PyFloat → Text
  | .finite value => Json.intToken value.num ++ '.' :: Nat.toDigits 10 (value.den - 1)
  | .inf => "Infinity"
  | .negInf => "-Infinity"
  | .nan => "NaN"

def sampleParse (text : Text) : Option PyFloat :=
  if text = "Infinity" then some .inf
  else if text = "-Infinity" then some .negInf
  else if text = "NaN" then some .nan
  else
    (Json.readInt (text.takeWhile (· ≠ '.'))).map fun numerator =>
      .finite (mkRat numerator (Nat.ofDigitChars 10 ((text.dropWhile (· ≠ '.')).drop 1) 0 + 1))

theorem sampleRepr_finite (value : ℚ) :
    (sampleRepr (.finite value)).takeWhile (· ≠ '.') = Json.intToken value.num ∧
      (sampleRepr (.finite value)).dropWhile (· ≠ '.') =
        '.' :: Nat.toDigits 10 (value.den - 1) := by
  have noPoint : ∀ char ∈ Json.intToken value.num, decide (char ≠ '.') = true := by
    intro char among
    rcases Json.intToken_chars _ char among with digit | rfl
    · simp only [ne_eq, decide_eq_true_eq]
      rintro rfl
      exact absurd digit (by decide)
    · decide
  unfold sampleRepr
  rw [List.takeWhile_append_of_pos noPoint, List.dropWhile_append_of_pos noPoint]
  simp

theorem point_mem_sampleRepr (value : ℚ) : '.' ∈ sampleRepr (.finite value) := by
  unfold sampleRepr
  exact List.mem_append_right _ List.mem_cons_self

theorem sampleParse_repr (value : PyFloat) : sampleParse (sampleRepr value) = some value := by
  cases value with
  | finite value =>
      obtain ⟨before, after⟩ := sampleRepr_finite value
      have other : ∀ word : Text, '.' ∉ word → sampleRepr (.finite value) ≠ word := by
        rintro word plain rfl
        exact plain (point_mem_sampleRepr value)
      have denominator : value.den - 1 + 1 = value.den := Nat.succ_pred_eq_of_pos value.pos
      unfold sampleParse
      rw [if_neg (other _ (by decide)), if_neg (other _ (by decide)), if_neg (other _ (by decide)),
        before, after, Json.readInt_intToken, Option.map_some, List.drop_one, List.tail_cons,
        Nat.ofDigitChars_ten_toDigits, denominator, Rat.mkRat_self]
  | inf => rfl
  | negInf => rfl
  | nan => rfl

theorem isFloatToken_sampleRepr (value : PyFloat) :
    Json.isFloatToken (sampleRepr value) = true := by
  cases value with
  | finite value =>
      have digits : (Nat.toDigits 10 (value.den - 1)).all Json.isTokenChar = true :=
        Json.intToken_all (.ofNat (value.den - 1))
      have dot : Json.isTokenChar '.' = true := by decide
      have chars : (sampleRepr (.finite value)).all Json.isTokenChar = true := by
        unfold sampleRepr
        simp only [List.all_append, List.all_cons, Json.intToken_all, digits, dot, Bool.and_true]
      have point : (sampleRepr (.finite value)).any (fun char => char = '.' || char = 'e') = true :=
        List.any_eq_true.mpr ⟨'.', point_mem_sampleRepr value, by decide⟩
      have first : (sampleRepr (.finite value)).head?.any
          (fun char => char.isDigit || char = '-') = true := by
        obtain ⟨char, rest, shape⟩ := List.exists_cons_of_ne_nil (Json.intToken_ne_nil value.num)
        have head := Json.intToken_chars value.num char (shape ▸ List.mem_cons_self)
        rw [show sampleRepr (.finite value) = Json.intToken value.num ++ '.' ::
          Nat.toDigits 10 (value.den - 1) from rfl, shape, List.cons_append, List.head?_cons,
          Option.any_some]
        simpa using head
      simp only [Json.isFloatToken, chars, point, first, Bool.and_true, Bool.true_or]
  | inf => decide
  | negInf => decide
  | nan => decide

@[reducible]
def sampleFloats : Json.FloatRepr PyFloat where
  repr := sampleRepr
  parse := sampleParse
  isToken := isFloatToken_sampleRepr
  parse_repr := sampleParse_repr

/-- Counters that do not decay. -/
@[reducible]
def sampleNumbers : Numbers where
  halfPower _ := 1
  floatOfText _ := none
  intOfText _ := none

attribute [local instance] Unicode.ascii Hashing.transparent sampleFloats sampleNumbers

def sampleScope : ManagedContextScope where
  namespace_ := "default"
  sourceId := "wiki"
  adapterKind := "generic-markdown"
  projectionSignatureDigest := "sha256:1"
  sourceSignatureDigest := "sha256:2"

end Sample

end LlmWikiServe.ManagedContext
