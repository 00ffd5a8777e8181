import LlmWikiServe.Foundation.Transition
import LlmWikiServe.IndexService

/-!
# Failed rebuilds leave the served state intact

A call that raises changes nothing that is served, what is served comes from one
publication, and a call that is due serves the published snapshot again only when its
own scan finds the published signatures.
-/

namespace LlmWikiServe

open Transition

section Recovery

variable [Hashing] {Failure : Type} {config : IndexConfig}

/-! ## What one call can do -/

/-- Both states serve the same publication. -/
structure IndexState.SamePublished (first second : IndexState) : Prop where
  index : first.index = second.index
  signature : first.signature = second.signature
  projectionSignature : first.projectionSignature = second.projectionSignature
  freshnessSignature : first.freshnessSignature = second.freshnessSignature
  retrievalSnapshot : first.retrievalSnapshot = second.retrievalSnapshot

omit [Hashing] in
theorem IndexState.SamePublished.trans {first second third : IndexState}
    (left : first.SamePublished second) (right : second.SamePublished third) :
    first.SamePublished third :=
  ⟨left.index.trans right.index, left.signature.trans right.signature,
    left.projectionSignature.trans right.projectionSignature,
    left.freshnessSignature.trans right.freshnessSignature,
    left.retrievalSnapshot.trans right.retrievalSnapshot⟩

/-- What is served was set by one publication. -/
def IndexState.FromOnePublish (state : IndexState) : Prop :=
  ∃ index snapshot digest earlier,
    state.SamePublished (publishIndexSnapshot index snapshot digest earlier)

/-- Nothing is served yet. -/
structure IndexState.Unpublished (state : IndexState) : Prop where
  index : state.index = none
  signature : state.signature = none
  projectionSignature : state.projectionSignature = none
  freshnessSignature : state.freshnessSignature = none
  retrievalSnapshot : state.retrievalSnapshot = none

/-- The published index, or a new one, after a check. -/
inductive CheckOutcome (config : IndexConfig) (call : IndexCall Failure) (refresh : Bool)
    (snapshot : SourceSignatureSnapshot) (state : IndexState) :
    IndexResult Failure × IndexState → Prop where
  | failed (stage : IndexStage) (failure : Failure) (later : stage ≠ .signature) :
      CheckOutcome config call refresh snapshot state (.raised stage failure, state)
  | rebuilt (index : WikiIndex) (digest : Text) (shown : RetrievalSnapshot) :
      CheckOutcome config call refresh snapshot state
        (.rebuilt shown,
          markChecked config call.clockAtEnd (publishIndexSnapshot index snapshot digest state))
  | unchanged (shown : RetrievalSnapshot) (after : IndexState)
      (kept : refresh = false) (current : matchesPublished state snapshot = true)
      (published : after = state ∨
        ∃ index digest, after = publishIndexSnapshot index snapshot digest state) :
      CheckOutcome config call refresh snapshot state
        (.unchanged shown, markChecked config call.clockAtEnd after)

omit [Hashing] in
theorem rebuildRecord_stage {call : IndexCall Failure} {refresh : Bool} {digest : Text}
    {stage : IndexStage} {failure : Failure}
    (failed : rebuildRecord config call refresh digest = .error (stage, failure)) :
    stage ≠ .signature := by
  rintro rfl
  unfold rebuildRecord at failed
  dsimp only at failed
  split at failed
  · simp at failed
  · split at failed
    · simp at failed
    · simp at failed
    · split at failed
      · simp at failed
      · split at failed
        · simp at failed
        · split at failed
          · simp at failed
          · simp at failed

theorem checkSnapshot_outcome (config : IndexConfig) (call : IndexCall Failure) (refresh : Bool)
    (snapshot : SourceSignatureSnapshot) (state : IndexState) :
    CheckOutcome config call refresh snapshot state
      (checkSnapshot config call refresh snapshot state) := by
  unfold checkSnapshot
  dsimp only
  split
  next index published _ =>
    split
    next changed =>
      split
      next stage failure failed => exact .failed stage failure (rebuildRecord_stage failed)
      next record _ => exact .rebuilt record.index _ _
    next same =>
      simp only [Bool.or_eq_true, Bool.not_eq_true', not_or, Bool.not_eq_true,
        Bool.not_eq_false] at same
      split
      · exact .unchanged _ _ same.1 same.2 (Or.inr ⟨_, _, rfl⟩)
      · exact .unchanged _ _ same.1 same.2 (Or.inl rfl)
  next =>
    split
    next stage failure failed => exact .failed stage failure (rebuildRecord_stage failed)
    next record _ => exact .rebuilt record.index _ _

theorem indexSnapshotUnlocked_cases (config : IndexConfig) (call : IndexCall Failure)
    (refresh : Bool) (state : IndexState) :
    (∃ shown, indexSnapshotUnlocked config call refresh state = (.reused shown, state) ∧
        canReuseCachedIndex config refresh call.clockAtCheck state = true) ∨
      ∃ kept, (∃ failure, (state.signatureCache.currentSnapshot call.source refresh).1 =
          .error failure ∧
          indexSnapshotUnlocked config call refresh state =
            (.raised .signature failure, { state with signatureCache := kept })) ∨
        ∃ snapshot, (state.signatureCache.currentSnapshot call.source refresh).1 = .ok snapshot ∧
          CheckOutcome config call refresh snapshot { state with signatureCache := kept }
            (indexSnapshotUnlocked config call refresh state) := by
  unfold indexSnapshotUnlocked
  split
  next shown _ reusable => exact Or.inl ⟨shown, rfl, reusable⟩
  next =>
    refine Or.inr ⟨(state.signatureCache.currentSnapshot call.source refresh).2, ?_⟩
    dsimp only
    cases answer : (state.signatureCache.currentSnapshot call.source refresh).1 with
    | error failure => exact Or.inl ⟨failure, rfl, rfl⟩
    | ok snapshot => exact Or.inr ⟨snapshot, rfl, checkSnapshot_outcome _ _ _ _ _⟩

/-! ## What is served -/

omit [Hashing] in
@[simp]
theorem markChecked_samePublished (now : ℚ) (state : IndexState) :
    (markChecked config now state).SamePublished state :=
  ⟨rfl, rfl, rfl, rfl, rfl⟩

omit [Hashing] in
theorem publishIndexSnapshot_fromOnePublish (index : WikiIndex)
    (snapshot : SourceSignatureSnapshot) (digest : Text) (now : ℚ) (state : IndexState) :
    (markChecked config now (publishIndexSnapshot index snapshot digest state)).FromOnePublish :=
  ⟨index, snapshot, digest, state, markChecked_samePublished now _⟩

omit [Hashing] in
theorem IndexState.SamePublished.fromOnePublish {state after : IndexState}
    (same : after.SamePublished state) (published : state.FromOnePublish) :
    after.FromOnePublish := by
  rcases published with ⟨index, snapshot, digest, earlier, fields⟩
  exact ⟨index, snapshot, digest, earlier, same.trans fields⟩

/-- After a call the state serves what it served before, or one new publication. -/
theorem indexSnapshot_published (config : IndexConfig) (call : IndexCall Failure)
    (before : IndexState) :
    (indexSnapshot config call before).2.SamePublished before ∨
      (indexSnapshot config call before).2.FromOnePublish := by
  have unlocked : ∀ refresh,
      (indexSnapshotUnlocked config call refresh (before.arrive call)).2.SamePublished before ∨
        (indexSnapshotUnlocked config call refresh (before.arrive call)).2.FromOnePublish := by
    intro refresh
    rcases indexSnapshotUnlocked_cases config call refresh (before.arrive call) with
      ⟨shown, result, _⟩ | ⟨kept, ⟨failure, _, result⟩ | ⟨snapshot, _, outcome⟩⟩
    · rw [result]
      exact Or.inl ⟨rfl, rfl, rfl, rfl, rfl⟩
    · rw [result]
      exact Or.inl ⟨rfl, rfl, rfl, rfl, rfl⟩
    · generalize indexSnapshotUnlocked config call refresh (before.arrive call) = result at outcome
      cases outcome with
      | failed stage failure later => exact Or.inl ⟨rfl, rfl, rfl, rfl, rfl⟩
      | rebuilt index digest shown =>
          exact Or.inr (publishIndexSnapshot_fromOnePublish _ _ _ _ _)
      | unchanged shown after kept current published =>
          rcases published with rfl | ⟨index, digest, rfl⟩
          · exact Or.inl ⟨rfl, rfl, rfl, rfl, rfl⟩
          · exact Or.inr (publishIndexSnapshot_fromOnePublish _ _ _ _ _)
  have step := unlocked (call.refresh || gitMoved config (before.arrive call))
  unfold indexSnapshot
  dsimp only
  generalize indexSnapshotUnlocked config call
    (call.refresh || gitMoved config (before.arrive call)) (before.arrive call) = outcome at step
  rcases outcome with ⟨result, after⟩
  rcases step with same | ⟨index, snapshot, digest, earlier, fields⟩
  · left
    cases result <;> exact ⟨same.index, same.signature, same.projectionSignature,
      same.freshnessSignature, same.retrievalSnapshot⟩
  · right
    refine ⟨index, snapshot, digest, earlier, ?_⟩
    cases result <;> exact ⟨fields.index, fields.signature, fields.projectionSignature,
      fields.freshnessSignature, fields.retrievalSnapshot⟩

/-- Below the bookkeeping of a call, the generations stay as they are. -/
theorem indexSnapshotUnlocked_generations (config : IndexConfig) (call : IndexCall Failure)
    (refresh : Bool) (state : IndexState) :
    (indexSnapshotUnlocked config call refresh state).2.gitGeneration = state.gitGeneration ∧
      (indexSnapshotUnlocked config call refresh state).2.gitGenerationSeen =
        state.gitGenerationSeen := by
  rcases indexSnapshotUnlocked_cases config call refresh state with
    ⟨shown, result, _⟩ | ⟨kept, ⟨failure, _, result⟩ | ⟨snapshot, _, outcome⟩⟩
  · rw [result]
    exact ⟨rfl, rfl⟩
  · rw [result]
    exact ⟨rfl, rfl⟩
  · generalize indexSnapshotUnlocked config call refresh state = result at outcome
    cases outcome with
    | failed stage failure later => exact ⟨rfl, rfl⟩
    | rebuilt index digest shown => exact ⟨rfl, rfl⟩
    | unchanged shown after kept current published =>
        rcases published with rfl | ⟨index, digest, rfl⟩ <;> exact ⟨rfl, rfl⟩

/-- A call sees the generation it found or none newer than before. -/
theorem indexSnapshot_generations (config : IndexConfig) (call : IndexCall Failure)
    (before : IndexState) :
    (indexSnapshot config call before).2.gitGeneration = (before.arrive call).gitGeneration ∧
      ((indexSnapshot config call before).2.gitGenerationSeen = before.gitGenerationSeen ∨
        (indexSnapshot config call before).2.gitGenerationSeen =
          readGeneration config (before.arrive call)) := by
  have unlocked := indexSnapshotUnlocked_generations config call
    (call.refresh || gitMoved config (before.arrive call)) (before.arrive call)
  unfold indexSnapshot
  dsimp only
  split
  next stage failure after shape =>
    rw [shape] at unlocked
    exact ⟨unlocked.1, Or.inl unlocked.2⟩
  next result after _ shape =>
    rw [shape] at unlocked
    exact ⟨unlocked.1, Or.inr rfl⟩

/-! ## Calls that publish nothing -/

theorem indexSnapshot_raised {call : IndexCall Failure} {before : IndexState}
    (raised : (indexSnapshot config call before).1.isRaised = true) :
    ∃ kept, (indexSnapshot config call before).2 =
      { before.arrive call with signatureCache := kept } := by
  have cases := indexSnapshotUnlocked_cases config call
    (call.refresh || gitMoved config (before.arrive call)) (before.arrive call)
  unfold indexSnapshot at raised ⊢
  dsimp only at raised ⊢
  generalize indexSnapshotUnlocked config call
    (call.refresh || gitMoved config (before.arrive call)) (before.arrive call) = outcome
    at cases raised ⊢
  rcases cases with ⟨shown, rfl, _⟩ | ⟨kept, ⟨failure, _, rfl⟩ | ⟨snapshot, _, outcome⟩⟩
  · simp [IndexResult.isRaised] at raised
  · exact ⟨kept, rfl⟩
  · cases outcome with
    | failed stage failure later => exact ⟨kept, rfl⟩
    | rebuilt index digest shown => simp [IndexResult.isRaised] at raised
    | unchanged shown after kept current published => simp [IndexResult.isRaised] at raised

theorem indexSnapshot_reused {call : IndexCall Failure} {before : IndexState}
    {shown : RetrievalSnapshot} (reused : (indexSnapshot config call before).1 = .reused shown) :
    gitMoved config (before.arrive call) = false ∧
      (indexSnapshot config call before).2 = before.arrive call := by
  have cases := indexSnapshotUnlocked_cases config call
    (call.refresh || gitMoved config (before.arrive call)) (before.arrive call)
  unfold indexSnapshot at reused ⊢
  dsimp only at reused ⊢
  generalize indexSnapshotUnlocked config call
    (call.refresh || gitMoved config (before.arrive call)) (before.arrive call) = outcome
    at cases reused ⊢
  rcases cases with ⟨shown, rfl, reusable⟩ | ⟨kept, ⟨failure, _, rfl⟩ | ⟨snapshot, _, outcome⟩⟩
  · have still : gitMoved config (before.arrive call) = false := by
      by_contra moved
      simp [canReuseCachedIndex, moved] at reusable
    have seen : readGeneration config (before.arrive call) =
        (before.arrive call).gitGenerationSeen := by
      simpa [gitMoved] using still
    exact ⟨still, by simp only [seen]⟩
  · simp at reused
  · cases outcome with
    | failed stage failure later => simp at reused
    | rebuilt index digest shown => simp at reused
    | unchanged shown after kept current published => simp at reused

/-! ## The next due call -/

/-- The call attempted a rebuild: it published one, or failed while looking up or loading. -/
def IndexResult.AttemptsRebuild (result : IndexResult Failure) : Prop :=
  (∃ shown, result = .rebuilt shown) ∨ ∃ stage failure, result = .raised stage failure ∧
    stage ≠ .signature

/-- Whether a call refreshes, by request or because the generation moved. -/
def refreshes (config : IndexConfig) (call : IndexCall Failure) (before : IndexState) : Bool :=
  call.refresh || gitMoved config (before.arrive call)

def Due (config : IndexConfig) (call : IndexCall Failure) (before : IndexState) : Prop :=
  canReuseCachedIndex config (refreshes config call before) call.clockAtCheck
    (before.arrive call) = false

def scanAnswer (config : IndexConfig) (call : IndexCall Failure) (before : IndexState) :
    Except Failure SourceSignatureSnapshot :=
  (before.signatureCache.currentSnapshot call.source (refreshes config call before)).1

/-- A due call raises with its scan, or attempts a rebuild unless it refreshes nothing and finds
the published signatures. -/
theorem indexSnapshot_due {call : IndexCall Failure} {before : IndexState}
    (due : Due config call before) :
    (∀ failure, scanAnswer config call before = .error failure →
        (indexSnapshot config call before).1 = .raised .signature failure) ∧
      ∀ snapshot, scanAnswer config call before = .ok snapshot →
        refreshes config call before = true ∨ matchesPublished before snapshot = false →
        (indexSnapshot config call before).1.AttemptsRebuild := by
  have cases := indexSnapshotUnlocked_cases config call (refreshes config call before)
    (before.arrive call)
  have result : (indexSnapshot config call before).1 =
      (indexSnapshotUnlocked config call (refreshes config call before) (before.arrive call)).1 := by
    unfold indexSnapshot refreshes
    dsimp only
    split <;> simp_all
  have scan : ((before.arrive call).signatureCache.currentSnapshot call.source
      (refreshes config call before)).1 = scanAnswer config call before := rfl
  rw [result]
  generalize indexSnapshotUnlocked config call (refreshes config call before)
    (before.arrive call) = outcome at cases ⊢
  rcases cases with ⟨shown, _, reusable⟩ | ⟨kept, ⟨failure, failed, rfl⟩ | ⟨found, scanned, outcome⟩⟩
  · rw [Due, reusable] at due
    exact absurd due (by simp)
  · rw [scan] at failed
    refine ⟨?_, ?_⟩
    · intro other same
      rw [failed] at same
      rw [Except.error.inj same]
    · intro snapshot same
      rw [failed] at same
      cases same
  · rw [scan] at scanned
    refine ⟨?_, ?_⟩
    · intro failure same
      rw [scanned] at same
      cases same
    · intro snapshot same changed
      rw [scanned] at same
      cases same
      cases outcome with
      | failed stage failure later => exact Or.inr ⟨stage, failure, rfl, later⟩
      | rebuilt index digest shown => exact Or.inl ⟨shown, rfl⟩
      | unchanged shown after kept current published =>
          have matching : matchesPublished before found = true := current
          simp [kept, matching] at changed

/-! ## Runs -/

/-- The service as a transition system, one call after the other. -/
def indexStep (config : IndexConfig) (state : IndexState) (call : IndexCall Failure) :
    Option IndexState :=
  some (indexSnapshot config call state).2

/-- Later states reached by calls that reuse the snapshot because their check is not due. -/
inductive Idles (Failure : Type) (config : IndexConfig) : IndexState → IndexState → Prop where
  | refl (state : IndexState) : Idles Failure config state state
  | step {before after : IndexState} (call : IndexCall Failure) (shown : RetrievalSnapshot)
      (reused : (indexSnapshot config call before).1 = .reused shown)
      (rest : Idles Failure config (indexSnapshot config call before).2 after) :
      Idles Failure config before after

/-- What is published comes from one publication, and no generation is seen before it exists. -/
structure IndexInvariant (config : IndexConfig) (state : IndexState) : Prop where
  published : state.Unpublished ∨ state.FromOnePublish
  seen : state.gitGenerationSeen ≤ readGeneration config state

theorem indexInvariant_step {call : IndexCall Failure} {before : IndexState}
    (invariant : IndexInvariant config before) :
    IndexInvariant config (indexSnapshot config call before).2 where
  published := by
    rcases indexSnapshot_published config call before with same | published
    · rcases invariant.published with unpublished | published
      · exact Or.inl ⟨same.index.trans unpublished.index,
          same.signature.trans unpublished.signature,
          same.projectionSignature.trans unpublished.projectionSignature,
          same.freshnessSignature.trans unpublished.freshnessSignature,
          same.retrievalSnapshot.trans unpublished.retrievalSnapshot⟩
      · exact Or.inr (same.fromOnePublish published)
    · exact Or.inr published
  seen := by
    rcases indexSnapshot_generations config call before with ⟨generation, seen⟩
    have read : readGeneration config (indexSnapshot config call before).2 =
        readGeneration config (before.arrive call) := by
      simp only [readGeneration, generation]
    have advanced : readGeneration config before ≤ readGeneration config (before.arrive call) := by
      unfold readGeneration IndexState.arrive
      split <;> simp
    rw [read]
    rcases seen with same | newest
    · rw [same]
      exact invariant.seen.trans advanced
    · rw [newest]

theorem indexInvariant_of_reachable {cache : SignatureCache} {state : IndexState}
    (reached : Reachable (@indexStep _ Failure config) (IndexState.initial cache) state) :
    IndexInvariant config state := by
  refine reached.invariant ⟨Or.inl ⟨rfl, rfl, rfl, rfl, rfl⟩, Nat.zero_le _⟩ ?_
  intro before call after invariant _ stepped
  rw [← Option.some.inj stepped]
  exact indexInvariant_step invariant

omit [Hashing] in
theorem gitMoved_mono {before after : IndexState} (call : IndexCall Failure)
    (seen : before.gitGenerationSeen ≤ readGeneration config before)
    (moved : gitMoved config before = true)
    (sameSeen : after.gitGenerationSeen = before.gitGenerationSeen)
    (advanced : before.gitGeneration ≤ after.gitGeneration) :
    gitMoved config (after.arrive call) = true := by
  simp only [gitMoved, readGeneration, IndexState.arrive] at *
  split at moved
  · simp_all
    omega
  · simp_all

theorem idles_keeps {before after : IndexState} (idle : Idles Failure config before after) :
    after.SamePublished before ∧ after.gitGenerationSeen = before.gitGenerationSeen ∧
      before.gitGeneration ≤ after.gitGeneration := by
  induction idle with
  | refl state => exact ⟨⟨rfl, rfl, rfl, rfl, rfl⟩, rfl, le_refl _⟩
  | @step before after call shown reused _ inductionHypothesis =>
      rw [(indexSnapshot_reused reused).2] at inductionHypothesis
      rcases inductionHypothesis with ⟨same, seen, advanced⟩
      exact ⟨⟨same.index, same.signature, same.projectionSignature, same.freshnessSignature,
        same.retrievalSnapshot⟩, seen, (Nat.le_add_right _ _).trans advanced⟩

omit [Hashing] in
theorem matchesPublished_congr {first second : IndexState} (same : first.SamePublished second)
    (snapshot : SourceSignatureSnapshot) :
    matchesPublished first snapshot = matchesPublished second snapshot := by
  simp only [matchesPublished, same.signature, same.projectionSignature, same.freshnessSignature]

/-- In every reachable state: a raising call leaves what is served and the seen generation as
they are, what is served comes from one publication, and after a raising call the next due call
raises with its scan or attempts a rebuild, unless its scan finds the published signatures and
the generation had not moved. -/
theorem index_recovers (config : IndexConfig) (cache : SignatureCache) (state : IndexState)
    (reached : Reachable (@indexStep _ Failure config) (IndexState.initial cache) state) :
    (∀ call : IndexCall Failure, (indexSnapshot config call state).1.isRaised = true →
        (indexSnapshot config call state).2.SamePublished state ∧
          (indexSnapshot config call state).2.gitGenerationSeen = state.gitGenerationSeen) ∧
      (state.index.isSome = true → state.FromOnePublish) ∧
      ∀ (call next : IndexCall Failure) (later : IndexState),
        (indexSnapshot config call state).1.isRaised = true →
        Idles Failure config (indexSnapshot config call state).2 later →
        Due config next later →
        (∀ failure, scanAnswer config next later = .error failure →
            (indexSnapshot config next later).1 = .raised .signature failure) ∧
          ∀ snapshot, scanAnswer config next later = .ok snapshot →
            gitMoved config (state.arrive call) = true ∨
              matchesPublished state snapshot = false →
            (indexSnapshot config next later).1.AttemptsRebuild := by
  have invariant := indexInvariant_of_reachable reached
  refine ⟨?_, ?_, ?_⟩
  · intro call raised
    rcases indexSnapshot_raised raised with ⟨kept, same⟩
    rw [same]
    exact ⟨⟨rfl, rfl, rfl, rfl, rfl⟩, rfl⟩
  · intro served
    rcases invariant.published with unpublished | published
    · rw [unpublished.index] at served
      exact absurd served (by simp)
    · exact published
  · intro call next later raised idle due
    rcases indexSnapshot_raised raised with ⟨kept, same⟩
    rw [same] at idle
    rcases idles_keeps idle with ⟨published, seen, advanced⟩
    rcases indexSnapshot_due due with ⟨fails, attempts⟩
    refine ⟨fails, ?_⟩
    intro snapshot scanned cause
    apply attempts snapshot scanned
    rcases cause with moved | changed
    · left
      have seenBefore : (state.arrive call).gitGenerationSeen ≤
          readGeneration config (state.arrive call) := by
        refine invariant.seen.trans ?_
        unfold readGeneration IndexState.arrive
        split <;> simp
      have still := gitMoved_mono next seenBefore moved seen advanced
      simp [refreshes, still]
    · right
      have same : later.SamePublished state := published.trans ⟨rfl, rfl, rfl, rfl, rfl⟩
      rw [matchesPublished_congr same, changed]

end Recovery

section Sample

attribute [local instance] Hashing.transparent

/-- The snapshot of a root that holds one file of the given size. -/
def sizedSnapshot (size : Nat) : SourceSignatureSnapshot where
  signature := [("a.md", 0, size)]
  projectionSignature := []
  paths := []

/-- A call whose scan finds a file of the given size, and whose load may fail. -/
def sizedCall (size : Nat) (load : Except Unit WikiIndex) : IndexCall Unit where
  refresh := false
  fastForwards := 0
  clockAtCheck := 0
  clockAtEnd := 0
  source :=
    { isCurrent := fun snapshot => .ok (snapshot.signature = (sizedSnapshot size).signature)
      rescan := .ok (sizedSnapshot size)
      marker := .ok none }
  cacheSourceId := .ok "wiki"
  get := fun _ => .ok none
  load := load
  cacheSourceIdAfterLoad := .ok "wiki"
  put := fun _ => .ok ()

def sampleIndex : WikiIndex where
  root := ["srv", "wiki"]
  title := "Sample"
  description := []
  pages := []
  nodes := []
  edges := []
  adapter := "generic-markdown"
  implementation := "generic-markdown"
  metadata := []

def sampleConfig : IndexConfig where
  refreshIntervalSeconds := 0
  cacheNamespace := "local"
  gitSync := false

/-- The state after a first successful call. -/
def servingState : IndexState :=
  (indexSnapshot sampleConfig (sizedCall 1 (.ok sampleIndex)) (.initial (.source none))).2

theorem servingState_reachable :
    Reachable (@indexStep _ Unit sampleConfig) (.initial (.source none)) servingState :=
  .tail (sizedCall 1 (.ok sampleIndex)) .refl trivial rfl

theorem servingState_recovers :
    ((indexSnapshot sampleConfig (sizedCall 2 (.error ())) servingState).1.isRaised = true) ∧
      (indexSnapshot sampleConfig (sizedCall 2 (.error ())) servingState).2.SamePublished
        servingState :=
  ⟨rfl, ((index_recovers sampleConfig (.source none) servingState servingState_reachable).1
    (sizedCall 2 (.error ())) rfl).1⟩

/-- A source that returns to its published state after a failed rebuild is not rebuilt. -/
theorem servingState_reverts :
    ¬ ∀ (config : IndexConfig) (cache : SignatureCache) (state : IndexState),
      Reachable (@indexStep _ Unit config) (.initial cache) state →
      ∀ call next : IndexCall Unit, (indexSnapshot config call state).1.isRaised = true →
        (∃ snapshot, scanAnswer config call state = .ok snapshot ∧
          matchesPublished state snapshot = false) →
        Due config next (indexSnapshot config call state).2 →
        (indexSnapshot config next (indexSnapshot config call state).2).1.AttemptsRebuild := by
  intro claimed
  have attempts := claimed sampleConfig (.source none) servingState servingState_reachable
    (sizedCall 2 (.error ())) (sizedCall 1 (.ok sampleIndex)) rfl ⟨sizedSnapshot 2, rfl, rfl⟩ rfl
  have unchanged : ∃ shown, (indexSnapshot sampleConfig (sizedCall 1 (.ok sampleIndex))
      (indexSnapshot sampleConfig (sizedCall 2 (.error ())) servingState).2).1 =
        .unchanged shown := ⟨_, rfl⟩
  rcases unchanged with ⟨shown, same⟩
  rw [same] at attempts
  rcases attempts with ⟨_, rebuilt⟩ | ⟨_, _, raised, _⟩
  · cases rebuilt
  · cases raised

end Sample

end LlmWikiServe
