import LlmWikiServe.RecordRoundTrip

/-!
# Concurrent updates of a managed context record

Threads of several processes call `update_hits` on one scope.  A call takes the lock of its
process, then creates the lock directory; in between it reads, replaces the file and removes the
directory again.  A lock directory that is left behind makes later calls fail.
-/

namespace LlmWikiServe.ManagedContext

open Transition

/-- `SIDECAR_LOCK_TIMEOUT_SECONDS` -/
def lockTimeoutSeconds : ℚ := 30

/-- `SIDECAR_LOCK_STALE_SECONDS` -/
def lockStaleSeconds : ℚ := 1

structure Thread where
  process : Nat
  ident : Nat
  deriving DecidableEq

/-- The arguments of a call. -/
structure Request where
  pageKeys : List Text
  config : ManagedContextConfig
  now : ℚ

/-- Where a thread is in `update_hits`. -/
inductive Phase where
  | idle
  /-- Before `with thread_lock`. -/
  | queued (request : Request)
  /-- In `acquire_directory_lock`, before the parent directory is made. -/
  | entering (request : Request)
  /-- Before `mkdir`. -/
  | trying (request : Request) (deadline : ℚ)
  /-- The directory exists, its age is to be checked. -/
  | refused (request : Request) (deadline : ℚ)
  | waiting (request : Request) (deadline : ℚ)
  /-- The directory is created. -/
  | locked (request : Request)
  /-- The record is computed. -/
  | prepared (request : Request) (record : ManagedContextRecord)
  /-- Before `rmdir`. -/
  | releasing

/-- Between acquire and release. -/
def Phase.isCritical : Phase → Bool
  | .locked _ => true
  | .prepared _ _ => true
  | .releasing => true
  | _ => false

structure LockDirectory where
  creator : Thread
  mtime : ℚ

structure Write where
  request : Request
  record : ManagedContextRecord

structure UpdateState where
  /-- `time.time()` -/
  wall : ℚ
  /-- `time.monotonic()` -/
  monotonic : ℚ
  lock : Option LockDirectory
  /-- The thread that holds the lock of a process. -/
  threadLocks : Nat → Option Thread
  file : Option Text
  phases : Thread → Phase
  /-- All writes so far, which no step looks at. -/
  writes : List Write

inductive UpdateEvent where
  | advance (seconds : ℚ)
  /-- The wall clock is set. -/
  | setWall (wall : ℚ)
  | begin_ (thread : Thread) (request : Request)
  | takeThreadLock (thread : Thread)
  | makeParent (thread : Thread)
  | parentFails (thread : Thread)
  | mkdir (thread : Thread)
  /-- An error other than `FileExistsError`. -/
  | mkdirFails (thread : Thread)
  | checkStale (thread : Thread) (statFails : Bool)
  | checkDeadline (thread : Thread)
  | read (thread : Thread)
  | replace (thread : Thread)
  /-- Anything is raised under the lock before the file is replaced. -/
  | fails (thread : Thread)
  | rmdir (thread : Thread)
  | rmdirFails (thread : Thread)
  /-- The process ends, wherever its threads are. -/
  | die (process : Nat)

namespace UpdateState

def withPhase (state : UpdateState) (thread : Thread) (phase : Phase) : UpdateState :=
  { state with phases := Function.update state.phases thread phase }

/-- The call ends, and the lock of its process is free. -/
def leave (state : UpdateState) (thread : Thread) : UpdateState :=
  { state with
    phases := Function.update state.phases thread .idle
    threadLocks := Function.update state.threadLocks thread.process none }

def lockIsStale (state : UpdateState) : Bool :=
  state.lock.any fun lock => lockStaleSeconds ≤ state.wall - lock.mtime

end UpdateState

section Steps

variable [Hashing] [Numbers] [Json.FloatRepr PyFloat] (scope : ManagedContextScope)

def threadStep (state : UpdateState) (thread : Thread) :
    Phase → UpdateEvent → Option UpdateState
  | .idle, .begin_ _ request =>
      if request.pageKeys = [] then some state else some (state.withPhase thread (.queued request))
  | .queued request, .takeThreadLock _ =>
      match state.threadLocks thread.process with
      | some _ => none
      | none =>
          some ({ state with
            threadLocks := Function.update state.threadLocks thread.process (some thread)
            }.withPhase thread (.entering request))
  | .entering request, .makeParent _ =>
      some (state.withPhase thread (.trying request (state.monotonic + lockTimeoutSeconds)))
  | .entering _, .parentFails _ => some (state.leave thread)
  | .trying request deadline, .mkdir _ =>
      match state.lock with
      | some _ => some (state.withPhase thread (.refused request deadline))
      | none =>
          some ({ state with lock := some (LockDirectory.mk thread state.wall) }.withPhase thread
            (.locked request))
  | .trying request deadline, .mkdirFails _ =>
      some (state.withPhase thread (.waiting request deadline))
  | .refused request deadline, .checkStale _ statFails =>
      if !statFails && state.lockIsStale then some (state.leave thread)
      else some (state.withPhase thread (.waiting request deadline))
  | .waiting request deadline, .checkDeadline _ =>
      if deadline ≤ state.monotonic then some (state.leave thread)
      else some (state.withPhase thread (.trying request deadline))
  | .locked request, .read _ =>
      some (state.withPhase thread
        ((updateHits scope request.pageKeys request.config request.now state.file).elim
          .releasing (.prepared request)))
  | .locked _, .fails _ => some (state.withPhase thread .releasing)
  | .prepared request record, .replace _ =>
      some ({ state with
        file := some (fileText record)
        writes := state.writes ++ [Write.mk request record] }.withPhase thread .releasing)
  | .prepared _ _, .fails _ => some (state.withPhase thread .releasing)
  | .releasing, .rmdir _ => some ({ state with lock := none }.leave thread)
  | .releasing, .rmdirFails _ => some (state.leave thread)
  | _, _ => none

def UpdateEvent.thread? : UpdateEvent → Option Thread
  | .advance _ => none
  | .setWall _ => none
  | .die _ => none
  | .begin_ thread _ => some thread
  | .takeThreadLock thread => some thread
  | .makeParent thread => some thread
  | .parentFails thread => some thread
  | .mkdir thread => some thread
  | .mkdirFails thread => some thread
  | .checkStale thread _ => some thread
  | .checkDeadline thread => some thread
  | .read thread => some thread
  | .replace thread => some thread
  | .fails thread => some thread
  | .rmdir thread => some thread
  | .rmdirFails thread => some thread

def updateStep (state : UpdateState) (event : UpdateEvent) : Option UpdateState :=
  match event with
  | .advance seconds =>
      if 0 ≤ seconds then
        some { state with wall := state.wall + seconds, monotonic := state.monotonic + seconds }
      else none
  | .setWall wall => some { state with wall }
  | .die process =>
      some { state with
        phases := fun thread => if thread.process = process then .idle else state.phases thread
        threadLocks := Function.update state.threadLocks process none }
  | step => step.thread?.bind fun thread => threadStep scope state thread (state.phases thread) step

/-- Nobody is in a call, and the file has some contents. -/
def UpdateState.start (file : Option Text) : UpdateState where
  wall := 0
  monotonic := 0
  lock := none
  threadLocks _ := none
  file
  phases _ := .idle
  writes := []

end Steps

section Claims

variable [Hashing] [Numbers] [Json.FloatRepr PyFloat] (scope : ManagedContextScope)

/-- At most one call is between acquire and release. -/
def MutuallyExclusive (state : UpdateState) : Prop :=
  ∀ first second, (state.phases first).isCritical = true →
    (state.phases second).isCritical = true → first = second

/-- Only the thread that created the lock directory removes it. -/
def NeverStolen (state : UpdateState) : Prop :=
  ∀ event after lock, updateStep scope state event = some after → state.lock = some lock →
    after.lock = some lock ∨ event = .rmdir lock.creator

/-- A thread that finds the lock stale gives up, and leaves all else as it is. -/
def StaleFails (state : UpdateState) : Prop :=
  ∀ thread request deadline after, state.phases thread = .refused request deadline →
    state.lockIsStale = true → updateStep scope state (.checkStale thread false) = some after →
    after = state.leave thread

/-- A write was computed from the record of the write before it. -/
def Follows (previous next : Write) : Prop :=
  ∃ current, read scope next.request.config next.request.now false
      (some (fileText previous.record)) = .value current ∧
    current.generation = previous.record.generation ∧
    next.record = updatedRecord scope next.request.pageKeys next.request.config next.request.now
      (some current)

/-- The generation the first writer reads, or zero where it finds no valid record. -/
def initialGeneration (initial : Option Text) : List Write → Int
  | [] => 0
  | first :: _ =>
      ((read scope first.request.config first.request.now false initial).value?.map
        ManagedContextRecord.generation).getD 0

structure Serialized (initial : Option Text) (writes : List Write) (stored : Option Text) :
    Prop where
  first : ∀ write ∈ writes.head?,
    updateHits scope write.request.pageKeys write.request.config write.request.now initial =
      some write.record
  follows : writes.IsChain (Follows scope)
  generations : ∀ (index : Nat) (write : Write), writes[index]? = some write →
    write.record.generation = initialGeneration scope initial writes + index + 1
  contents : stored = (writes.getLast?.map fun write => fileText write.record).or initial
  final : writes ≠ [] → ∀ config now, 1 ≤ now → ∃ current,
    read scope config now false stored = .value current ∧
      current.generation = initialGeneration scope initial writes + writes.length

/-- Clock values are at least one, and what is written fits the read size limit. -/
def Permitted (state : UpdateState) (event : UpdateEvent) : Prop :=
  (∀ thread request, event = .begin_ thread request → 1 ≤ request.now) ∧
    ∀ thread request record, event = .replace thread →
      state.phases thread = .prepared request record →
      utf8Length (fileText record) ≤ recordReadMaxBytes

/-- Whatever record is read from the file, its creation time does not round to zero. -/
def Dated (file : Option Text) : Prop :=
  ∀ config now current, 1 ≤ now → read scope config now false file = .value current →
    roundRat 6 current.createdAt ≠ 0

end Claims

/-! ## Records that are read again -/

theorem one_le_roundRat {time : ℚ} (late : 1 ≤ time) : 1 ≤ roundRat 6 time := by
  have one : roundRat 6 1 = 1 := by decide +kernel
  calc
    (1 : ℚ) = roundRat 6 1 := one.symm
    _ ≤ roundRat 6 time := roundRat_mono 6 late

theorem roundRat_ne_zero {time : ℚ} (late : 1 ≤ time) : roundRat 6 time ≠ 0 :=
  (lt_of_lt_of_le one_pos (one_le_roundRat late)).ne'

theorem roundRat_rereadTime_ne_zero {now : ℚ} (late : 1 ≤ now) (time : ℚ) :
    roundRat 6 (rereadTime now time) ≠ 0 := by
  unfold rereadTime
  split
  · exact roundRat_ne_zero late
  next other => rwa [roundRat_roundRat]

theorem rereadTime_of_ne_zero {now time : ℚ} (other : roundRat 6 time ≠ 0) :
    rereadTime now time = roundRat 6 time := if_neg other

section Legible

variable [Hashing] [Numbers] [Json.FloatRepr PyFloat] {scope : ManagedContextScope}

/-- A record that is valid at every clock value. -/
structure Legible (record : ManagedContextRecord) : Prop where
  generation : 1 ≤ record.generation
  ordered : record.createdAt ≤ record.updatedAt
  created : roundRat 6 record.createdAt ≠ 0
  updated : 1 ≤ record.updatedAt

/-- Whatever is read satisfies the last check of the reader. -/
theorem read_valid {config : ManagedContextConfig} {now : ℚ} {file : Option Text}
    {record : ManagedContextRecord} (found : read scope config now false file = .value record) :
    1 ≤ record.generation ∧ record.createdAt ≤ record.updatedAt := by
  unfold read at found
  rw [if_neg (by decide)] at found
  cases loaded : readJsonPayload file with
  | none => simp [loaded] at found
  | some payload =>
  rw [loaded, Option.elim_some] at found
  unfold recordFromPayload at found
  split at found
  · cases found
  split at found
  next items _ =>
    simp only [Conversion.bind_eq_value] at found
    obtain ⟨hits, -, generation, -, createdAt, -, updatedAt, -, found⟩ := found
    split at found
    next =>
      split at found
      · cases found
      next valid =>
        obtain rfl := Conversion.value.inj found
        obtain ⟨positive, ordered⟩ := not_or.mp valid
        exact ⟨not_lt.mp positive, not_lt.mp ordered⟩
    · cases found
  · cases found

theorem dated_fileText (record : ManagedContextRecord) :
    Dated record.scope (some (fileText record)) := by
  intro config now current late found
  by_cases fits : utf8Length (fileText record) ≤ recordReadMaxBytes
  · rw [read_fileText config now fits] at found
    split at found
    · cases found
    · obtain rfl := Conversion.value.inj found
      exact roundRat_rereadTime_ne_zero late _
  · simp [read_tooLarge _ config now (not_le.mp fits)] at found

/-- The files that updates and removals leave are dated. -/
theorem dated_reachable {file : Option Text}
    (reached : Reachable (fileStep scope) none file) : Dated scope file := by
  rcases reachable_file reached with rfl | ⟨record, rfl, rfl⟩
  · rintro config now current - ⟨⟩
  · exact dated_fileText record

theorem updateHits_legible {file : Option Text} (dated : Dated scope file)
    {pageKeys : List Text} {config : ManagedContextConfig} {now : ℚ} (late : 1 ≤ now)
    {record : ManagedContextRecord}
    (planned : updateHits scope pageKeys config now file = some record) : Legible record := by
  unfold updateHits at planned
  cases found : read scope config now false file with
  | overflow => simp [found] at planned
  | refused =>
      rw [found] at planned
      obtain rfl := Option.some.inj planned
      exact ⟨le_refl 1, le_refl now, roundRat_ne_zero late, late⟩
  | value current =>
      rw [found] at planned
      obtain rfl := Option.some.inj planned
      obtain ⟨generation, ordered⟩ := read_valid found
      have effective : now ≤ (if now < current.updatedAt then current.updatedAt else now) ∧
          current.updatedAt ≤ (if now < current.updatedAt then current.updatedAt else now) := by
        split
        next later => exact ⟨later.le, le_refl _⟩
        next earlier => exact ⟨le_refl _, not_lt.mp earlier⟩
      refine ⟨?_, ordered.trans effective.2, dated config now current late found,
        late.trans effective.1⟩
      simp only [updatedRecord, Option.map_some, Option.getD_some]
      omega

theorem read_legible {record : ManagedContextRecord} (legible : Legible record)
    (fits : utf8Length (fileText record) ≤ recordReadMaxBytes) (config : ManagedContextConfig)
    (now : ℚ) :
    ∃ current, read record.scope config now false (some (fileText record)) = .value current ∧
      current.generation = record.generation := by
  refine ⟨_, (read_fileText config now fits).trans (if_neg ?_), rfl⟩
  have updated : roundRat 6 record.updatedAt ≠ 0 := roundRat_ne_zero legible.updated
  rw [rereadTime_of_ne_zero updated, rereadTime_of_ne_zero legible.created]
  rintro (tooSmall | backwards)
  · exact absurd legible.generation (not_le.mpr tooSmall)
  · exact absurd (roundRat_mono 6 legible.ordered) (not_le.mpr backwards)

end Legible

/-! ## The history of the file -/

section History

variable [Hashing] [Numbers] [Json.FloatRepr PyFloat] {scope : ManagedContextScope}
  {initial : Option Text}

variable (scope initial) in
/-- The writes so far, with the contents they leave: each was computed from the contents before. -/
inductive History : List Write → Option Text → Prop where
  | start : History [] initial
  | write {writes : List Write} {stored : Option Text} {request : Request}
      {record : ManagedContextRecord} :
      History writes stored → 1 ≤ request.now →
      updateHits scope request.pageKeys request.config request.now stored = some record →
      utf8Length (fileText record) ≤ recordReadMaxBytes →
      History (writes ++ [⟨request, record⟩]) (some (fileText record))

theorem History.dated {writes : List Write} {stored : Option Text}
    (history : History scope initial writes stored) (dated : Dated scope initial) :
    Dated scope stored := by
  cases history with
  | start => exact dated
  | write _ _ planned _ => exact updateHits_scope planned ▸ dated_fileText _

theorem History.contents {writes : List Write} {stored : Option Text}
    (history : History scope initial writes stored) :
    stored = (writes.getLast?.map fun write => fileText write.record).or initial := by
  cases history with
  | start => rfl
  | write _ _ _ _ => simp

theorem History.read_last {writes : List Write} {stored : Option Text}
    (history : History scope initial writes stored) (dated : Dated scope initial) {last : Write}
    (isLast : last ∈ writes.getLast?) (config : ManagedContextConfig) (now : ℚ) :
    ∃ current, read scope config now false stored = .value current ∧
      current.generation = last.record.generation := by
  cases history with
  | start => cases isLast
  | write earlier late planned fits =>
      simp only [List.getLast?_append, List.getLast?_singleton, Option.some_or,
        Option.mem_some_iff] at isLast
      subst isLast
      have legible := updateHits_legible (earlier.dated dated) late planned
      exact updateHits_scope planned ▸ read_legible legible fits config now

theorem initialGeneration_append {writes : List Write} (nonempty : writes ≠ []) (write : Write) :
    initialGeneration scope initial (writes ++ [write]) =
      initialGeneration scope initial writes := by
  cases writes with
  | nil => exact absurd rfl nonempty
  | cons first rest => rfl

theorem generation_updateHits {pageKeys : List Text} {config : ManagedContextConfig} {now : ℚ}
    {file : Option Text} {record : ManagedContextRecord}
    (planned : updateHits scope pageKeys config now file = some record) :
    record.generation =
      ((read scope config now false file).value?.map ManagedContextRecord.generation).getD 0 +
        1 := by
  unfold updateHits at planned
  cases found : read scope config now false file with
  | overflow => simp [found] at planned
  | refused =>
      rw [found] at planned
      obtain rfl := Option.some.inj planned
      rfl
  | value current =>
      rw [found] at planned
      obtain rfl := Option.some.inj planned
      rfl

theorem History.next_generation {writes : List Write} {stored : Option Text}
    (history : History scope initial writes stored) (dated : Dated scope initial)
    {request : Request} {record : ManagedContextRecord}
    (planned : updateHits scope request.pageKeys request.config request.now stored = some record)
    (generations : ∀ (index : Nat) (write : Write), writes[index]? = some write →
      write.record.generation = initialGeneration scope initial writes + index + 1) :
    record.generation =
      initialGeneration scope initial (writes ++ [⟨request, record⟩]) + writes.length + 1 := by
  rcases List.eq_nil_or_concat' writes with rfl | ⟨earlier, last, rfl⟩
  · obtain rfl : stored = initial := history.contents
    simp [generation_updateHits planned, initialGeneration]
  · have isLast : last ∈ (earlier ++ [last]).getLast? := by simp
    obtain ⟨current, found, same⟩ :=
      history.read_last dated isLast request.config request.now
    have before := generations earlier.length last (by simp)
    have nonempty : earlier ++ [last] ≠ [] := by simp
    rw [generation_updateHits planned, found, Conversion.value?, Option.map_some,
      Option.getD_some, same, before, initialGeneration_append nonempty, List.length_append, List.length_singleton]
    push_cast
    ring

theorem History.serialized {writes : List Write} {stored : Option Text}
    (history : History scope initial writes stored) (dated : Dated scope initial) :
    Serialized scope initial writes stored := by
  induction history with
  | start =>
      refine ⟨fun write isFirst => ?_, .nil, fun index write among => ?_, rfl,
        fun nonempty => absurd rfl nonempty⟩
      · cases isFirst
      · simp at among
  | @write writes stored request record history late planned fits inductionHypothesis =>
      have next := history.next_generation dated planned inductionHypothesis.generations
      have whole := History.write history late planned fits
      refine ⟨?_, ?_, ?_, whole.contents, ?_⟩
      · intro write isFirst
        cases writes with
        | nil =>
            obtain rfl : stored = initial := history.contents
            simp only [List.nil_append, List.head?_cons, Option.mem_some_iff] at isFirst
            subst isFirst
            exact planned
        | cons first rest => exact inductionHypothesis.first write isFirst
      · apply List.isChain_append.mpr
        refine ⟨inductionHypothesis.follows, .singleton _, ?_⟩
        intro last isLast write isNext
        simp only [List.head?_cons, Option.mem_some_iff] at isNext
        subst isNext
        obtain ⟨current, found, same⟩ :=
          history.read_last dated isLast request.config request.now
        have contents : stored = some (fileText last.record) := by
          rw [history.contents, Option.mem_def.mp isLast]
          rfl
        subst contents
        simp only [updateHits, found, Option.some.injEq] at planned
        exact ⟨current, found, same, planned.symm⟩
      · intro index write among
        rcases Nat.lt_trichotomy index writes.length with earlier | rfl | later
        · rw [List.getElem?_append_left earlier] at among
          rw [inductionHypothesis.generations index write among,
            initialGeneration_append (List.ne_nil_of_length_pos (by omega))]
        · rw [List.getElem?_append_right (le_refl _)] at among
          simp only [Nat.sub_self, List.getElem?_cons_zero, Option.some.injEq] at among
          subst among
          exact next
        · rw [List.getElem?_eq_none (by simp; omega)] at among
          cases among
      · intro _ config now _
        obtain ⟨current, found, same⟩ :=
          whole.read_last dated (Option.mem_def.mpr List.getLast?_concat) config now
        refine ⟨current, found, same.trans (next.trans ?_)⟩
        push_cast [List.length_append, List.length_singleton]
        ring

end History

/-! ## Runs -/

section Runs

variable [Hashing] [Numbers] [Json.FloatRepr PyFloat] {scope : ManagedContextScope}
  {initial : Option Text}

/-- The arguments of the call a thread is in, where it still needs them. -/
def Phase.request? : Phase → Option Request
  | .idle => none
  | .queued request => some request
  | .entering request => some request
  | .trying request _ => some request
  | .refused request _ => some request
  | .waiting request _ => some request
  | .locked request => some request
  | .prepared request _ => some request
  | .releasing => none

variable (scope initial) in
/-- The lock belongs to whoever is under it, and a computed record is up to date. -/
structure Orderly (lock : Option LockDirectory) (stored : Option Text) (phases : Thread → Phase)
    (writes : List Write) : Prop where
  held : ∀ thread, (phases thread).isCritical = true →
    ∃ directory, lock = some directory ∧ directory.creator = thread
  late : ∀ thread request, (phases thread).request? = some request → 1 ≤ request.now
  prepared : ∀ thread request record, phases thread = .prepared request record →
    updateHits scope request.pageKeys request.config request.now stored = some record
  history : History scope initial writes stored

variable {lock : Option LockDirectory} {stored : Option Text} {phases : Thread → Phase}
  {writes : List Write} {thread : Thread}

theorem Orderly.exclusive (orderly : Orderly scope initial lock stored phases writes)
    {first second : Thread} (firstCritical : (phases first).isCritical = true)
    (secondCritical : (phases second).isCritical = true) : first = second := by
  obtain ⟨directory, present, rfl⟩ := orderly.held first firstCritical
  obtain ⟨other, otherPresent, rfl⟩ := orderly.held second secondCritical
  rw [Option.some.inj (present.symm.trans otherPresent)]

/-- A thread moves to a phase that needs no more than its phase before. -/
theorem Orderly.move (orderly : Orderly scope initial lock stored phases writes) {phase : Phase}
    (critical : phase.isCritical = true → (phases thread).isCritical = true)
    (late : ∀ request, phase.request? = some request → 1 ≤ request.now)
    (prepared : ∀ request record, phase = .prepared request record →
      updateHits scope request.pageKeys request.config request.now stored = some record) :
    Orderly scope initial lock stored (Function.update phases thread phase) writes := by
  refine ⟨?_, ?_, ?_, orderly.history⟩
  · intro other otherCritical
    by_cases same : other = thread
    · subst same
      rw [Function.update_self] at otherCritical
      exact orderly.held other (critical otherCritical)
    · rw [Function.update_of_ne same] at otherCritical
      exact orderly.held other otherCritical
  · intro other request carried
    by_cases same : other = thread
    · subst same
      rw [Function.update_self] at carried
      exact late request carried
    · rw [Function.update_of_ne same] at carried
      exact orderly.late other request carried
  · intro other request record atPhase
    by_cases same : other = thread
    · subst same
      rw [Function.update_self] at atPhase
      exact prepared request record atPhase
    · rw [Function.update_of_ne same] at atPhase
      exact orderly.prepared other request record atPhase

theorem Orderly.wait (orderly : Orderly scope initial lock stored phases writes) {phase : Phase}
    (outside : phase.isCritical = false) (same : phase.request? = (phases thread).request?) :
    Orderly scope initial lock stored (Function.update phases thread phase) writes := by
  apply orderly.move
  · simp [outside]
  · exact fun request carried => orderly.late thread request (same ▸ carried)
  · rintro request record rfl
    cases outside

theorem Orderly.idle (orderly : Orderly scope initial lock stored phases writes) :
    Orderly scope initial lock stored (Function.update phases thread .idle) writes :=
  orderly.move (fun critical => by simp [Phase.isCritical] at critical)
    (fun _ carried => by simp [Phase.request?] at carried) (fun _ _ same => by simp at same)

theorem Orderly.release (orderly : Orderly scope initial lock stored phases writes)
    (critical : (phases thread).isCritical = true) :
    Orderly scope initial lock stored (Function.update phases thread .releasing) writes :=
  orderly.move (fun _ => critical) (fun _ carried => by simp [Phase.request?] at carried)
    (fun _ _ same => by simp at same)

/-- A change of the lock while nobody is under it. -/
theorem Orderly.relock (orderly : Orderly scope initial lock stored phases writes)
    (other : Option LockDirectory) (free : ∀ thread, (phases thread).isCritical = false) :
    Orderly scope initial other stored phases writes :=
  ⟨fun thread critical => by simp [free thread] at critical, orderly.late, orderly.prepared,
    orderly.history⟩

theorem Orderly.free (orderly : Orderly scope initial none stored phases writes)
    (thread : Thread) : (phases thread).isCritical = false := by
  by_contra critical
  obtain ⟨directory, present, -⟩ := orderly.held thread (by simpa using critical)
  cases present

theorem Orderly.acquire (orderly : Orderly scope initial none stored phases writes)
    {request : Request} (carried : (phases thread).request? = some request) (mtime : ℚ) :
    Orderly scope initial (some ⟨thread, mtime⟩) stored
      (Function.update phases thread (.locked request)) writes := by
  refine ⟨?_, ?_, ?_, orderly.history⟩
  · intro other critical
    by_cases same : other = thread
    · exact ⟨_, rfl, same.symm⟩
    · rw [Function.update_of_ne same, orderly.free other] at critical
      cases critical
  · intro other otherRequest otherCarried
    by_cases same : other = thread
    · subst same
      rw [Function.update_self] at otherCarried
      exact orderly.late other otherRequest (carried.trans otherCarried)
    · rw [Function.update_of_ne same] at otherCarried
      exact orderly.late other otherRequest otherCarried
  · intro other otherRequest record atPhase
    by_cases same : other = thread
    · subst same
      rw [Function.update_self] at atPhase
      cases atPhase
    · rw [Function.update_of_ne same] at atPhase
      exact orderly.prepared other otherRequest record atPhase

/-- Nobody else is under the lock when the file is replaced. -/
theorem Orderly.replace (orderly : Orderly scope initial lock stored phases writes)
    {request : Request} {record : ManagedContextRecord}
    (atPhase : phases thread = .prepared request record)
    (fits : utf8Length (fileText record) ≤ recordReadMaxBytes) :
    Orderly scope initial lock (some (fileText record))
      (Function.update phases thread .releasing) (writes ++ [⟨request, record⟩]) := by
  have critical : (phases thread).isCritical = true := by rw [atPhase]; rfl
  have released := @Orderly.release _ _ _ _ _ _ _ _ _ thread orderly critical
  have planned := orderly.prepared thread request record atPhase
  have late := orderly.late thread request (by rw [atPhase]; rfl)
  refine ⟨released.held, released.late, ?_, .write orderly.history late planned fits⟩
  intro other otherRequest otherRecord otherPhase
  by_cases same : other = thread
  · subst same
    rw [Function.update_self] at otherPhase
    cases otherPhase
  · rw [Function.update_of_ne same] at otherPhase
    exact absurd (orderly.exclusive (by rw [otherPhase]; rfl) critical) same

theorem Orderly.rmdir (orderly : Orderly scope initial lock stored phases writes)
    (critical : (phases thread).isCritical = true) :
    Orderly scope initial none stored (Function.update phases thread .idle) writes := by
  apply orderly.idle.relock
  intro other
  by_cases same : other = thread
  · subst same
    rw [Function.update_self]
    rfl
  · rw [Function.update_of_ne same]
    by_contra otherCritical
    exact same (orderly.exclusive (by simpa using otherCritical) critical)

theorem Orderly.die (orderly : Orderly scope initial lock stored phases writes)
    (process : Nat) :
    Orderly scope initial lock stored
      (fun thread => if thread.process = process then .idle else phases thread) writes := by
  refine ⟨?_, ?_, ?_, orderly.history⟩
  · intro thread critical
    split at critical
    · cases critical
    · exact orderly.held thread critical
  · intro thread request carried
    split at carried
    · cases carried
    · exact orderly.late thread request carried
  · intro thread request record atPhase
    split at atPhase
    · cases atPhase
    · exact orderly.prepared thread request record atPhase

variable (scope initial) in
def UpdateState.Orderly (state : UpdateState) : Prop :=
  ManagedContext.Orderly scope initial state.lock state.file state.phases state.writes

theorem threadStep_orderly {state after : UpdateState} {event : UpdateEvent}
    (orderly : state.Orderly scope initial) (allowed : Permitted state event)
    (own : event.thread? = some thread)
    (stepped : threadStep scope state thread (state.phases thread) event = some after) :
    after.Orderly scope initial := by
  generalize atPhase : state.phases thread = phase at stepped
  have critical : phase.isCritical = true → (state.phases thread).isCritical = true := by
    rw [atPhase]
    exact id
  unfold threadStep at stepped
  split at stepped
  next beginner request =>
    split at stepped <;> obtain rfl := Option.some.inj stepped
    · exact orderly
    · apply orderly.move
      · simp [Phase.isCritical]
      · rintro other ⟨⟩
        exact allowed.1 beginner request rfl
      · simp
  next request _ =>
    split at stepped
    · cases stepped
    · obtain rfl := Option.some.inj stepped
      exact orderly.wait rfl (by rw [atPhase]; rfl)
  next request _ =>
    obtain rfl := Option.some.inj stepped
    exact orderly.wait rfl (by rw [atPhase]; rfl)
  next =>
    obtain rfl := Option.some.inj stepped
    exact orderly.idle
  next request deadline _ =>
    split at stepped <;> obtain rfl := Option.some.inj stepped
    · exact orderly.wait rfl (by rw [atPhase]; rfl)
    next missing =>
      have unlocked : ManagedContext.Orderly scope initial none state.file state.phases
          state.writes := missing ▸ orderly
      exact unlocked.acquire (by rw [atPhase]; rfl) _
  next =>
    obtain rfl := Option.some.inj stepped
    exact orderly.wait rfl (by rw [atPhase]; rfl)
  next =>
    split at stepped <;> obtain rfl := Option.some.inj stepped
    · exact orderly.idle
    · exact orderly.wait rfl (by rw [atPhase]; rfl)
  next =>
    split at stepped <;> obtain rfl := Option.some.inj stepped
    · exact orderly.idle
    · exact orderly.wait rfl (by rw [atPhase]; rfl)
  next request _ =>
    obtain rfl := Option.some.inj stepped
    cases planned : updateHits scope request.pageKeys request.config request.now state.file with
    | none => exact orderly.release (critical rfl)
    | some record =>
        apply orderly.move fun _ => critical rfl
        · rintro other ⟨⟩
          exact orderly.late thread request (by rw [atPhase]; rfl)
        · rintro other _ ⟨⟩
          exact planned
  next =>
    obtain rfl := Option.some.inj stepped
    exact orderly.release (critical rfl)
  next request record writer =>
    obtain rfl := Option.some.inj stepped
    obtain rfl := Option.some.inj own
    exact orderly.replace atPhase (allowed.2 _ request record rfl atPhase)
  next =>
    obtain rfl := Option.some.inj stepped
    exact orderly.release (critical rfl)
  next =>
    obtain rfl := Option.some.inj stepped
    exact orderly.rmdir (critical rfl)
  next =>
    obtain rfl := Option.some.inj stepped
    exact orderly.idle
  next => cases stepped

theorem updateStep_orderly {state after : UpdateState} {event : UpdateEvent}
    (orderly : state.Orderly scope initial) (allowed : Permitted state event)
    (stepped : updateStep scope state event = some after) : after.Orderly scope initial := by
  unfold updateStep at stepped
  split at stepped
  next =>
    split at stepped
    · obtain rfl := Option.some.inj stepped
      exact orderly
    · cases stepped
  next =>
    obtain rfl := Option.some.inj stepped
    exact orderly
  next process =>
    obtain rfl := Option.some.inj stepped
    exact orderly.die process
  next =>
    obtain ⟨thread, own, stepped⟩ := Option.bind_eq_some_iff.mp stepped
    exact threadStep_orderly orderly allowed own stepped

/-- A directory that is there stays, unless the thread that created it is releasing it. -/
theorem threadStep_lock {state after : UpdateState} {event : UpdateEvent}
    {directory : LockDirectory} (present : state.lock = some directory)
    (own : event.thread? = some thread)
    (stepped : threadStep scope state thread (state.phases thread) event = some after) :
    after.lock = some directory ∨
      event = .rmdir thread ∧ (state.phases thread).isCritical = true := by
  generalize state.phases thread = phase at stepped
  unfold threadStep at stepped
  split at stepped
  all_goals try split at stepped
  all_goals first
    | cases stepped; done
    | obtain rfl := Option.some.inj stepped
  all_goals first
    | exact Or.inl present
    | skip
  next missing => cases present.symm.trans missing
  next =>
    obtain rfl := Option.some.inj own
    exact Or.inr ⟨rfl, rfl⟩

theorem UpdateState.Orderly.neverStolen {state : UpdateState} (orderly : state.Orderly scope initial) :
    NeverStolen scope state := by
  intro event after directory stepped present
  unfold updateStep at stepped
  split at stepped
  next =>
    split at stepped
    · obtain rfl := Option.some.inj stepped
      exact Or.inl present
    · cases stepped
  next =>
    obtain rfl := Option.some.inj stepped
    exact Or.inl present
  next =>
    obtain rfl := Option.some.inj stepped
    exact Or.inl present
  next =>
    obtain ⟨thread, own, stepped⟩ := Option.bind_eq_some_iff.mp stepped
    rcases threadStep_lock present own stepped with kept | ⟨rfl, critical⟩
    · exact Or.inl kept
    · obtain ⟨held, atPath, rfl⟩ := orderly.held thread critical
      obtain rfl := Option.some.inj (present.symm.trans atPath)
      exact Or.inr rfl

theorem staleFails (state : UpdateState) : StaleFails scope state := by
  intro thread request deadline after atPhase stale stepped
  simp only [updateStep, UpdateEvent.thread?, Option.bind_some, atPhase, threadStep, stale,
    Bool.not_false, Bool.and_self, if_true, Option.some.injEq] at stepped
  exact stepped.symm

/-- From a dated file, in every run with clock values of at least one and records that fit, calls
exclude each other, no lock is stolen and no write is lost. -/
theorem updates_serialized (scope : ManagedContextScope) (initial : Option Text)
    (dated : Dated scope initial) {state : UpdateState}
    (reached : ReachableVia (updateStep scope) Permitted (.start initial) state) :
    MutuallyExclusive state ∧ NeverStolen scope state ∧ StaleFails scope state ∧
      Serialized scope initial state.writes state.file := by
  have orderly : state.Orderly scope initial := by
    refine @ReachableVia.invariant _ _ _ _ _ _ (UpdateState.Orderly scope initial) reached ?_ ?_
    · refine ⟨?_, ?_, ?_, .start⟩ <;> simp [UpdateState.start, Phase.isCritical, Phase.request?]
    · exact fun _ _ _ orderly allowed stepped => updateStep_orderly orderly allowed stepped
  exact ⟨fun _ _ firstCritical secondCritical => orderly.exclusive firstCritical secondCritical,
    orderly.neverStolen, staleFails state, orderly.history.serialized dated⟩

end Runs

/-! ## Two runs -/

section Sample

attribute [local instance] Unicode.ascii Hashing.transparent sampleFloats sampleNumbers

/-- A call that nobody disturbs. -/
def undisturbed (thread : Thread) (request : Request) : List UpdateEvent :=
  [.begin_ thread request, .takeThreadLock thread, .makeParent thread, .mkdir thread, .read thread,
    .replace thread, .rmdir thread]

def twoCalls : List UpdateEvent :=
  undisturbed ⟨0, 0⟩ ⟨["pk_1"], {}, 1000⟩ ++ undisturbed ⟨1, 0⟩ ⟨["pk_2"], {}, 2000⟩

def afterUpdates (initial : Option Text) (events : List UpdateEvent) : UpdateState :=
  (exec (updateStep sampleScope) (.start initial) events).getD (.start initial)

/-- The condition on events, computed. -/
def permitted (state : UpdateState) : UpdateEvent → Bool
  | .begin_ _ request => decide (1 ≤ request.now)
  | .replace thread =>
      match state.phases thread with
      | .prepared _ record => decide (utf8Length (fileText record) ≤ recordReadMaxBytes)
      | _ => true
  | _ => true

theorem permitted_sound (state : UpdateState) (event : UpdateEvent)
    (checked : permitted state event = true) : Permitted state event := by
  constructor
  · rintro thread request rfl
    simpa [permitted] using checked
  · rintro thread request record rfl atPhase
    simpa [permitted, atPhase] using checked

theorem afterUpdates_reachable {initial : Option Text} {events : List UpdateEvent}
    (runs : (exec (updateStep sampleScope) (.start initial) events).isSome = true)
    (checked : checks (updateStep sampleScope) permitted (.start initial) events = true) :
    ReachableVia (updateStep sampleScope) Permitted (.start initial)
      (afterUpdates initial events) := by
  obtain ⟨state, ends⟩ := Option.isSome_iff_exists.mp runs
  have same : afterUpdates initial events = state := by simp [afterUpdates, ends]
  rw [same]
  exact reachableVia_of_exec (admits_of_checks permitted_sound checked) ends

/-- One evaluation of the run for all that is read off it. -/
theorem twoCalls_runs :
    (exec (updateStep sampleScope) (.start none) twoCalls).isSome = true ∧
      checks (updateStep sampleScope) permitted (.start none) twoCalls = true ∧
      ((afterUpdates none twoCalls).writes.map fun write => write.record.generation) = [1, 2] := by
  decide +kernel

theorem twoCalls_reachable :
    ReachableVia (updateStep sampleScope) Permitted (.start none) (afterUpdates none twoCalls) :=
  afterUpdates_reachable twoCalls_runs.1 twoCalls_runs.2.1

theorem updates_serialized_twoCalls :
    ((afterUpdates none twoCalls).writes.map fun write => write.record.generation) = [1, 2] ∧
      MutuallyExclusive (afterUpdates none twoCalls) ∧
      NeverStolen sampleScope (afterUpdates none twoCalls) ∧
      StaleFails sampleScope (afterUpdates none twoCalls) ∧
      Serialized sampleScope none (afterUpdates none twoCalls).writes
        (afterUpdates none twoCalls).file :=
  ⟨twoCalls_runs.2.2, updates_serialized sampleScope none (dated_reachable .refl)
    twoCalls_reachable⟩

/-- The contents of a file that no update wrote: its record was created right after time zero. -/
def earlyMembers : List (Text × Json PyFloat) :=
  [("created_at", .float (.finite (1 / 10000000))), ("updated_at", .int 100),
    ("generation", .int 5), ("page_hit_prior", .array [])]

def earlyFile : Text :=
  Json.dumps .spaced (.object
    ((expectedMembers sampleScope).map (fun member => (member.1, Json.string member.2)) ++
      earlyMembers))

/-- From that file, the second call finds the record of the first invalid. -/
theorem earlyFile_lost :
    ¬ ∀ initial state,
      ReachableVia (updateStep sampleScope) Permitted (.start initial) state →
      Serialized sampleScope initial state.writes state.file := by
  intro claimed
  obtain ⟨runs, checked, generations, initially⟩ :
      (exec (updateStep sampleScope) (.start (some earlyFile)) twoCalls).isSome = true ∧
        checks (updateStep sampleScope) permitted (.start (some earlyFile)) twoCalls = true ∧
        ((afterUpdates (some earlyFile) twoCalls).writes.map fun write =>
          write.record.generation) = [6, 1] ∧
        initialGeneration sampleScope (some earlyFile)
          (afterUpdates (some earlyFile) twoCalls).writes = 5 := by
    decide +kernel
  have serialized := claimed (some earlyFile) (afterUpdates (some earlyFile) twoCalls)
    (afterUpdates_reachable runs checked)
  obtain ⟨second, isSecond, one⟩ : ∃ write,
      (afterUpdates (some earlyFile) twoCalls).writes[1]? = some write ∧
        write.record.generation = 1 := by
    apply Option.map_eq_some_iff.mp
    rw [← List.getElem?_map, generations]
    rfl
  have claimedGeneration := serialized.generations 1 second isSecond
  rw [initially, one] at claimedGeneration
  exact absurd claimedGeneration (by decide)

end Sample

end LlmWikiServe.ManagedContext
