import LlmWikiServe.Foundation.Keyed
import LlmWikiServe.Foundation.Transition

/-!
# The lock of the vector cache

Processes take the lock by creating a file exclusively and release it by unlinking whatever is
at its path.  A waiting process unlinks a lock that is old and whose owner it finds not running,
examining and unlinking in separate steps.
-/

namespace LlmWikiServe.VectorLock

open Transition

/-- `VECTOR_LOCK_TIMEOUT_SECONDS` -/
def timeoutSeconds : ℚ := 30

/-- `VECTOR_LOCK_STALE_SECONDS` -/
def staleSeconds : ℚ := 60

/-- The payload of a lock file. -/
structure Owner where
  pid : Int
  createdAt : ℚ
  deriving DecidableEq

structure LockFile where
  /-- Which of the files created so far this is. -/
  serial : Nat
  /-- The process that created the file, which nothing but the statements below looks at. -/
  creator : Nat
  /-- Absent until it is written. -/
  owner : Option Owner
  mtime : ℚ

/-- A running process as `psutil` sees it. -/
structure Process where
  pid : Int
  createTime : ℚ

/-- Where a process is in `vector_cache_lock`, with the deadline of a waiting one. -/
inductive Phase where
  | outside
  /-- Before `os.open`. -/
  | trying (deadline : ℚ)
  /-- The file exists, its payload is to be written. -/
  | created (serial : Nat)
  /-- In the protected block. -/
  | inside (serial : Nat)
  /-- In `remove_stale_lock`, before `stat`. -/
  | refused (deadline : ℚ)
  /-- The lock is old, its owner is to be read. -/
  | aged (deadline : ℚ)
  | judging (deadline : ℚ) (owner : Owner)
  /-- Before the `unlink` of the stale lock. -/
  | condemned (deadline : ℚ)
  /-- Back from `remove_stale_lock`. -/
  | waiting (deadline : ℚ)
  deriving DecidableEq

structure State where
  now : ℚ
  lock : Option LockFile
  filesCreated : Nat
  /-- The running processes. -/
  running : List (Nat × Process)
  spawned : Nat
  phases : Nat → Phase

inductive Event where
  | advance (seconds : ℚ)
  | spawn (pid : Int)
  | die (process : Nat)
  | start (process : Nat)
  | create (process : Nat)
  | writeOwner (process : Nat)
  /-- Writing the payload raises. -/
  | writeFails (process : Nat)
  | stat (process : Nat)
  | readOwner (process : Nat)
  | testOwner (process : Nat)
  | unlinkStale (process : Nat)
  | checkDeadline (process : Nat)
  | release (process : Nat)

/-- The end of `lock_owner_is_running`, with the payload read. -/
def ownerIsRunning (running : List (Nat × Process)) (owner : Owner) : Bool :=
  if owner.pid ≤ 0 then false
  else
    match running.find? fun entry => entry.2.pid = owner.pid with
    | none => false
    | some (_, process) =>
        !(0 < owner.createdAt && owner.createdAt + 1 < process.createTime)

def State.withPhase (state : State) (process : Nat) (phase : Phase) : State :=
  { state with phases := Function.update state.phases process phase }

/-- The owner is written to the file that was created, which may no longer be at the path. -/
def ownedBy (serial : Nat) (owner : Owner) (now : ℚ) (file : LockFile) : LockFile :=
  if file.serial = serial then { file with owner := some owner, mtime := now } else file

def processStep (state : State) (process : Nat) (running : Process) :
    Phase → Event → Option State
  | .outside, .start _ => some (state.withPhase process (.trying (state.now + timeoutSeconds)))
  | .trying deadline, .create _ =>
      match state.lock with
      | some _ => some (state.withPhase process (.refused deadline))
      | none =>
          some ({ state with
            lock := some ⟨state.filesCreated, process, none, state.now⟩
            filesCreated := state.filesCreated + 1 }.withPhase process
              (.created state.filesCreated))
  | .created serial, .writeOwner _ =>
      some ({ state with
        lock := state.lock.map (ownedBy serial ⟨running.pid, state.now⟩ state.now) }.withPhase
          process (.inside serial))
  | .created _, .writeFails _ => some (state.withPhase process .outside)
  | .refused deadline, .stat _ =>
      match state.lock with
      | none => some (state.withPhase process (.waiting deadline))
      | some file =>
          if state.now - file.mtime ≤ staleSeconds then
            some (state.withPhase process (.waiting deadline))
          else some (state.withPhase process (.aged deadline))
  | .aged deadline, .readOwner _ =>
      match state.lock.bind LockFile.owner with
      | none => some (state.withPhase process (.condemned deadline))
      | some owner => some (state.withPhase process (.judging deadline owner))
  | .judging deadline owner, .testOwner _ =>
      if ownerIsRunning state.running owner then
        some (state.withPhase process (.waiting deadline))
      else some (state.withPhase process (.condemned deadline))
  | .condemned deadline, .unlinkStale _ =>
      some ({ state with lock := none }.withPhase process (.waiting deadline))
  | .waiting deadline, .checkDeadline _ =>
      if deadline ≤ state.now then some (state.withPhase process .outside)
      else some (state.withPhase process (.trying deadline))
  | .inside _, .release _ => some ({ state with lock := none }.withPhase process .outside)
  | _, _ => none

def Event.process? : Event → Option Nat
  | .advance _ => none
  | .spawn _ => none
  | .die _ => none
  | .start process => some process
  | .create process => some process
  | .writeOwner process => some process
  | .writeFails process => some process
  | .stat process => some process
  | .readOwner process => some process
  | .testOwner process => some process
  | .unlinkStale process => some process
  | .checkDeadline process => some process
  | .release process => some process

def lockStep (state : State) (event : Event) : Option State :=
  match event with
  | .advance seconds => if 0 ≤ seconds then some { state with now := state.now + seconds } else none
  | .spawn pid =>
      if 0 < pid ∧ pid ∉ state.running.map (fun entry => entry.2.pid) then
        some { state with
          running := state.running ++ [(state.spawned, ⟨pid, state.now⟩)]
          spawned := state.spawned + 1 }
      else none
  | .die process =>
      some ({ state with
        running := state.running.filter fun entry => entry.1 ≠ process }.withPhase process .outside)
  | step =>
      step.process?.bind fun process =>
        (Keyed.get? state.running process).bind fun running =>
          processStep state process running (state.phases process) step

/-- No process, no lock. -/
def initial : State where
  now := 0
  lock := none
  filesCreated := 0
  running := []
  spawned := 0
  phases _ := .outside

/-! ## Mutual exclusion -/

/-- A process has created the file with a serial number and not released it. -/
def State.Holds (state : State) (process serial : Nat) : Prop :=
  state.phases process = .created serial ∨ state.phases process = .inside serial

/-- At most one process is in the protected block. -/
def MutuallyExclusive (state : State) : Prop :=
  ∀ first second firstSerial secondSerial, state.phases first = .inside firstSerial →
    state.phases second = .inside secondSerial → first = second

/-- A stale lock is unlinked only when the file at the path is held by nobody. -/
def RemovesAbandoned (state : State) (event : Event) : Prop :=
  ∀ process, event = .unlinkStale process →
    ∀ file, state.lock = some file → ¬ state.Holds file.creator file.serial

/-- Whoever holds a lock file has it at the path. -/
def Guarded (state : State) : Prop :=
  ∀ process serial, state.Holds process serial →
    ∃ file, state.lock = some file ∧ file.creator = process ∧ file.serial = serial

theorem Guarded.exclusive {state : State} (guarded : Guarded state) : MutuallyExclusive state := by
  intro first second firstSerial secondSerial firstInside secondInside
  obtain ⟨file, atPath, creator, -⟩ := guarded first firstSerial (Or.inr firstInside)
  obtain ⟨other, otherAtPath, otherCreator, -⟩ := guarded second secondSerial (Or.inr secondInside)
  obtain rfl := Option.some.inj (atPath.symm.trans otherAtPath)
  exact creator.symm.trans otherCreator

theorem holds_withPhase {state : State} {process holder serial : Nat} {phase : Phase}
    (other : holder ≠ process) :
    (state.withPhase process phase).Holds holder serial ↔ state.Holds holder serial := by
  simp only [State.Holds, State.withPhase, Function.update_of_ne other]

theorem not_holds_withPhase {state : State} {process serial : Nat} {phase : Phase}
    (free : ∀ serial, phase ≠ .created serial ∧ phase ≠ .inside serial) :
    ¬ (state.withPhase process phase).Holds process serial := by
  simp only [State.Holds, State.withPhase, Function.update_self]
  exact not_or.mpr (free serial)

/-- A process that moves to a phase without a file leaves the others' files alone. -/
theorem Guarded.withPhase {state : State} (guarded : Guarded state) (process : Nat)
    {phase : Phase} (free : ∀ serial, phase ≠ .created serial ∧ phase ≠ .inside serial) :
    Guarded (state.withPhase process phase) := by
  intro holder serial holds
  have other : holder ≠ process := by
    rintro rfl
    exact not_holds_withPhase free holds
  exact guarded holder serial ((holds_withPhase other).mp holds)

theorem guarded_unlinked {state : State} {process : Nat} {phase : Phase}
    (alone : ∀ holder serial, holder ≠ process → ¬ state.Holds holder serial)
    (free : ∀ serial, phase ≠ .created serial ∧ phase ≠ .inside serial) :
    Guarded ({ state with lock := none }.withPhase process phase) := by
  intro holder serial holds
  by_cases other : holder = process
  · subst other
    exact absurd holds (not_holds_withPhase free)
  · exact absurd ((holds_withPhase other).mp holds) (alone holder serial other)

theorem Guarded.created {state : State} (guarded : Guarded state) (missing : state.lock = none)
    (process : Nat) :
    Guarded ({ state with
      lock := some ⟨state.filesCreated, process, none, state.now⟩
      filesCreated := state.filesCreated + 1 }.withPhase process
        (.created state.filesCreated)) := by
  intro holder serial holds
  by_cases other : holder = process
  · subst other
    refine ⟨_, rfl, rfl, ?_⟩
    simpa [State.Holds, State.withPhase] using holds
  · obtain ⟨file, atPath, -⟩ := guarded holder serial ((holds_withPhase other).mp holds)
    simp [missing] at atPath

/-- Writing an owner keeps the file at the path. -/
theorem Guarded.written {state : State} (guarded : Guarded state) {process serial : Nat}
    (atPhase : state.phases process = .created serial) (owner : Owner) :
    Guarded ({ state with
      lock := state.lock.map (ownedBy serial owner state.now) }.withPhase process
        (.inside serial)) := by
  have kept : ∀ file, (ownedBy serial owner state.now file).creator = file.creator ∧
      (ownedBy serial owner state.now file).serial = file.serial := by
    intro file
    unfold ownedBy
    split <;> exact ⟨rfl, rfl⟩
  intro holder held holds
  have before : state.Holds holder held := by
    by_cases other : holder = process
    · subst other
      have same : serial = held := by simpa [State.Holds, State.withPhase] using holds
      exact Or.inl (same ▸ atPhase)
    · exact (holds_withPhase other).mp holds
  obtain ⟨file, atPath, creator, sameSerial⟩ := guarded holder held before
  refine ⟨ownedBy serial owner state.now file, ?_, (kept file).1.trans creator,
    (kept file).2.trans sameSerial⟩
  change state.lock.map _ = _
  rw [atPath]
  rfl

theorem processStep_guarded {state after : State} {process : Nat} {running : Process}
    {event : Event} (guarded : Guarded state) (allowed : RemovesAbandoned state event)
    (own : event.process? = some process)
    (stepped : processStep state process running (state.phases process) event = some after) :
    Guarded after := by
  generalize atPhase : state.phases process = phase at stepped
  unfold processStep at stepped
  split at stepped
  next =>
    obtain rfl := Option.some.inj stepped
    exact guarded.withPhase process fun serial => ⟨nofun, nofun⟩
  next deadline _ =>
    split at stepped
    next =>
      obtain rfl := Option.some.inj stepped
      exact guarded.withPhase process fun serial => ⟨nofun, nofun⟩
    next missing =>
      obtain rfl := Option.some.inj stepped
      exact guarded.created missing process
  next serial _ =>
    obtain rfl := Option.some.inj stepped
    exact guarded.written atPhase _
  next =>
    obtain rfl := Option.some.inj stepped
    exact guarded.withPhase process fun serial => ⟨nofun, nofun⟩
  next deadline _ =>
    split at stepped
    next =>
      obtain rfl := Option.some.inj stepped
      exact guarded.withPhase process fun serial => ⟨nofun, nofun⟩
    next =>
      split at stepped <;> obtain rfl := Option.some.inj stepped
      · exact guarded.withPhase process fun serial => ⟨nofun, nofun⟩
      · exact guarded.withPhase process fun serial => ⟨nofun, nofun⟩
  next deadline _ =>
    split at stepped <;> obtain rfl := Option.some.inj stepped
    · exact guarded.withPhase process fun serial => ⟨nofun, nofun⟩
    · exact guarded.withPhase process fun serial => ⟨nofun, nofun⟩
  next deadline owner _ =>
    split at stepped <;> obtain rfl := Option.some.inj stepped
    · exact guarded.withPhase process fun serial => ⟨nofun, nofun⟩
    · exact guarded.withPhase process fun serial => ⟨nofun, nofun⟩
  next deadline unlinker =>
    obtain rfl := Option.some.inj stepped
    apply guarded_unlinked
    · intro holder serial _ holds
      -- Whoever holds a file holds the one that is unlinked, which is abandoned.
      obtain ⟨file, atPath, rfl, rfl⟩ := guarded holder serial holds
      exact allowed unlinker rfl file atPath holds
    · exact fun serial => ⟨nofun, nofun⟩
  next deadline _ =>
    split at stepped <;> obtain rfl := Option.some.inj stepped
    · exact guarded.withPhase process fun serial => ⟨nofun, nofun⟩
    · exact guarded.withPhase process fun serial => ⟨nofun, nofun⟩
  next serial _ =>
    obtain rfl := Option.some.inj stepped
    apply guarded_unlinked
    · intro holder held other holds
      -- The file at the path is the one of the process that releases it.
      obtain ⟨file, atPath, creator, -⟩ := guarded process serial (Or.inr atPhase)
      obtain ⟨otherFile, otherAtPath, otherCreator, -⟩ := guarded holder held holds
      obtain rfl := Option.some.inj (atPath.symm.trans otherAtPath)
      exact other (otherCreator.symm.trans creator)
    · exact fun serial => ⟨nofun, nofun⟩
  next => simp at stepped

theorem lockStep_guarded {state after : State} {event : Event} (guarded : Guarded state)
    (allowed : RemovesAbandoned state event) (stepped : lockStep state event = some after) :
    Guarded after := by
  unfold lockStep at stepped
  split at stepped
  next =>
    split at stepped
    next =>
      obtain rfl := Option.some.inj stepped
      exact guarded
    next => simp at stepped
  next =>
    split at stepped
    next =>
      obtain rfl := Option.some.inj stepped
      exact guarded
    next => simp at stepped
  next process =>
    obtain rfl := Option.some.inj stepped
    exact (show Guarded { state with running := _ } from guarded).withPhase process
      fun serial => ⟨nofun, nofun⟩
  next =>
    obtain ⟨process, own, stepped⟩ := Option.bind_eq_some_iff.mp stepped
    obtain ⟨running, -, stepped⟩ := Option.bind_eq_some_iff.mp stepped
    exact processStep_guarded guarded allowed own stepped

/-- In every run whose stale removals unlink abandoned files only, at most one process is in the
protected block at a time. -/
theorem lock_exclusive {state : State}
    (reached : ReachableVia lockStep RemovesAbandoned initial state) :
    MutuallyExclusive state := by
  have guarded : Guarded state :=
    reached.invariant (fun process serial holds => by simp [State.Holds, initial] at holds)
      fun _ _ _ guarded allowed stepped => lockStep_guarded guarded allowed stepped
  exact guarded.exclusive

/-! ## Runs -/

/-- The steps of a process that finds the path free. -/
def takes (process : Nat) : List Event := [.create process, .writeOwner process]

/-- The steps of a process that finds an old lock with a dead owner, up to its `unlink`. -/
def condemns (process : Nat) : List Event :=
  [.create process, .stat process, .readOwner process, .testOwner process]

/-- The lock of a process that died is taken over. -/
def takeover : List Event :=
  [.spawn 10, .start 0] ++ takes 0 ++ [.die 0, .advance 100, .spawn 11, .start 1] ++ condemns 1 ++
    [.unlinkStale 1, .checkDeadline 1] ++ takes 1

/-- Two processes condemn the lock of a third, and the slower one unlinks the faster one's. -/
def doubleTakeover : List Event :=
  [.spawn 10, .start 0] ++ takes 0 ++
    [.die 0, .advance 100, .spawn 11, .spawn 12, .start 1, .start 2] ++ condemns 1 ++
    condemns 2 ++ [.unlinkStale 1, .checkDeadline 1] ++ takes 1 ++
    [.unlinkStale 2, .checkDeadline 2] ++ takes 2

def afterEvents (events : List Event) : State := (exec lockStep initial events).getD initial

theorem exec_afterEvents {events : List Event}
    (runs : (exec lockStep initial events).isSome = true) :
    exec lockStep initial events = some (afterEvents events) := by
  obtain ⟨state, ends⟩ := Option.isSome_iff_exists.mp runs
  simp [afterEvents, ends]

/-- The condition on stale removals, computed. -/
def removesAbandoned (state : State) (event : Event) : Bool :=
  match event, state.lock with
  | .unlinkStale _, some file =>
      match state.phases file.creator with
      | .created serial => serial ≠ file.serial
      | .inside serial => serial ≠ file.serial
      | _ => true
  | _, _ => true

theorem removesAbandoned_sound (state : State) (event : Event)
    (checked : removesAbandoned state event = true) : RemovesAbandoned state event := by
  rintro process rfl file atPath holds
  simp only [removesAbandoned, atPath] at checked
  rcases holds with atPhase | atPhase <;> simp [atPhase] at checked

theorem takeover_reachable :
    ReachableVia lockStep RemovesAbandoned initial (afterEvents takeover) := by
  apply @reachableVia_of_exec _ _ _ _ _ _ takeover
  · exact admits_of_checks removesAbandoned_sound (by decide +kernel)
  · exact exec_afterEvents (by decide +kernel)

theorem lock_exclusive_takeover :
    (ReachableVia lockStep RemovesAbandoned initial (afterEvents takeover) ∧
      (afterEvents takeover).phases 1 = .inside 1) ∧ MutuallyExclusive (afterEvents takeover) :=
  ⟨⟨takeover_reachable, by decide +kernel⟩, lock_exclusive takeover_reachable⟩

/-- Two processes are in the protected block after a double takeover. -/
theorem doubleTakeover_inside :
    ¬ ∀ state, Reachable lockStep initial state → MutuallyExclusive state := by
  intro claimed
  have reached : Reachable lockStep initial (afterEvents doubleTakeover) :=
    @reachable_of_exec _ _ _ _ _ doubleTakeover (exec_afterEvents (by decide +kernel))
  have same := claimed _ reached 1 2 1 2 (by decide +kernel) (by decide +kernel)
  exact absurd same (by decide)

end LlmWikiServe.VectorLock
