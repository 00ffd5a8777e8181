import LlmWikiServe.GitSync

/-!
# Single flight

Callers of `ensure_fresh` share one attempt at a time.  What a caller does under the lock of the
syncer is one step, the clock being read before and after the attempt is decided on.
-/

namespace LlmWikiServe.GitSync

open Transition

/-- How `_sync_once` ends. -/
inductive SyncOutcome where
  | finished (changed : Bool)
  | refused (message : Text) (state : GitSyncState)
  | timedOut
  | unexpected (kind : Text)

/-- Where a sync thread is in `_run_sync`. -/
inductive ThreadPhase where
  | absent
  /-- Before the `try`. -/
  | starting
  | syncing
  /-- In the `finally`, before the lock is taken. -/
  | clearing
  /-- Before the event is set. -/
  | signalling
  | ended
  deriving DecidableEq

inductive CallerPhase where
  | outside
  | waiting (event : Nat)
  deriving DecidableEq

/-- The syncer with its threads and callers; events are numbered as they are created. -/
structure Flight where
  clock : ℚ := 0
  inFlight : Option Nat := none
  lastAttempt : Option ℚ := none
  lastAttemptAt : Option ℚ := none
  lastSuccessAt : Option ℚ := none
  lastError : Option Text := none
  state : GitSyncState := .idle
  created : Nat := 0
  isSet : Nat → Bool := fun _ => false
  threads : Nat → ThreadPhase := fun _ => .absent
  callers : Nat → CallerPhase := fun _ => .outside
  /-- The start times of the attempts, the latest first. -/
  attempts : List ℚ := []
  /-- What callers got, `none` for an exception. -/
  answers : List (Nat × Option Bool) := []

inductive FlightEvent where
  | tick (now : ℚ)
  /-- The locked block of `ensure_fresh`, with the two readings of the clock and whether
  `Thread.start` returns. -/
  | ensureFresh (caller : Nat) (checked marked : ℚ) (starts : Bool)
  | wakes (caller : Nat)
  | givesUp (caller : Nat)
  | begins (event : Nat) (wallClock : ℚ)
  | ends (event : Nat) (outcome : SyncOutcome) (wallClock : ℚ)
  | clears (event : Nat)
  | signals (event : Nat)

section Steps

variable [Messages] (config : GitSyncConfig)

omit [Messages] in
def isDue (flight : Flight) (now : ℚ) : Bool :=
  match flight.lastAttempt with
  | none => true
  | some last => decide (config.cooldownSeconds ≤ now - last)

def recordFailure (message : Text) (state : GitSyncState) (flight : Flight) : Flight :=
  { flight with lastError := some (Messages.sanitize message), state := state }

/-- What `_run_sync` notes of an outcome. -/
def recordOutcome (outcome : SyncOutcome) (wallClock : ℚ) (flight : Flight) : Flight :=
  match outcome with
  | .finished changed =>
      { flight with
        lastError := none
        lastSuccessAt := some wallClock
        state := if changed then .updated else .synced }
  | .refused message state => recordFailure message state flight
  | .timedOut => recordFailure Messages.timedOut .error flight
  | .unexpected kind => recordFailure (Messages.unexpected kind) .error flight

omit [Messages] in
def Flight.setThread (flight : Flight) (event : Nat) (phase : ThreadPhase) : Flight :=
  { flight with threads := Function.update flight.threads event phase }

omit [Messages] in
def Flight.setCaller (flight : Flight) (caller : Nat) (phase : CallerPhase) : Flight :=
  { flight with callers := Function.update flight.callers caller phase }

omit [Messages] in
def Flight.answer (flight : Flight) (caller : Nat) (answer : Option Bool) : Flight :=
  { flight with answers := (caller, answer) :: flight.answers }

omit [Messages] in
def Flight.attempt (flight : Flight) (caller : Nat) (marked : ℚ) (starts : Bool) : Flight :=
  let event := flight.created
  let noted : Flight :=
    { flight with
      clock := marked
      inFlight := some event
      lastAttempt := some marked
      created := event + 1
      attempts := marked :: flight.attempts }
  if starts then (noted.setThread event .starting).setCaller caller (.waiting event)
  else noted.answer caller none

omit [Messages] in
def ensureFresh (flight : Flight) (caller : Nat) (checked marked : ℚ) (starts : Bool) : Flight :=
  match flight.inFlight with
  | some event => flight.setCaller caller (.waiting event)
  | none =>
      if isDue config flight checked then flight.attempt caller marked starts
      else { flight with clock := checked }.answer caller (some flight.lastError.isSome)

def flightStep (flight : Flight) : FlightEvent → Option Flight
  | .tick now => if flight.clock ≤ now then some { flight with clock := now } else none
  | .ensureFresh caller checked marked starts =>
      if flight.callers caller = .outside ∧ flight.clock ≤ checked ∧ checked ≤ marked then
        some (ensureFresh config flight caller checked marked starts)
      else none
  | .wakes caller =>
      match flight.callers caller with
      | .waiting event =>
          if flight.isSet event then
            some ((flight.setCaller caller .outside).answer caller (some flight.lastError.isSome))
          else none
      | .outside => none
  | .givesUp caller =>
      match flight.callers caller with
      | .waiting event =>
          if flight.isSet event then none
          else some ((flight.setCaller caller .outside).answer caller (some true))
      | .outside => none
  | .begins event wallClock =>
      if flight.threads event = .starting then
        some ({ flight with lastAttemptAt := some wallClock }.setThread event .syncing)
      else none
  | .ends event outcome wallClock =>
      if flight.threads event = .syncing then
        some ((recordOutcome outcome wallClock flight).setThread event .clearing)
      else none
  | .clears event =>
      if flight.threads event = .clearing then
        some ({ flight with inFlight := none }.setThread event .signalling)
      else none
  | .signals event =>
      if flight.threads event = .signalling then
        some ({ flight with isSet := Function.update flight.isSet event true }.setThread event
          .ended)
      else none

end Steps

/-! ## The invariant -/

section Invariant

/-- The thread holds the flag. -/
def ThreadPhase.Running (phase : ThreadPhase) : Prop :=
  phase = .starting ∨ phase = .syncing ∨ phase = .clearing

/-- The flag and the running thread go together, and attempts keep their distance. -/
structure SingleFlight (cooldown : ℚ) (flight : Flight) : Prop where
  running : ∀ event, flight.inFlight = some event → (flight.threads event).Running
  flagged : ∀ event, (flight.threads event).Running → flight.inFlight = some event
  unused : ∀ event, flight.created ≤ event → flight.threads event = .absent
  last : flight.lastAttempt = flight.attempts.head?
  past : ∀ last, flight.lastAttempt = some last → last ≤ flight.clock
  spaced : flight.attempts.IsChain fun later earlier => earlier + cooldown ≤ later

variable [Messages] {config : GitSyncConfig} {flight after : Flight}

omit [Messages] in
theorem ThreadPhase.Running.present {phase : ThreadPhase} (running : phase.Running) :
    phase ≠ .absent := by
  rcases running with rfl | rfl | rfl <;> simp

omit [Messages] in
/-- A thread moves between two phases that hold the flag. -/
theorem SingleFlight.advance {cooldown : ℚ} (single : SingleFlight cooldown flight) {event : Nat}
    {phase : ThreadPhase} (before : (flight.threads event).Running) (now : phase.Running) :
    SingleFlight cooldown (flight.setThread event phase) := by
  refine ⟨?_, ?_, ?_, single.last, single.past, single.spaced⟩
  · intro other inFlight
    obtain rfl : event = other :=
      Option.some.inj ((single.flagged event before).symm.trans inFlight)
    simpa [Flight.setThread] using now
  · intro other running
    by_cases same : other = event
    · exact same ▸ single.flagged event before
    · exact single.flagged other (by simpa [Flight.setThread, same] using running)
  · intro other unused
    have different : other ≠ event := fun same =>
      before.present (single.unused event (same ▸ unused))
    simpa [Flight.setThread, different] using single.unused other unused

omit [Messages] in
/-- The thread that holds the flag gives it up. -/
theorem SingleFlight.release {cooldown : ℚ} (single : SingleFlight cooldown flight) {event : Nat}
    (before : (flight.threads event).Running) :
    SingleFlight cooldown ({ flight with inFlight := none }.setThread event .signalling) := by
  refine ⟨?_, ?_, ?_, single.last, single.past, single.spaced⟩
  · intro other inFlight
    cases inFlight
  · intro other running
    by_cases same : other = event
    · simp [Flight.setThread, same, ThreadPhase.Running] at running
    · have holder := single.flagged other (by simpa [Flight.setThread, same] using running)
      have event_ := single.flagged event before
      exact absurd (Option.some.inj (holder.symm.trans event_)) same
  · intro other unused
    have different : other ≠ event := fun same =>
      before.present (single.unused event (same ▸ unused))
    simpa [Flight.setThread, different] using single.unused other unused

omit [Messages] in
/-- A thread without the flag goes on. -/
theorem SingleFlight.finish {cooldown : ℚ} (single : SingleFlight cooldown flight) {event : Nat}
    (before : flight.threads event = .signalling) :
    SingleFlight cooldown (flight.setThread event .ended) := by
  refine ⟨?_, ?_, ?_, single.last, single.past, single.spaced⟩
  · intro other inFlight
    have running := single.running other inFlight
    have different : other ≠ event := by
      rintro rfl
      simp [before, ThreadPhase.Running] at running
    simpa [Flight.setThread, different] using running
  · intro other running
    by_cases same : other = event
    · simp [Flight.setThread, same, ThreadPhase.Running] at running
    · exact single.flagged other (by simpa [Flight.setThread, same] using running)
  · intro other unused
    have different : other ≠ event := by
      rintro rfl
      simp [single.unused other unused] at before
    simpa [Flight.setThread, different] using single.unused other unused

omit [Messages] in
/-- A due attempt whose thread starts takes the free flag. -/
theorem SingleFlight.attempt (single : SingleFlight config.cooldownSeconds flight)
    {checked marked : ℚ} (free : flight.inFlight = none) (due : isDue config flight checked = true)
    (later : flight.clock ≤ checked ∧ checked ≤ marked) (caller : Nat) :
    SingleFlight config.cooldownSeconds (flight.attempt caller marked true) := by
  have nobody : ∀ event, ¬ (flight.threads event).Running := by
    intro event running
    rw [single.flagged event running] at free
    cases free
  refine ⟨?_, ?_, ?_, rfl, ?_, ?_⟩
  · intro event inFlight
    obtain rfl : flight.created = event := Option.some.inj inFlight
    simp [Flight.attempt, Flight.setThread, Flight.setCaller, ThreadPhase.Running]
  · intro event running
    by_cases same : event = flight.created
    · exact same ▸ rfl
    · exact absurd (by simpa [Flight.attempt, Flight.setThread, Flight.setCaller, same]
        using running) (nobody event)
  · intro event unused
    have beyond : flight.created + 1 ≤ event := unused
    have different : event ≠ flight.created := by omega
    simpa [Flight.attempt, Flight.setThread, Flight.setCaller, different] using
      single.unused event (by omega)
  · intro last isLast
    obtain rfl : marked = last := Option.some.inj isLast
    exact le_rfl
  · refine List.IsChain.cons single.spaced fun earlier isEarlier => ?_
    have last : flight.lastAttempt = some earlier := single.last.trans isEarlier
    rw [isDue, last] at due
    have waited : config.cooldownSeconds ≤ checked - earlier := of_decide_eq_true due
    linarith [later.2]

theorem SingleFlight.step (single : SingleFlight config.cooldownSeconds flight)
    {event : FlightEvent}
    (starts : ∀ caller checked marked, event ≠ .ensureFresh caller checked marked false)
    (stepped : flightStep config flight event = some after) :
    SingleFlight config.cooldownSeconds after := by
  cases event with
  | tick now =>
      simp only [flightStep] at stepped
      split at stepped
      next later =>
        obtain rfl := Option.some.inj stepped
        exact { single with past := fun last isLast => (single.past last isLast).trans later }
      next => cases stepped
  | ensureFresh caller checked marked starting =>
      cases starting with
      | false => exact absurd rfl (starts caller checked marked)
      | true =>
          simp only [flightStep] at stepped
          split at stepped
          next readings =>
            obtain rfl := Option.some.inj stepped
            unfold ensureFresh
            split
            next => exact { single with }
            next free =>
              split
              next due => exact single.attempt free due readings.2 caller
              next =>
                exact { single with
                  past := fun last isLast => (single.past last isLast).trans readings.2.1 }
          next => cases stepped
  | wakes caller =>
      simp only [flightStep] at stepped
      split at stepped
      next =>
        split at stepped
        next =>
          obtain rfl := Option.some.inj stepped
          exact { single with }
        next => cases stepped
      next => cases stepped
  | givesUp caller =>
      simp only [flightStep] at stepped
      split at stepped
      next =>
        split at stepped
        next => cases stepped
        next =>
          obtain rfl := Option.some.inj stepped
          exact { single with }
      next => cases stepped
  | begins event wallClock =>
      simp only [flightStep] at stepped
      split at stepped
      next starting =>
        obtain rfl := Option.some.inj stepped
        exact @SingleFlight.advance { flight with lastAttemptAt := some wallClock } _ { single with }
          event .syncing (.inl starting) (.inr (.inl rfl))
      next => cases stepped
  | ends event outcome wallClock =>
      simp only [flightStep] at stepped
      split at stepped
      next syncing =>
        obtain rfl := Option.some.inj stepped
        have noted : SingleFlight config.cooldownSeconds
            (recordOutcome outcome wallClock flight) := by
          cases outcome <;> exact { single with }
        have stays : (recordOutcome outcome wallClock flight).threads event = .syncing := by
          cases outcome <;> exact syncing
        exact noted.advance (.inr (.inl stays)) (.inr (.inr rfl))
      next => cases stepped
  | clears event =>
      simp only [flightStep] at stepped
      split at stepped
      next clearing =>
        obtain rfl := Option.some.inj stepped
        exact single.release (.inr (.inr clearing))
      next => cases stepped
  | signals event =>
      simp only [flightStep] at stepped
      split at stepped
      next signalling =>
        obtain rfl := Option.some.inj stepped
        have noted : SingleFlight config.cooldownSeconds
            { flight with isSet := Function.update flight.isSet event true } := { single with }
        exact noted.finish signalling
      next => cases stepped

end Invariant

/-! ## Every run -/

section Runs

variable [Messages] (config : GitSyncConfig)

omit [Messages] in
/-- `Thread.start` returns. -/
def ThreadStarts (_ : Flight) (event : FlightEvent) : Prop :=
  ∀ caller checked marked, event ≠ .ensureFresh caller checked marked false

def remaining (event : Nat) (outcome : SyncOutcome) (wallClock : ℚ) :
    ThreadPhase → List FlightEvent
  | .starting => [.begins event wallClock, .ends event outcome wallClock, .clears event]
  | .syncing => [.ends event outcome wallClock, .clears event]
  | .clearing => [.clears event]
  | _ => []

/-- The thread of an event runs, and its own steps clear the flag whatever the outcome. -/
def WillClear (flight : Flight) (event : Nat) : Prop :=
  (flight.threads event).Running ∧ ∀ outcome wallClock, ∃ after,
    exec (flightStep config) flight (remaining event outcome wallClock (flight.threads event)) =
      some after ∧ after.inFlight = none

def StartsWhenDue (flight : Flight) : Prop :=
  ∀ caller checked marked, flight.callers caller = .outside → flight.clock ≤ checked →
    checked ≤ marked → (∀ last, flight.lastAttempt = some last →
      last + config.cooldownSeconds ≤ checked) →
    ∃ after, flightStep config flight (.ensureFresh caller checked marked true) = some after ∧
      (after.threads flight.created).Running ∧ after.attempts = marked :: flight.attempts

/-- At most one sync runs, attempts keep their distance, and the flag is held by a thread that
clears it or is free for the next due call. -/
structure WellFlown (flight : Flight) : Prop where
  single : ∀ first second, (flight.threads first).Running → (flight.threads second).Running →
    first = second
  spaced : flight.attempts.IsChain fun later earlier => earlier + config.cooldownSeconds ≤ later
  cleared : ∀ event, flight.inFlight = some event → WillClear config flight event
  free : flight.inFlight = none → StartsWhenDue config flight

variable {config} {flight : Flight}

theorem willClear_of_running {event : Nat} (running : (flight.threads event).Running) :
    WillClear config flight event := by
  refine ⟨running, fun outcome wallClock => ?_⟩
  have kept : ∀ noted : Flight, (recordOutcome outcome wallClock noted).threads = noted.threads := by
    intro noted
    cases outcome <;> rfl
  rcases running with starting | syncing | clearing
  · simp [remaining, exec, flightStep, starting, Flight.setThread, kept]
  · simp [remaining, exec, flightStep, syncing, Flight.setThread]
  · simp [remaining, exec, flightStep, clearing, Flight.setThread]

theorem startsWhenDue_of_free (free : flight.inFlight = none) : StartsWhenDue config flight := by
  intro caller checked marked outside first second waited
  have due : isDue config flight checked = true := by
    unfold isDue
    cases last : flight.lastAttempt with
    | none => rfl
    | some time => exact decide_eq_true (by linarith [waited time last])
  refine ⟨flight.attempt caller marked true, ?_, ?_, rfl⟩
  · simp [flightStep, outside, first, second, ensureFresh, free, due]
  · simp [Flight.attempt, Flight.setThread, Flight.setCaller, ThreadPhase.Running]

/-- In every run whose threads start the syncer flies one attempt at a time. -/
theorem flight_wellFlown {start : ℚ}
    (reached : ReachableVia (flightStep config) ThreadStarts { clock := start } flight) :
    WellFlown config flight := by
  have idle : SingleFlight config.cooldownSeconds { clock := start } := by
    constructor <;> simp [ThreadPhase.Running]
  have single : SingleFlight config.cooldownSeconds flight :=
    @ReachableVia.invariant _ _ _ _ _ _ (SingleFlight config.cooldownSeconds) reached idle
      fun _ _ _ single starts stepped => single.step starts stepped
  refine ⟨fun first second firstRuns secondRuns => ?_, single.spaced, fun event inFlight => ?_,
    startsWhenDue_of_free⟩
  · exact Option.some.inj ((single.flagged first firstRuns).symm.trans
      (single.flagged second secondRuns))
  · exact willClear_of_running (single.running event inFlight)

/-- A flag without a thread stays set and no further attempt is made. -/
structure Stuck (attempts : List ℚ) (flight : Flight) : Prop where
  flagged : ∃ event, flight.inFlight = some event
  nobody : ∀ event, flight.threads event = .absent
  stopped : flight.attempts = attempts

theorem Stuck.step {attempts : List ℚ} {after : Flight} {event : FlightEvent}
    (stuck : Stuck attempts flight) (stepped : flightStep config flight event = some after) :
    Stuck attempts after := by
  obtain ⟨holder, flagged⟩ := stuck.flagged
  cases event with
  | tick now =>
      simp only [flightStep] at stepped
      split at stepped
      next =>
        obtain rfl := Option.some.inj stepped
        exact { stuck with }
      next => cases stepped
  | ensureFresh caller checked marked starts =>
      simp only [flightStep] at stepped
      split at stepped
      next =>
        obtain rfl := Option.some.inj stepped
        rw [ensureFresh, flagged]
        exact { stuck with }
      next => cases stepped
  | wakes caller =>
      simp only [flightStep] at stepped
      split at stepped
      next =>
        split at stepped
        next =>
          obtain rfl := Option.some.inj stepped
          exact { stuck with }
        next => cases stepped
      next => cases stepped
  | givesUp caller =>
      simp only [flightStep] at stepped
      split at stepped
      next =>
        split at stepped
        next => cases stepped
        next =>
          obtain rfl := Option.some.inj stepped
          exact { stuck with }
      next => cases stepped
  | begins event wallClock => simp [flightStep, stuck.nobody event] at stepped
  | ends event outcome wallClock => simp [flightStep, stuck.nobody event] at stepped
  | clears event => simp [flightStep, stuck.nobody event] at stepped
  | signals event => simp [flightStep, stuck.nobody event] at stepped

end Runs

/-! ## Two runs -/

section Sample

attribute [local instance] sampleMessages

/-- A caller starts an attempt, which succeeds. -/
def oneAttempt : List FlightEvent :=
  [.ensureFresh 0 0 0 true, .begins 0 0, .ends 0 (.finished true) 0, .clears 0, .signals 0,
    .wakes 0]

theorem flight_wellFlown_oneAttempt :
    ∃ flight, exec (flightStep {}) {} oneAttempt = some flight ∧ WellFlown {} flight := by
  have starts : ∀ flight, ∀ event ∈ oneAttempt, ThreadStarts flight event := by
    intro _ event among caller checked marked same
    subst same
    simp [oneAttempt] at among
  have runs : (exec (flightStep {}) {} oneAttempt).isSome := by decide +kernel
  obtain ⟨flight, ran⟩ := Option.isSome_iff_exists.mp runs
  exact ⟨flight, ran, @flight_wellFlown _ {} flight 0
    (reachableVia_of_exec (admits_of_forall starts) ran)⟩

/-- `Thread.start` raises: the flag is set without a thread, and no later step clears it. -/
theorem startRaises_stuck :
    ∃ flight, Reachable (flightStep {}) {} flight ∧ flight.inFlight = some 0 ∧
      ¬ WellFlown {} flight ∧
      ∀ later, Reachable (flightStep {}) flight later →
        later.inFlight ≠ none ∧ later.attempts = [0] := by
  let stopped : Flight := Flight.attempt {} 0 0 false
  have stuck : Stuck [0] stopped := ⟨⟨0, rfl⟩, fun _ => rfl, rfl⟩
  refine ⟨stopped, .tail (.ensureFresh 0 0 0 false) .refl trivial rfl, rfl, ?_, ?_⟩
  · intro flown
    exact (flown.cleared 0 rfl).1.present rfl
  · intro later reached
    have still : Stuck [0] later :=
      @ReachableVia.invariant _ _ _ _ _ _ (Stuck [0]) reached stuck
        fun _ _ _ stuck _ stepped => stuck.step stepped
    obtain ⟨event, flagged⟩ := still.flagged
    exact ⟨by simp [flagged], still.stopped⟩

end Sample

end LlmWikiServe.GitSync
