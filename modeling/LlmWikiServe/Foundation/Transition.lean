import Mathlib

/-!
# Runs of a transition system

A step function picks the successor of a state under an event, or refuses the
event.  Whatever an environment or a scheduler may choose is part of the event.
-/

namespace LlmWikiServe.Transition

universe u v

variable {State : Type u} {Event : Type v}

/-- States reached from `start` by steps that all satisfy `allowed`. -/
inductive ReachableVia (step : State → Event → Option State)
    (allowed : State → Event → Prop) (start : State) : State → Prop where
  | refl : ReachableVia step allowed start start
  | tail {before after : State} (event : Event) :
      ReachableVia step allowed start before →
      allowed before event →
      step before event = some after →
      ReachableVia step allowed start after

/-- States reached by arbitrary steps. -/
abbrev Reachable (step : State → Event → Option State) (start : State) : State → Prop :=
  ReachableVia step (fun _ _ => True) start

variable {step : State → Event → Option State} {allowed : State → Event → Prop}
  {start state : State}

theorem ReachableVia.invariant {Invariant : State → Prop}
    (reached : ReachableVia step allowed start state) (initially : Invariant start)
    (preserved : ∀ before event after, Invariant before → allowed before event →
      step before event = some after → Invariant after) :
    Invariant state := by
  induction reached with
  | refl => exact initially
  | tail event _ permitted stepped inductionHypothesis =>
      exact preserved _ event _ inductionHypothesis permitted stepped

theorem ReachableVia.trans {middle : State}
    (first : ReachableVia step allowed start middle)
    (second : ReachableVia step allowed middle state) :
    ReachableVia step allowed start state := by
  induction second with
  | refl => exact first
  | tail event _ permitted stepped inductionHypothesis =>
      exact .tail event inductionHypothesis permitted stepped

/-- Follow a list of events, stopping at the first refused one. -/
def exec (step : State → Event → Option State) : State → List Event → Option State
  | state, [] => some state
  | state, event :: rest => (step state event).bind fun next => exec step next rest

def Admits (step : State → Event → Option State) (allowed : State → Event → Prop) :
    State → List Event → Prop
  | _, [] => True
  | state, event :: rest =>
      allowed state event ∧ ∀ next, step state event = some next → Admits step allowed next rest

theorem reachableVia_of_exec {events : List Event} (admitted : Admits step allowed start events)
    (run : exec step start events = some state) : ReachableVia step allowed start state := by
  induction events generalizing start with
  | nil =>
      simp only [exec, Option.some.injEq] at run
      subst run
      exact .refl
  | cons event rest inductionHypothesis =>
      simp only [exec, Option.bind_eq_some_iff] at run
      rcases run with ⟨next, stepped, remaining⟩
      have firstStep : ReachableVia step allowed start next :=
        .tail event .refl admitted.1 stepped
      exact firstStep.trans (inductionHypothesis (admitted.2 next stepped) remaining)

/-- A decidable condition holds of the states an event list passes through. -/
def checks (step : State → Event → Option State) (check : State → Event → Bool) :
    State → List Event → Bool
  | _, [] => true
  | state, event :: rest =>
      check state event && (step state event).all fun next => checks step check next rest

theorem admits_of_checks {check : State → Event → Bool}
    (sound : ∀ state event, check state event = true → allowed state event) {events : List Event}
    (checked : checks step check start events = true) : Admits step allowed start events := by
  induction events generalizing start with
  | nil => trivial
  | cons event rest inductionHypothesis =>
      obtain ⟨first, later⟩ := Bool.and_eq_true_iff.mp checked
      refine ⟨sound start event first, fun next stepped => inductionHypothesis ?_⟩
      simpa [stepped] using later

theorem admits_of_forall {events : List Event}
    (all : ∀ state, ∀ event ∈ events, allowed state event) : Admits step allowed start events := by
  induction events generalizing start with
  | nil => trivial
  | cons event rest inductionHypothesis =>
      exact ⟨all start event List.mem_cons_self, fun _ _ => inductionHypothesis
        fun state other among => all state other (List.mem_cons_of_mem _ among)⟩

theorem admits_true (events : List Event) : Admits step (fun _ _ => True) start events :=
  admits_of_forall fun _ _ _ => trivial

theorem reachable_of_exec {events : List Event} (run : exec step start events = some state) :
    Reachable step start state :=
  reachableVia_of_exec (admits_true events) run

end LlmWikiServe.Transition
