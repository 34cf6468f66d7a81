import Mathlib.Data.List.Basic

/-!
# Machines driven by events

A `Machine` answers an event with its next state, or refuses it. Everything that a
scheduler, a network or a peer may decide is an event, so a statement about every
reachable state is a statement about every interleaving.

`Reach` is relative to a predicate `allow` on the state before a step and its event.
With `allow` always true it is plain reachability; other choices restrict attention
to the runs whose steps all meet a condition.
`exec` runs a list of events under a decidable condition and is what concrete runs are
evaluated with.
-/

namespace KcpRs.Lib

universe u v

/-- A deterministic transition function over nondeterministic events. -/
structure Machine (State : Type u) (Event : Type v) where
  Initial : State → Prop
  step : State → Event → Option State

namespace Machine

variable {State : Type u} {Event : Type v} (machine : Machine State Event)

/-- The states reached by steps that all meet `allow`. -/
inductive Reach (allow : State → Event → Prop) : State → Prop where
  | initial {state : State} (valid : machine.Initial state) : Reach allow state
  | step {state next : State} {event : Event} (prior : Reach allow state)
      (allowed : allow state event) (transition : machine.step state event = some next) :
      Reach allow next

/-- Unrestricted reachability. -/
abbrev Reachable : State → Prop :=
  machine.Reach fun _ _ => True

/-- Zero or more steps that all meet `allow`. -/
inductive Steps (allow : State → Event → Prop) (start : State) : State → Prop where
  | refl : Steps allow start start
  | step {state next : State} {event : Event} (prior : Steps allow start state)
      (allowed : allow state event) (transition : machine.step state event = some next) :
      Steps allow start next

/-- Run a list of events, refusing as soon as one is refused or not permitted. -/
def exec (permits : State → Event → Bool) (state : State) : List Event → Option State
  | [] => some state
  | event :: rest =>
      if permits state event then
        (machine.step state event).bind fun next => exec permits next rest
      else none

variable {machine}

/-- What holds initially and is kept by every allowed step holds of every reached
state. The step may use that its source is reached. -/
theorem Reach.invariant {allow : State → Event → Prop} (Invariant : State → Prop)
    (initial : ∀ state, machine.Initial state → Invariant state)
    (preserved : ∀ state event next, machine.Reach allow state → Invariant state →
      allow state event → machine.step state event = some next → Invariant next)
    {state : State} (reach : machine.Reach allow state) : Invariant state := by
  induction reach with
  | initial valid => exact initial _ valid
  | step prior allowed transition inductionHypothesis =>
      exact preserved _ _ _ prior inductionHypothesis allowed transition

/-- Steps prolong a run. -/
theorem Reach.steps {allow : State → Event → Prop} {state next : State}
    (reach : machine.Reach allow state) (steps : machine.Steps allow state next) :
    machine.Reach allow next := by
  induction steps with
  | refl => exact reach
  | step _ allowed transition inductionHypothesis =>
      exact .step inductionHypothesis allowed transition

/-- Executing permitted events is a run. -/
theorem reach_of_exec {allow : State → Event → Prop} {permits : State → Event → Bool}
    (permitted : ∀ state event, permits state event → allow state event) {state final : State}
    {events : List Event} (reach : machine.Reach allow state)
    (executed : machine.exec permits state events = some final) : machine.Reach allow final := by
  induction events generalizing state with
  | nil =>
      cases executed
      exact reach
  | cons event rest inductionHypothesis =>
      unfold exec at executed
      split at executed
      · rename_i holds
        obtain ⟨next, transition, executed⟩ := Option.bind_eq_some_iff.1 executed
        exact inductionHypothesis (.step reach (permitted _ _ holds) transition) executed
      · cases executed

/-- If every event keeps an invariant, raises no potential and lowers it when it counts, the events
that count are at most as many as it amounts to. -/
theorem countP_le_of_exec {permits : State → Event → Bool} (Invariant : State → Prop)
    (potential : State → Nat) (counts : Event → Bool)
    (lowers : ∀ state event next, Invariant state → permits state event →
      machine.step state event = some next → Invariant next ∧
        (if counts event then 1 else 0) + potential next ≤ potential state)
    {state final : State} {events : List Event} (holds : Invariant state)
    (executed : machine.exec permits state events = some final) :
    Invariant final ∧ events.countP counts + potential final ≤ potential state := by
  induction events generalizing state with
  | nil =>
      cases executed
      exact ⟨holds, by simp⟩
  | cons event rest inductionHypothesis =>
      unfold exec at executed
      split at executed
      · rename_i permitted
        obtain ⟨next, transition, executed⟩ := Option.bind_eq_some_iff.1 executed
        obtain ⟨later, less⟩ := lowers _ _ _ holds permitted transition
        obtain ⟨kept, bound⟩ := inductionHypothesis later executed
        refine ⟨kept, ?_⟩
        rw [List.countP_cons]
        omega
      · cases executed

/-- Events that all keep an invariant and lower a potential are at most as many as it amounts to. -/
theorem length_le_of_exec {permits : State → Event → Bool} (Invariant : State → Prop)
    (potential : State → Nat)
    (lowers : ∀ state event next, Invariant state → permits state event →
      machine.step state event = some next → Invariant next ∧ potential next < potential state)
    {state final : State} {events : List Event} (holds : Invariant state)
    (executed : machine.exec permits state events = some final) :
    Invariant final ∧ events.length + potential final ≤ potential state := by
  have every : events.countP (fun _ => true) = events.length := congrFun List.countP_true events
  rw [← every]
  refine countP_le_of_exec Invariant potential _ (fun state event next valid permitted stepped => ?_)
    holds executed
  obtain ⟨kept, less⟩ := lowers state event next valid permitted stepped
  exact ⟨kept, by rw [if_pos rfl]; omega⟩

end Machine
end KcpRs.Lib
