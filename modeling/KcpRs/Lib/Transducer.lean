import Mathlib.Data.List.Basic

/-!
# Transducers

A `Transducer` takes every call, changes its state and answers. There are two rules for its runs.
`Transducer.lockstep` compares two transducers call by call. `Transducer.met_or_pending` follows a
request that stays pending until some call meets it, while something else may hold `Along` the run;
with `Transducer.met_by` the last call meets it at the latest.
-/

namespace KcpRs.Lib

universe u v w

/-- A deterministic transition function that answers every call. -/
structure Transducer (State : Type u) (Call : Type v) (Answer : Type w) where
  respond : State → Call → State × Answer

namespace Transducer

variable {State State' : Type u} {Call Call' : Type v} {Answer Answer' : Type w}

/-- The calls one after the other. -/
def run (transducer : Transducer State Call Answer) (state : State) :
    List Call → State × List Answer
  | [] => (state, [])
  | call :: rest =>
      let (next, answer) := transducer.respond state call
      ((transducer.run next rest).1, answer :: (transducer.run next rest).2)

/-- A property of the states before and after every call of a run. -/
def Along (transducer : Transducer State Call Answer) (Holds : State → Prop) (state : State) :
    List Call → Prop
  | [] => Holds state
  | call :: rest => Holds state ∧ transducer.Along Holds (transducer.respond state call).1 rest

instance decidableAlong {Holds : State → Prop} [DecidablePred Holds]
    (transducer : Transducer State Call Answer) (state : State) (calls : List Call) :
    Decidable (transducer.Along Holds state calls) :=
  match calls with
  | [] => inferInstanceAs (Decidable (Holds state))
  | call :: rest =>
      have := @decidableAlong Holds _ transducer (transducer.respond state call).1 rest
      inferInstanceAs (Decidable (Holds state ∧ _))

variable {transducer : Transducer State Call Answer} {transducer' : Transducer State' Call' Answer'}
variable {state : State} {state' : State'} {calls : List Call} {calls' : List Call'}

/-- What every call keeps holds after a run. -/
theorem invariant {Holds : State → Prop}
    (kept : ∀ state call, Holds state → Holds (transducer.respond state call).1)
    (holds : Holds state) : Holds (transducer.run state calls).1 := by
  induction calls generalizing state with
  | nil => exact holds
  | cons call rest inductionHypothesis => exact inductionHypothesis (kept state call holds)

theorem along_true (calls : List Call) : transducer.Along (fun _ => True) state calls := by
  induction calls generalizing state with
  | nil => trivial
  | cons call rest inductionHypothesis => exact ⟨trivial, inductionHypothesis⟩

theorem Along.last {Holds : State → Prop} (along : transducer.Along Holds state calls) :
    Holds (transducer.run state calls).1 := by
  induction calls generalizing state with
  | nil => exact along
  | cons call rest inductionHypothesis => exact inductionHypothesis along.2

/-- Related transducers answer related calls in a related way. -/
theorem lockstep {Related : State → State' → Prop} {Calls : Call → Call' → Prop}
    {Answers : Answer → Answer' → Prop}
    (step : ∀ state state' call call', Related state state' → Calls call call' →
      Related (transducer.respond state call).1 (transducer'.respond state' call').1 ∧
        Answers (transducer.respond state call).2 (transducer'.respond state' call').2)
    (related : Related state state') (same : List.Forall₂ Calls calls calls') :
    Related (transducer.run state calls).1 (transducer'.run state' calls').1 ∧
      List.Forall₂ Answers (transducer.run state calls).2 (transducer'.run state' calls').2 := by
  induction same generalizing state state' with
  | nil => exact ⟨related, .nil⟩
  | cons head _ inductionHypothesis =>
      obtain ⟨next, answer⟩ := step _ _ _ _ related head
      obtain ⟨last, answers⟩ := inductionHypothesis next
      exact ⟨last, .cons answer answers⟩

/-- A request that every call either meets or leaves pending is met by some call of a run, or it is
pending at the end. -/
theorem met_or_pending {Pending Holds : State → Prop} {Meets : State → Call → Prop}
    (step : ∀ state, ∀ call ∈ calls, Holds state → Pending state →
      Meets state call ∨ Pending (transducer.respond state call).1)
    (along : transducer.Along Holds state calls) (pending : Pending state) :
    (∃ before call after, calls = before ++ call :: after ∧
      Meets (transducer.run state before).1 call) ∨ Pending (transducer.run state calls).1 := by
  induction calls generalizing state with
  | nil => exact .inr pending
  | cons call rest inductionHypothesis =>
      have later := fun state other member => step state other (List.mem_cons_of_mem call member)
      rcases step state call List.mem_cons_self along.1 pending with met | left
      · exact .inl ⟨[], call, rest, rfl, met⟩
      · rcases inductionHypothesis later along.2 left with ⟨before, other, after, rfl, met⟩ | last
        · exact .inl ⟨call :: before, other, after, rfl, met⟩
        · exact .inr last

/-- A request that the last call meets is met. -/
theorem met_by {Pending Holds : State → Prop} {Meets : State → Call → Prop} {last : Call}
    (step : ∀ state, ∀ call ∈ calls, Holds state → Pending state →
      Meets state call ∨ Pending (transducer.respond state call).1)
    (along : transducer.Along Holds state calls) (pending : Pending state)
    (closes : Pending (transducer.run state calls).1 → Meets (transducer.run state calls).1 last) :
    ∃ before call after, calls ++ [last] = before ++ call :: after ∧
      Meets (transducer.run state before).1 call := by
  rcases met_or_pending step along pending with ⟨before, call, after, rfl, met⟩ | pending
  · exact ⟨before, call, after ++ [last], by simp, met⟩
  · exact ⟨calls, last, [], rfl, closes pending⟩

end Transducer

end KcpRs.Lib
