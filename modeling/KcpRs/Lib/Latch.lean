import Mathlib.Data.List.Basic
import Mathlib.Algebra.BigOperators.Group.List.Basic
import Mathlib.Algebra.GroupWithZero.Nat

/-!
# Waiting for workers to leave

Workers are counted. One that leaves takes itself off the count and then gives one notification: a
waiter gets it, or it is stored, and there is room for one. A waiter tests the count, and when
workers are left it registers for a notification, for which a stored one will do, and tests again.

A notification can be given between the test and the registration. As long as nobody has returned
it is not lost (`Awake`): a waiter that waits has a worker, a notification or another waiter that
will be heard of. When no worker is left somebody returns (`Awake.returned`). Who waits then and did
not get the last notification waits for good (`Move.waiting_stays`).
-/

namespace KcpRs.Lib

/-- Where a waiter is. -/
inductive Waiter where
  /-- It is about to test the count. -/
  | testing
  /-- There were workers, and it is about to register for a notification. -/
  | registering
  | waiting
  | returned
deriving DecidableEq

/-- The counted workers, those that are off the count and have to give their notification, the
stored notification and the waiters. -/
structure Latch where
  working : Nat := 0
  leaving : Nat := 0
  permit : Bool := false
  waiters : List Waiter := []

namespace Latch

/-- What workers and waiters do. -/
inductive Move (latch : Latch) : Latch → Prop where
  | arrive : Move latch { latch with working := latch.working + 1 }
  | leave (some : 0 < latch.working) :
      Move latch { latch with working := latch.working - 1, leaving := latch.leaving + 1 }
  | store (some : 0 < latch.leaving) (nobody : .waiting ∉ latch.waiters) :
      Move latch { latch with leaving := latch.leaving - 1, permit := true }
  | wake {index : Nat} (some : 0 < latch.leaving)
      (waits : latch.waiters[index]? = Option.some .waiting) :
      Move latch { latch with
        leaving := latch.leaving - 1, waiters := latch.waiters.set index .testing }
  | enter : Move latch { latch with waiters := latch.waiters ++ [.testing] }
  | test {index : Nat} (tests : latch.waiters[index]? = some .testing) :
      Move latch { latch with
        waiters := latch.waiters.set index (if latch.working = 0 then .returned else .registering) }
  | take {index : Nat} (registers : latch.waiters[index]? = some .registering)
      (stored : latch.permit) :
      Move latch { latch with permit := false, waiters := latch.waiters.set index .testing }
  | register {index : Nat} (registers : latch.waiters[index]? = some .registering)
      (empty : latch.permit = false) :
      Move latch { latch with waiters := latch.waiters.set index .waiting }

section Set

variable {α : Type*} {items : List α} {index : Nat} {old item other : α}

theorem mem_set_self (there : items[index]? = some old) : item ∈ items.set index item :=
  List.mem_set (List.getElem?_eq_some_iff.1 there).1 item

/-- The other items stay. -/
theorem mem_set_of_ne (there : items[index]? = some old) (different : other ≠ old)
    (member : other ∈ items) : other ∈ items.set index item := by
  obtain ⟨place, here⟩ := List.mem_iff_getElem?.1 member
  have apart : index ≠ place := by
    rintro rfl
    exact different (Option.some.inj (here.symm.trans there))
  exact List.mem_iff_getElem?.2 ⟨place, by rw [List.getElem?_set_ne apart, here]⟩

/-- An item with what stands before and behind it. -/
theorem exists_split (there : items[index]? = some old) : ∃ before after,
    items = before ++ old :: after ∧ ∀ item, items.set index item = before ++ item :: after := by
  obtain ⟨bound, rfl⟩ := List.getElem?_eq_some_iff.1 there
  refine ⟨items.take index, items.drop (index + 1), ?_, fun item => ?_⟩
  · rw [List.getElem_cons_drop, List.take_append_drop]
  · rw [List.set_eq_take_append_cons_drop, if_pos bound]

/-- A count after an item has been exchanged. -/
theorem countP_set_add (there : items[index]? = some old) (p : α → Bool) (item : α) :
    (items.set index item).countP p + (if p old then 1 else 0) =
      items.countP p + if p item then 1 else 0 := by
  obtain ⟨before, after, split, exchanged⟩ := exists_split there
  rw [exchanged, split, List.countP_append, List.countP_append, List.countP_cons, List.countP_cons]
  omega

/-- A sum after an item has been exchanged. -/
theorem sum_set_add (there : items[index]? = some old) (weight : α → Nat) (item : α) :
    ((items.set index item).map weight).sum + weight old = (items.map weight).sum + weight item := by
  obtain ⟨before, after, split, exchanged⟩ := exists_split there
  rw [exchanged, split, List.map_append, List.map_append, List.sum_append, List.sum_append,
    List.map_cons, List.map_cons, List.sum_cons, List.sum_cons]
  omega

end Set

variable {latch latch' : Latch}

/-- Nobody waits while a notification is stored, and before the first return something will be
heard of when a waiter has found workers. -/
structure Awake (latch : Latch) : Prop where
  stored : latch.permit → .waiting ∉ latch.waiters
  heard : .registering ∈ latch.waiters ∨ .waiting ∈ latch.waiters →
    0 < latch.working ∨ 0 < latch.leaving ∨ latch.permit ∨ .testing ∈ latch.waiters ∨
      .returned ∈ latch.waiters

theorem awake_empty : Awake {} := by
  constructor
  · intro permit
    cases permit
  · rintro (member | member) <;> cases member

theorem Move.awake (move : latch.Move latch') (awake : latch.Awake) : latch'.Awake := by
  obtain ⟨stored, heard⟩ := awake
  cases move with
  | arrive => exact ⟨stored, fun _ => .inl (Nat.succ_pos _)⟩
  | leave => exact ⟨stored, fun _ => .inr (.inl (Nat.succ_pos _))⟩
  | store _ nobody => exact ⟨fun _ => nobody, fun _ => .inr (.inr (.inl rfl))⟩
  | wake _ waits =>
      constructor
      · intro permit
        exact absurd (List.mem_of_getElem? waits) (stored permit)
      · exact fun _ => .inr (.inr (.inr (.inl (mem_set_self waits))))
  | enter =>
      constructor
      · intro permit member
        rcases List.mem_append.1 member with old | new
        · exact stored permit old
        · cases List.mem_singleton.1 new
      · exact fun _ => .inr (.inr (.inr (.inl (List.mem_append_right _ (List.mem_singleton_self _)))))
  | test tests =>
      constructor
      · intro permit member
        rcases List.mem_or_eq_of_mem_set member with old | new
        · exact stored permit old
        · split at new <;> cases new
      · intro _
        by_cases empty : latch.working = 0
        · rw [if_pos empty]
          exact .inr (.inr (.inr (.inr (mem_set_self tests))))
        · exact .inl (Nat.pos_of_ne_zero empty)
  | take registers =>
      constructor
      · intro permit
        cases permit
      · exact fun _ => .inr (.inr (.inr (.inl (mem_set_self registers))))
  | register registers empty =>
      constructor
      · intro permit
        rw [show latch.permit = true from permit] at empty
        cases empty
      · -- The waiter itself was not what somebody would hear of.
        intro _
        rcases heard (.inl (List.mem_of_getElem? registers)) with works | leaves | permit | tests | done
        · exact .inl works
        · exact .inr (.inl leaves)
        · exact .inr (.inr (.inl permit))
        · exact .inr (.inr (.inr (.inl (mem_set_of_ne registers (by decide) tests))))
        · exact .inr (.inr (.inr (.inr (mem_set_of_ne registers (by decide) done))))

/-- When the workers are gone and no waiter can go on, one has returned. -/
theorem Awake.returned (awake : latch.Awake) (idle : latch.working = 0) (silent : latch.leaving = 0)
    (halted : ∀ waiter ∈ latch.waiters, waiter = .waiting ∨ waiter = .returned)
    (some : latch.waiters ≠ []) : .returned ∈ latch.waiters := by
  obtain ⟨first, rest, equal⟩ := List.exists_cons_of_ne_nil some
  have member : first ∈ latch.waiters := by
    rw [equal]
    exact List.mem_cons_self
  rcases halted first member with rfl | rfl
  · rcases awake.heard (.inr member) with works | leaves | permit | tests | done
    · exact absurd works (by omega)
    · exact absurd leaves (by omega)
    · exact absurd member (awake.stored permit)
    · rcases halted _ tests with same | same <;> cases same
    · exact done
  · exact member

/-- Without workers a waiter that waits stays so until a worker arrives. -/
theorem Move.waiting_stays {index : Nat} (move : latch.Move latch') (idle : latch.working = 0)
    (silent : latch.leaving = 0) (waits : latch.waiters[index]? = some .waiting)
    (closed : latch'.working = 0) :
    latch'.leaving = 0 ∧ latch'.waiters[index]? = some .waiting := by
  have kept {other : Nat} {old new : Waiter} (there : latch.waiters[other]? = some old)
      (different : old ≠ .waiting) : (latch.waiters.set other new)[index]? = some .waiting := by
    have apart : other ≠ index := by
      rintro rfl
      exact different (Option.some.inj (there.symm.trans waits))
    rw [List.getElem?_set_ne apart, waits]
  cases move with
  | arrive => cases closed
  | leave works => omega
  | store leaves => omega
  | wake leaves => omega
  | enter => exact ⟨silent, List.getElem?_append_left (List.getElem?_eq_some_iff.1 waits).1 ▸ waits⟩
  | test tests => exact ⟨silent, kept tests (by decide)⟩
  | take registers => exact ⟨silent, kept registers (by decide)⟩
  | register registers => exact ⟨silent, kept registers (by decide)⟩

end Latch

end KcpRs.Lib
