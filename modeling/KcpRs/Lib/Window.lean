import Mathlib.Data.List.Forall2
import Mathlib.Data.List.Nodup
import Mathlib.Data.List.Pairwise
import Mathlib.Data.List.Perm.Subperm
import Mathlib.Data.List.Sort

/-!
# Items that stand for the numbers of a window

A sliding-window protocol keeps lists of items whose numbers lie in a window
`[base, next)` and grow along the list, although an item itself carries only a residue of
its number. `Window Stands base next items` says that there are such numbers, for any
relation `Stands` between an item and its number. The rules say how the operations of a
window act on it: items leave anywhere (`sublist`), join behind the window (`push`), change
without changing what they stand for (`map`), and the base moves up to the first item
(`head`).
-/

namespace KcpRs.Lib

universe u v

variable {Item : Type u} {Stands : Item → Nat → Prop} {base next : Nat} {items : List Item}

/-- `items` stand, in order, for numbers of `[base, next)` that grow. -/
def Window (Stands : Item → Nat → Prop) (base next : Nat) (items : List Item) : Prop :=
  ∃ numbers, List.Forall₂ Stands items numbers ∧ numbers.Pairwise (· < ·) ∧
    ∀ number ∈ numbers, base ≤ number ∧ number < next

namespace Window

theorem nil (Stands : Item → Nat → Prop) (base next : Nat) : Window Stands base next [] :=
  ⟨[], .nil, .nil, by simp⟩

/-- Items leave a window. -/
theorem sublist {fewer : List Item} (window : Window Stands base next items)
    (included : fewer.Sublist items) : Window Stands base next fewer := by
  obtain ⟨numbers, stand, grows, inside⟩ := window
  have chosen : ∃ kept, List.Forall₂ Stands fewer kept ∧ kept.Sublist numbers := by
    clear grows inside
    induction included generalizing numbers with
    | slnil => exact ⟨[], .nil, List.nil_sublist _⟩
    | cons item _ inductionHypothesis =>
        obtain ⟨_, rest⟩ | ⟨_, rest⟩ := stand
        obtain ⟨kept, stand, included⟩ := inductionHypothesis _ rest
        exact ⟨kept, stand, included.cons _⟩
    | cons_cons item _ inductionHypothesis =>
        obtain ⟨_, rest⟩ | ⟨first, rest⟩ := stand
        obtain ⟨kept, stand, included⟩ := inductionHypothesis _ rest
        exact ⟨_, .cons first stand, included.cons_cons _⟩
  obtain ⟨kept, stand, included⟩ := chosen
  exact ⟨kept, stand, grows.sublist included, fun number member => inside number (included.subset member)⟩

/-- Items change without changing what they stand for. -/
theorem map {Item' : Type v} {Stands' : Item' → Nat → Prop} {change : Item → Item'}
    (window : Window Stands base next items)
    (stands : ∀ item number, Stands item number → base ≤ number → number < next →
      Stands' (change item) number) : Window Stands' base next (items.map change) := by
  obtain ⟨numbers, stand, grows, inside⟩ := window
  refine ⟨numbers, ?_, grows, inside⟩
  clear grows
  induction stand with
  | nil => exact .nil
  | cons first rest inductionHypothesis =>
      rw [List.forall_mem_cons] at inside
      exact .cons (stands _ _ first inside.1.1 inside.1.2) (inductionHypothesis inside.2)

/-- Every item stands for a number of the window. -/
theorem exists_number {item : Item} (window : Window Stands base next items)
    (member : item ∈ items) : ∃ number, Stands item number ∧ base ≤ number ∧ number < next := by
  obtain ⟨numbers, stand, _, inside⟩ := window
  clear * - stand inside member
  induction stand with
  | nil => cases member
  | cons first rest inductionHypothesis =>
      rw [List.forall_mem_cons] at inside
      rcases List.mem_cons.1 member with rfl | later
      · exact ⟨_, first, inside.1⟩
      · exact inductionHypothesis later inside.2

/-- An item joins behind the window. -/
theorem push {item : Item} (window : Window Stands base next items) (ordered : base ≤ next)
    (stands : Stands item next) : Window Stands base (next + 1) (items ++ [item]) := by
  obtain ⟨numbers, stand, grows, inside⟩ := window
  refine ⟨numbers ++ [next], List.rel_append stand (.cons stands .nil), ?_, ?_⟩
  · refine List.pairwise_append.2 ⟨grows, List.pairwise_singleton _ _, fun number member last same => ?_⟩
    rw [List.mem_singleton.1 same]
    exact (inside number member).2
  · intro number member
    rcases List.mem_append.1 member with earlier | last
    · have bounds := inside number earlier
      omega
    · rw [List.mem_singleton.1 last]
      omega

/-- The base moves up to the first item. -/
theorem head {item : Item} (window : Window Stands base next (item :: items)) :
    ∃ number, Stands item number ∧ base ≤ number ∧ number < next ∧
      Window Stands number next (item :: items) ∧ Window Stands (number + 1) next items := by
  obtain ⟨numbers, stand, grows, inside⟩ := window
  cases stand with
  | cons first rest =>
      rename_i number numbers
      rw [List.forall_mem_cons] at inside
      rw [List.pairwise_cons] at grows
      refine ⟨number, first, inside.1.1, inside.1.2,
        ⟨number :: numbers, .cons first rest, List.pairwise_cons.2 grows, ?_⟩,
        ⟨numbers, rest, grows.2, fun later member => ⟨grows.1 later member, (inside.2 later member).2⟩⟩⟩
      intro later member
      rcases List.mem_cons.1 member with rfl | behind
      · exact ⟨Nat.le_refl _, inside.1.2⟩
      · exact ⟨Nat.le_of_lt (grows.1 later behind), (inside.2 later behind).2⟩

/-- A window in which every number has its item is gapless. -/
theorem full (window : Window Stands base next items)
    (all : ∀ number, base ≤ number → number < next → ∃ item ∈ items, ∀ other, base ≤ other →
      other < next → Stands item other → other = number) :
    List.Forall₂ Stands items (List.range' base (next - base)) := by
  obtain ⟨numbers, stand, grows, inside⟩ := window
  have known {item : Item} (member : item ∈ items) : ∃ number ∈ numbers, Stands item number := by
    clear * - stand member
    induction stand with
    | nil => cases member
    | cons first rest inductionHypothesis =>
        rcases List.mem_cons.1 member with rfl | later
        · exact ⟨_, List.mem_cons_self, first⟩
        · obtain ⟨number, among, stands⟩ := inductionHypothesis later
          exact ⟨number, List.mem_cons_of_mem _ among, stands⟩
  have same : numbers = List.range' base (next - base) := by
    refine grows.eq_of_mem_iff List.pairwise_lt_range' fun number => ?_
    rw [List.mem_range'_1]
    constructor
    · intro member
      have bounds := inside number member
      omega
    · rintro ⟨least, most⟩
      obtain ⟨item, member, only⟩ := all number least (by omega)
      obtain ⟨other, among, stands⟩ := known member
      rwa [← only other (inside other among).1 (inside other among).2 stands]
  rwa [← same]

/-- A window that reaches further. -/
theorem widen {further : Nat} (window : Window Stands base next items) (most : next ≤ further) :
    Window Stands base further items := by
  obtain ⟨numbers, stand, grows, inside⟩ := window
  refine ⟨numbers, stand, grows, fun number member => ?_⟩
  have bounds := inside number member
  omega

/-- An item joins in front of a window. -/
theorem cons {item : Item} {number : Nat} (stands : Stands item number) (least : base ≤ number)
    (most : number < next) (window : Window Stands (number + 1) next items) :
    Window Stands base next (item :: items) := by
  obtain ⟨numbers, stand, grows, inside⟩ := window
  refine ⟨number :: numbers, .cons stands stand, List.pairwise_cons.2 ⟨fun later member => ?_, grows⟩,
    List.forall_mem_cons.2 ⟨⟨least, most⟩, fun later member => ?_⟩⟩
  · exact (inside later member).1
  · have bounds := inside later member
    omega

/-- The last item of a window, and those before it. -/
theorem concat_iff {item : Item} : Window Stands base next (items ++ [item]) ↔
    ∃ number, Stands item number ∧ base ≤ number ∧ number < next ∧
      Window Stands base number items := by
  constructor
  · intro window
    induction items generalizing base with
    | nil =>
        obtain ⟨number, stands, least, most, _⟩ := window.head
        exact ⟨number, stands, least, most, nil _ _ _⟩
    | cons first rest inductionHypothesis =>
        obtain ⟨number, stands, least, _, _, later⟩ := window.head
        obtain ⟨last, lastStands, after, most, between⟩ := inductionHypothesis later
        exact ⟨last, lastStands, by omega, most, between.cons stands least after⟩
  · rintro ⟨number, stands, least, most, window⟩
    exact (window.push least stands).widen most

/-- A window holds no more items than it has numbers. -/
theorem length_le (window : Window Stands base next items) : items.length ≤ next - base := by
  obtain ⟨numbers, stand, grows, inside⟩ := window
  have distinct : numbers.Nodup := grows.imp fun less => Nat.ne_of_lt less
  have included : numbers ⊆ List.range' base (next - base) := by
    intro number member
    have bounds := inside number member
    rw [List.mem_range'_1]
    omega
  have shorter := (distinct.subperm included).length_le
  rwa [List.length_range', ← stand.length_eq] at shorter

end Window
end KcpRs.Lib
