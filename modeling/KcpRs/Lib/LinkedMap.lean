import Mathlib.Data.List.Nodup

/-!
# Insertion-ordered maps

`LinkedMap` is a finite map whose entries stand in the order of their last insertion:
inserting a key that is already there moves it to the back. Keys occur once by
construction, so looking up a key and having its entry are the same
(`get?_eq_some_iff`), and the lemmas about insertion and removal are about entries.

`latest` is what a log of insertions leaves of each key: its last entry. Inserting at
the back of a map is what prolonging the log does to it (`latest_append_singleton`).
-/

namespace KcpRs.Lib

universe u v

/-- A finite map in the order of insertion. -/
structure LinkedMap (Key : Type u) (Value : Type v) where
  entries : List (Key × Value)
  nodup : (entries.map Prod.fst).Nodup

namespace LinkedMap

variable {Key : Type u} {Value : Type v}

/-- The empty map. -/
def empty : LinkedMap Key Value := ⟨[], List.nodup_nil⟩

/-- The number of entries. -/
def size (map : LinkedMap Key Value) : Nat := map.entries.length

/-- The keys in the order of insertion. -/
def keys (map : LinkedMap Key Value) : List Key := map.entries.map Prod.fst

/-- A part of a map. -/
def part (map : LinkedMap Key Value) (entries : List (Key × Value))
    (sublist : entries.Sublist map.entries) : LinkedMap Key Value :=
  ⟨entries, map.nodup.sublist (sublist.map Prod.fst)⟩

/-- Remove entries from the front as long as they meet `drop`. -/
def popWhile (map : LinkedMap Key Value) (drop : Key × Value → Bool) : LinkedMap Key Value :=
  map.part (map.entries.dropWhile drop) (List.dropWhile_sublist drop)

variable [DecidableEq Key]

/-- The value of a key. -/
def get? (map : LinkedMap Key Value) (key : Key) : Option Value :=
  (map.entries.find? (·.1 = key)).map Prod.snd

/-- The key has a value. -/
def contains (map : LinkedMap Key Value) (key : Key) : Bool := (map.get? key).isSome

/-- Remove a key. -/
def remove (map : LinkedMap Key Value) (key : Key) : LinkedMap Key Value :=
  map.part (map.entries.filter (·.1 ≠ key)) List.filter_sublist

/-- Insert a value at the back, in place of what the key had. -/
def insert (map : LinkedMap Key Value) (key : Key) (value : Value) : LinkedMap Key Value where
  entries := (map.remove key).entries ++ [(key, value)]
  nodup := by
    rw [List.map_append]
    refine List.nodup_append.2 ⟨(map.remove key).nodup, List.nodup_singleton key, ?_⟩
    intro old inside new last same
    obtain ⟨entry, kept, rfl⟩ := List.mem_map.1 inside
    have other : entry.1 ≠ key := by simpa [remove, part] using (List.mem_filter.1 kept).2
    exact other (same.trans (List.mem_singleton.1 last))

/-- Change the value of a key that is there, where it stands. -/
def modify (map : LinkedMap Key Value) (key : Key) (change : Value → Value) :
    LinkedMap Key Value where
  entries := map.entries.map fun entry =>
    (entry.1, if entry.1 = key then change entry.2 else entry.2)
  nodup := by
    rw [List.map_map]
    exact map.nodup

variable {map : LinkedMap Key Value} {key other : Key} {value value' : Value}

/-- What is under a key is the entry of the key. -/
theorem get?_eq_some_iff : map.get? key = some value ↔ (key, value) ∈ map.entries := by
  have unique {entry : Key × Value} (first : entry ∈ map.entries) (same : entry.1 = key)
      (member : (key, value) ∈ map.entries) : entry = (key, value) :=
    List.inj_on_of_nodup_map map.nodup first member same
  constructor
  · intro found
    obtain ⟨entry, here, rfl⟩ := Option.map_eq_some_iff.1 found
    have same : entry.1 = key := by simpa using List.find?_some here
    rw [← same]
    exact List.mem_of_find?_eq_some here
  · intro member
    cases found : map.entries.find? (·.1 = key) with
    | none => simpa using List.find?_eq_none.1 found _ member
    | some entry =>
        have equal := unique (List.mem_of_find?_eq_some found)
          (by simpa using List.find?_some found) member
        rw [get?, found, equal]
        rfl

theorem get?_eq_none_iff : map.get? key = none ↔ ∀ value, (key, value) ∉ map.entries := by
  rw [Option.eq_none_iff_forall_ne_some]
  exact forall_congr' fun value => not_congr get?_eq_some_iff

/-- An empty map has no keys. -/
theorem get?_eq_none_of_size (empty : map.size = 0) : map.get? key = none := by
  refine get?_eq_none_iff.2 fun value member => ?_
  rw [List.eq_nil_of_length_eq_zero empty] at member
  cases member

theorem contains_eq_false_iff : map.contains key = false ↔ map.get? key = none := by
  rw [contains, Option.isSome_eq_false_iff, Option.isNone_iff_eq_none]

@[simp] theorem get?_empty (key : Key) : (empty : LinkedMap Key Value).get? key = none := rfl

theorem mem_remove {entry : Key × Value} :
    entry ∈ (map.remove key).entries ↔ entry ∈ map.entries ∧ entry.1 ≠ key := by
  simp [remove, part, List.mem_filter]

/-- The entries after an insertion. -/
theorem mem_insert {entry : Key × Value} : entry ∈ (map.insert key value).entries ↔
    entry ∈ map.entries ∧ entry.1 ≠ key ∨ entry = (key, value) := by
  rw [insert, List.mem_append, mem_remove, List.mem_singleton]

theorem get?_insert_self : (map.insert key value).get? key = some value :=
  get?_eq_some_iff.2 (mem_insert.2 (.inr rfl))

theorem get?_insert_of_ne (different : other ≠ key) :
    (map.insert key value).get? other = map.get? other := by
  refine Option.ext fun found => ?_
  rw [get?_eq_some_iff, get?_eq_some_iff, mem_insert]
  simp [different]

theorem get?_remove_self : (map.remove key).get? key = none :=
  get?_eq_none_iff.2 fun _ member => (mem_remove.1 member).2 rfl

theorem get?_remove_of_ne (different : other ≠ key) :
    (map.remove key).get? other = map.get? other := by
  refine Option.ext fun found => ?_
  rw [get?_eq_some_iff, get?_eq_some_iff, mem_remove]
  simp [different]

/-- The entries after a modification. -/
theorem mem_modify {change : Value → Value} {entry : Key × Value} :
    entry ∈ (map.modify key change).entries ↔ ∃ value, (entry.1, value) ∈ map.entries ∧
      entry.2 = if entry.1 = key then change value else value := by
  simp only [modify, List.mem_map, Prod.exists]
  constructor
  · rintro ⟨old, value, inside, rfl⟩
    exact ⟨value, inside, rfl⟩
  · rintro ⟨value, inside, equal⟩
    exact ⟨entry.1, value, inside, Prod.ext rfl equal.symm⟩

theorem get?_modify_self {change : Value → Value} :
    (map.modify key change).get? key = (map.get? key).map change := by
  refine Option.ext fun found => ?_
  rw [get?_eq_some_iff, mem_modify, Option.map_eq_some_iff]
  refine exists_congr fun value => ?_
  rw [get?_eq_some_iff, if_pos rfl, eq_comm]

theorem get?_modify_of_ne {change : Value → Value} (different : other ≠ key) :
    (map.modify key change).get? other = map.get? other := by
  refine Option.ext fun found => ?_
  rw [get?_eq_some_iff, get?_eq_some_iff, mem_modify]
  simp [different]

@[simp] theorem size_modify {change : Value → Value} : (map.modify key change).size = map.size :=
  List.length_map _

/-- The entries are that of a key that is there and the rest. -/
theorem perm_of_get? (present : map.get? key = some value) :
    map.entries.Perm ((key, value) :: (map.remove key).entries) := by
  have removed : (key, value) ∉ (map.remove key).entries :=
    fun member => (mem_remove.1 member).2 rfl
  refine (List.perm_ext_iff_of_nodup (List.Nodup.of_map _ map.nodup)
    (List.nodup_cons.2 ⟨removed, List.Nodup.of_map _ (map.remove key).nodup⟩)).2 fun entry => ?_
  rw [List.mem_cons, mem_remove]
  constructor
  · intro member
    by_cases equal : entry.1 = key
    · exact .inl (List.inj_on_of_nodup_map map.nodup member (get?_eq_some_iff.1 present) equal)
    · exact .inr ⟨member, equal⟩
  · rintro (rfl | ⟨member, _⟩)
    · exact get?_eq_some_iff.1 present
    · exact member

/-- Changing the value of a key leaves the other entries alone. -/
theorem perm_modify {change : Value → Value} (present : map.get? key = some value) :
    (map.modify key change).entries.Perm ((key, change value) :: (map.remove key).entries) := by
  have changed := (perm_of_get? present).map fun entry : Key × Value =>
    (entry.1, if entry.1 = key then change entry.2 else entry.2)
  have others : (map.remove key).entries.map (fun entry : Key × Value =>
      (entry.1, if entry.1 = key then change entry.2 else entry.2)) = (map.remove key).entries := by
    refine (List.map_congr_left fun entry member => ?_).trans (List.map_id _)
    rw [if_neg (mem_remove.1 member).2]
    rfl
  rwa [List.map_cons, others, if_pos rfl] at changed

/-- Removing a key that is there takes one entry away. -/
theorem size_remove (present : map.get? key = some value) :
    (map.remove key).size + 1 = map.size := by
  rw [size, size, (perm_of_get? present).length_eq, List.length_cons]

/-- Inserting a new key adds one entry. -/
theorem size_insert (fresh : map.get? key = none) : (map.insert key value).size = map.size + 1 := by
  have same : (map.remove key).entries = map.entries := by
    refine List.filter_eq_self.2 fun entry member => ?_
    refine decide_eq_true fun equal => get?_eq_none_iff.1 fresh entry.2 ?_
    rw [← equal]
    exact member
  simp [size, insert, same]

theorem entries_insert : (map.insert key value).entries =
    map.entries.filter (·.1 ≠ key) ++ [(key, value)] := rfl

end LinkedMap

/-! ## Logs of insertions -/

variable {Key : Type u} {Value : Type v} [DecidableEq Key]

/-- The last entry of each key, in the order of these entries. -/
def latest : List (Key × Value) → List (Key × Value)
  | [] => []
  | entry :: rest => if rest.any (·.1 = entry.1) then latest rest else entry :: latest rest

theorem latest_append_singleton (log : List (Key × Value)) (key : Key) (value : Value) :
    latest (log ++ [(key, value)]) = (latest log).filter (·.1 ≠ key) ++ [(key, value)] := by
  induction log with
  | nil => simp [latest]
  | cons entry rest inductionHypothesis =>
      simp only [List.cons_append, latest, List.any_append, List.any_cons, List.any_nil,
        Bool.or_false, Bool.or_eq_true, decide_eq_true_eq]
      by_cases later : rest.any (·.1 = entry.1)
      · rw [if_pos (.inl later), if_pos later, inductionHypothesis]
      · by_cases same : key = entry.1
        · rw [if_pos (.inr same), if_neg later, inductionHypothesis,
            List.filter_cons_of_neg (by simp [same])]
        · rw [if_neg (by simp only [later, same, or_self, not_false_eq_true, Bool.false_eq_true]),
            if_neg later, inductionHypothesis, List.filter_cons_of_pos (by simp [Ne.symm same]),
            List.cons_append]

/-- The latest entries are in the order of the log. -/
theorem latest_sublist (log : List (Key × Value)) : (latest log).Sublist log := by
  induction log with
  | nil => exact .slnil
  | cons entry rest inductionHypothesis =>
      unfold latest
      split
      · exact inductionHypothesis.cons entry
      · exact inductionHypothesis.cons_cons entry

/-- Dropping from the front is filtering when what is kept is kept from there on. -/
theorem dropWhile_eq_filter {Entry : Type u} {drop : Entry → Bool} {entries : List Entry}
    (ordered : entries.Pairwise fun first later => drop later → drop first) :
    entries.dropWhile drop = entries.filter fun entry => !drop entry := by
  induction entries with
  | nil => rfl
  | cons entry rest inductionHypothesis =>
      obtain ⟨first, ordered⟩ := List.pairwise_cons.1 ordered
      cases dropped : drop entry with
      | true =>
          rw [List.dropWhile_cons_of_pos dropped, List.filter_cons_of_neg (by simp [dropped]),
            inductionHypothesis ordered]
      | false =>
          rw [List.dropWhile_cons_of_neg (by simp [dropped])]
          refine (List.filter_eq_self.2 fun kept member => ?_).symm
          rcases List.mem_cons.1 member with rfl | later
          · simp [dropped]
          · cases gone : drop kept with
            | false => rfl
            | true => simp [first kept later gone] at dropped

end KcpRs.Lib
