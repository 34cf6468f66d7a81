import KcpRs.Protocol
import KcpRs.Lib.Machine
import KcpRs.Lib.LinkedMap

/-!
# The cache of released convs: `conv.rs`

`ConvCache` remembers convs for a while after they were released, so that `allocate`
does not give them out again. `Instant` and `Duration` are natural numbers;
`duration_since` saturates, as subtraction does here.

`LinkedMap` stands for the `LinkedHashMap` of `hashlink`, here and in the listener. As documented there,
it iterates in the order of insertion, `insert` moves a key that it holds to the back and replaces its
value, `front` and `pop_front` take the oldest entry, `get_mut` leaves the order alone, and `remove`
takes out the entry of a key and no other.

Over any sequence of calls with clock readings that do not decrease, what `update`
leaves is the last entry of every valid conv that is younger than the timeout
(`convCache_recent`).
-/

namespace KcpRs

open Lib

/-- `ConvCache` with the map and the timeout of its `Inner`. -/
structure ConvCache where
  map : LinkedMap U32 Nat := .empty
  timeout : Nat

/-- The results of successive calls of `Kcp::rand_conv`, for what `rand::random` gives. -/
def Kcp.randConvs (random : List U32) : List U32 := random.filter Kcp.isValidConv

namespace ConvCache

/-- `ConvCache::update`. -/
def update (cache : ConvCache) (now : Nat) : ConvCache :=
  { cache with map := cache.map.popWhile fun entry => !decide (now - entry.2 < cache.timeout) }

/-- The loop of `ConvCache::allocate`, which goes on until a conv is free; `none` when the
random numbers run out first. -/
def allocate (cache : ConvCache) (inUse : U32 → Bool) (now : Nat) (random : List U32) :
    Option (U32 × ConvCache) :=
  let cache := cache.update now
  ((Kcp.randConvs random).find? fun conv => !inUse conv && !cache.map.contains conv).map (·, cache)

/-- Remember a valid conv. -/
def remember (cache : ConvCache) (now : Nat) (conv : U32) : ConvCache :=
  if Kcp.isValidConv conv then { cache with map := cache.map.insert conv now } else cache

/-- `ConvCache::add`. -/
def add (cache : ConvCache) (conv : U32) (now : Nat) : ConvCache :=
  (cache.update now).remember now conv

/-- `ConvCache::fill`. -/
def fill (cache : ConvCache) (convs : List U32) (now : Nat) : ConvCache :=
  convs.foldl (fun cache conv => cache.remember now conv) (cache.update now)

/-- `ConvCache::dump`. -/
def dump (cache : ConvCache) (now : Nat) : List U32 × ConvCache :=
  let cache := cache.update now
  (cache.map.keys, cache)

variable {cache : ConvCache} {now : Nat}

/-- A conv that is allocated is valid, not in use and not remembered. -/
theorem allocate_spec {inUse : U32 → Bool} {random : List U32} {conv : U32} {cache' : ConvCache}
    (allocated : cache.allocate inUse now random = some (conv, cache')) :
    Kcp.isValidConv conv ∧ inUse conv = false ∧ (cache.update now).map.get? conv = none ∧
      cache' = cache.update now := by
  obtain ⟨found, first, equal⟩ := Option.map_eq_some_iff.1 allocated
  obtain ⟨rfl, rfl⟩ := Prod.mk.inj equal
  have free := List.find?_some first
  simp only [Bool.and_eq_true, Bool.not_eq_true'] at free
  have valid := (List.mem_filter.1 (List.mem_of_find?_eq_some first)).2
  exact ⟨valid, free.1, LinkedMap.contains_eq_false_iff.1 free.2, rfl⟩

end ConvCache

/-! ## Calls in lock order -/

/-- A call through a clone of the cache. -/
inductive CacheCall where
  | add (conv : U32)
  | fill (convs : List U32)
  | allocate (inUse : U32 → Bool) (random : List U32)
  | dump

/-- The convs that a call puts into the cache. -/
def CacheCall.convs : CacheCall → List U32
  | .add conv => [conv]
  | .fill convs => convs
  | .allocate _ _ => []
  | .dump => []

/-- The cache with its last clock reading and what was put into it, in order. -/
structure CacheRun where
  cache : ConvCache
  clock : Nat := 0
  inserted : List (U32 × Nat) := []

namespace CacheRun

/-- What a call leaves of the cache. -/
def after (cache : ConvCache) (now : Nat) : CacheCall → Option ConvCache
  | .add conv => some (cache.add conv now)
  | .fill convs => some (cache.fill convs now)
  | .allocate inUse random => (cache.allocate inUse now random).map Prod.snd
  | .dump => some (cache.dump now).2

/-- A call at clock reading `now`, which is not before the last one. -/
def step (run : CacheRun) (call : CacheCall × Nat) : Option CacheRun :=
  if run.clock ≤ call.2 then
    (after run.cache call.2 call.1).map fun cache =>
      { cache, clock := call.2, inserted := run.inserted ++ call.1.convs.map (·, call.2) }
  else none

/-- The last insertion of every valid conv, in the order of these insertions. -/
def remembered (inserted : List (U32 × Nat)) : List (U32 × Nat) :=
  latest (inserted.filter fun entry => Kcp.isValidConv entry.1)

/-- What is younger than the timeout at `now`. -/
def recent (run : CacheRun) (now : Nat) : List (U32 × Nat) :=
  (remembered run.inserted).filter fun entry => now - entry.2 < run.cache.timeout

end CacheRun

/-- The runs of a new cache. -/
def cacheMachine : Machine CacheRun (CacheCall × Nat) where
  Initial run := run.cache.map = .empty ∧ run.inserted = []
  step := CacheRun.step

namespace CacheRun

/-- The cache holds what was inserted, but for a part from the front that is too old. -/
structure Remembers (run : CacheRun) : Prop where
  sorted : run.inserted.Pairwise fun first later => first.2 ≤ later.2
  past : ∀ entry ∈ run.inserted, entry.2 ≤ run.clock
  entries : ∃ gone, remembered run.inserted = gone ++ run.cache.map.entries ∧
    ∀ entry ∈ gone, run.cache.timeout ≤ run.clock - entry.2

variable {run run' : CacheRun} {now : Nat}

theorem remembered_sublist (inserted : List (U32 × Nat)) :
    (remembered inserted).Sublist inserted :=
  (latest_sublist _).trans List.filter_sublist

theorem Remembers.sorted_entries (holds : run.Remembers) :
    run.cache.map.entries.Pairwise fun first later => first.2 ≤ later.2 := by
  obtain ⟨gone, equal, _⟩ := holds.entries
  have all := holds.sorted.sublist (remembered_sublist run.inserted)
  rw [equal] at all
  exact (List.pairwise_append.1 all).2.1

/-- What `update` leaves. -/
theorem Remembers.update (holds : run.Remembers) (later : run.clock ≤ now) :
    (run.cache.update now).map.entries = run.recent now := by
  obtain ⟨gone, equal, old⟩ := holds.entries
  have kept : (run.cache.update now).map.entries =
      run.cache.map.entries.filter fun entry => now - entry.2 < run.cache.timeout := by
    have ordered : run.cache.map.entries.Pairwise fun first later =>
        (!decide (now - later.2 < run.cache.timeout)) = true →
          (!decide (now - first.2 < run.cache.timeout)) = true :=
      holds.sorted_entries.imp fun {first later} order gone => by
        simp only [Bool.not_eq_true', decide_eq_false_iff_not, not_lt] at gone ⊢
        omega
    refine (dropWhile_eq_filter ordered).trans (List.filter_congr fun entry _ => ?_)
    rw [Bool.not_not]
  have none : gone.filter (fun entry => now - entry.2 < run.cache.timeout) = [] := by
    refine List.filter_eq_nil_iff.2 fun entry member => ?_
    have expired := old entry member
    rw [decide_eq_true_eq]
    omega
  rw [kept, recent, equal, List.filter_append, none, List.nil_append]

/-- `update` drops what is too old from the front. -/
theorem Remembers.updated (holds : run.Remembers) (later : run.clock ≤ now) :
    Remembers { run with cache := run.cache.update now, clock := now } where
  sorted := holds.sorted
  past entry member := (holds.past entry member).trans later
  entries := by
    obtain ⟨gone, equal, old⟩ := holds.entries
    refine ⟨gone ++ run.cache.map.entries.takeWhile
      fun entry => !decide (now - entry.2 < run.cache.timeout), ?_, ?_⟩
    · rw [equal, List.append_assoc]
      exact congrArg (gone ++ ·) List.takeWhile_append_dropWhile.symm
    · intro entry member
      rcases List.mem_append.1 member with before | dropped
      · exact (old entry before).trans (Nat.sub_le_sub_right later _)
      · have expired : run.cache.timeout ≤ now - entry.2 := by
          simpa using List.all_eq_true.1 List.all_takeWhile entry dropped
        exact expired

/-- Remembering a conv prolongs the log. -/
theorem Remembers.remember (holds : run.Remembers) (conv : U32) : Remembers { run with
    cache := run.cache.remember run.clock conv
    inserted := run.inserted ++ [(conv, run.clock)] } where
  sorted := by
    refine List.pairwise_append.2 ⟨holds.sorted, List.pairwise_singleton _ _, ?_⟩
    intro entry member last inside
    rw [List.mem_singleton.1 inside]
    exact holds.past entry member
  past entry member := by
    rcases List.mem_append.1 member with before | last
    · exact holds.past entry before
    · rw [List.mem_singleton.1 last]
  entries := by
    obtain ⟨gone, equal, old⟩ := holds.entries
    unfold ConvCache.remember
    by_cases valid : Kcp.isValidConv conv
    · rw [if_pos valid]
      refine ⟨gone.filter (·.1 ≠ conv), ?_, fun entry member => old entry (List.mem_filter.1 member).1⟩
      have fresh : (run.inserted ++ [(conv, run.clock)]).filter (fun entry => Kcp.isValidConv entry.1) =
          run.inserted.filter (fun entry => Kcp.isValidConv entry.1) ++ [(conv, run.clock)] := by
        simp [List.filter_append, valid]
      have before : latest (run.inserted.filter fun entry => Kcp.isValidConv entry.1) =
          gone ++ run.cache.map.entries := equal
      rw [remembered, fresh, latest_append_singleton, before, List.filter_append, List.append_assoc]
      rfl
    · rw [if_neg valid]
      refine ⟨gone, ?_, old⟩
      rw [← equal, remembered, remembered, List.filter_append]
      simp [valid]

theorem Remembers.fill (holds : run.Remembers) (convs : List U32) : Remembers { run with
    cache := convs.foldl (fun cache conv => cache.remember run.clock conv) run.cache
    inserted := run.inserted ++ convs.map (·, run.clock) } := by
  induction convs generalizing run with
  | nil => simpa using holds
  | cons conv rest inductionHypothesis =>
      have next := inductionHypothesis (holds.remember conv)
      simpa [List.append_assoc] using next

theorem Remembers.step {call : CacheCall × Nat} (holds : run.Remembers)
    (stepped : run.step call = some run') : run'.Remembers := by
  obtain ⟨call, now⟩ := call
  unfold CacheRun.step at stepped
  split at stepped
  · rename_i later
    obtain ⟨cache, made, rfl⟩ := Option.map_eq_some_iff.1 stepped
    have updated := holds.updated later
    cases call with
    | add conv =>
        cases made
        exact updated.remember conv
    | fill convs =>
        cases made
        exact updated.fill convs
    | allocate inUse random =>
        obtain ⟨⟨conv, cache'⟩, allocated, rfl⟩ := Option.map_eq_some_iff.1 made
        obtain ⟨_, _, _, rfl⟩ := ConvCache.allocate_spec allocated
        simpa [CacheCall.convs] using updated
    | dump =>
        cases made
        simpa [CacheCall.convs, ConvCache.dump] using updated
  · cases stepped

end CacheRun

/-- The cache keeps exactly the recent convs. After any calls with clock readings that do
not decrease, the map is sorted by time; at any later reading, `update` leaves the last
insertions of valid convs that are younger than the timeout, `dump` returns these convs,
each once and in that order, and `allocate` returns only a valid conv that is not among
them and not in use, and does so when there is one among the random numbers. -/
theorem convCache_recent {run : CacheRun} (reach : cacheMachine.Reachable run) {now : Nat}
    (later : run.clock ≤ now) :
    (run.cache.map.entries.Pairwise fun first later => first.2 ≤ later.2) ∧
    (run.cache.update now).map.entries = run.recent now ∧
    (run.cache.dump now).1 = (run.recent now).map Prod.fst ∧ (run.cache.dump now).1.Nodup ∧
    (∀ inUse random conv cache', run.cache.allocate inUse now random = some (conv, cache') →
      Kcp.isValidConv conv ∧ inUse conv = false ∧ conv ∉ (run.cache.dump now).1) ∧
    ∀ (inUse : U32 → Bool), ∀ random, ∀ conv ∈ random, Kcp.isValidConv conv → inUse conv = false →
      conv ∉ (run.cache.dump now).1 → (run.cache.allocate inUse now random).isSome := by
  have holds : run.Remembers := by
    refine reach.invariant CacheRun.Remembers (fun first initial => ?_)
      (fun _ _ _ _ holds _ stepped => holds.step stepped)
    refine ⟨by simp [initial.2], by simp [initial.2], [], ?_, by simp⟩
    rw [initial.1, initial.2]
    rfl
  have updated := holds.update later
  refine ⟨holds.sorted_entries, updated, congrArg (List.map Prod.fst) updated,
    (run.cache.update now).map.nodup, fun inUse random conv cache' allocated => ?_,
    fun inUse random conv drawn valid free unknown => ?_⟩
  · obtain ⟨valid, free, unknown, _⟩ := ConvCache.allocate_spec allocated
    refine ⟨valid, free, fun member => ?_⟩
    obtain ⟨entry, inside, rfl⟩ := List.mem_map.1 member
    exact LinkedMap.get?_eq_none_iff.1 unknown entry.2 inside
  · have absent : (run.cache.update now).map.contains conv = false := by
      rw [LinkedMap.contains_eq_false_iff, LinkedMap.get?_eq_none_iff]
      exact fun time member => unknown (List.mem_map_of_mem member)
    rw [ConvCache.allocate, Option.isSome_map, List.find?_isSome]
    refine ⟨conv, List.mem_filter.2 ⟨drawn, valid⟩, ?_⟩
    rw [free, absent]
    rfl

/-- Of the convs 3 and 5, put into a cache with timeout 5 at time 1, only 3 is added again at
time 4; at time 7 it is the only one left. -/
theorem convCache_recent_once : ∃ run, cacheMachine.Reachable run ∧ run.clock ≤ 7 ∧
    (run.cache.dump 7).1 = [3] := by
  have run : (cacheMachine.exec (fun _ _ => true) { cache := { timeout := 5 } }
      [(.fill [3, 0, 5], 1), (.add 3, 4)]).map
        (fun run => (run.clock, (run.recent 7).map Prod.fst)) = some (4, [3]) := by decide
  obtain ⟨run, executed, view⟩ := Option.map_eq_some_iff.1 run
  obtain ⟨clock, recent⟩ := Prod.mk.inj view
  have reach : cacheMachine.Reachable run :=
    Machine.reach_of_exec (fun _ _ _ => trivial) (.initial ⟨rfl, rfl⟩) executed
  have later : run.clock ≤ 7 := by omega
  exact ⟨run, reach, later, (convCache_recent reach later).2.2.1.trans recent⟩

end KcpRs
