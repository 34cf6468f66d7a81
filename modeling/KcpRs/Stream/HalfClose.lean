import KcpRs.Lib.Latch
import KcpRs.Lib.Machine

/-!
# The half-close pool

`Task::run` ends with a `HalfClose`, a task that goes on sending the RESET packet for some seconds. The
tasks share a token, a counter and a `Notify` with `HalfClosePool::shutdown`, which cancels the token
and waits until the counter is zero. A state of the machine is the pool with all tasks ever created
and all calls of `shutdown`, and every event is one atomic step of one of them, so its runs are the
interleavings.

The `Notify` of `tokio` is that of `Latch`: as documented there, `notify_one` wakes one task that waits
in `notified`, and when there is none it stores a permit, of which there is at most one; the next
`notified` takes a stored permit and returns at once.
-/

namespace KcpRs

open Lib

/-- Where a `HalfClose` is. -/
inductive HalfClosePhase where
  /-- `create_task` sends the packet. -/
  | create
  /-- `create_task` has sent it and tests the token. -/
  | gate
  /-- `run` is at the head of its loop or waits in `select!`. -/
  | run
  /-- `run` sends the packet. -/
  | send
  /-- `run` has left its loop and drops the transport. -/
  | leave
  /-- `drop` takes the task off the counter. -/
  | drop
  /-- `drop` gives its notification. -/
  | notify
  | gone
deriving DecidableEq

/-- A `HalfClose` with the transport it is run with. `secs` is the whole seconds of the timeout it was
created with and `sent` counts the packets that the transport has taken. -/
structure HalfClose where
  secs : Nat
  repeats : Nat
  isClosed : Bool := false
  phase : HalfClosePhase := .create
  spawned : Bool := false
  transport : Bool := true
  sent : Nat := 0

/-- What happens to a `HalfClose` on its own. -/
inductive HalfCloseEvent where
  /-- `transport.send` returns `Ok`. -/
  | sent
  /-- `transport.send` returns `Err`. -/
  | failed
  /-- `send` sees that the token is cancelled. -/
  | interrupted
  | spawn
  | tick
  /-- `transport.next` returns a packet, or the end of the stream. -/
  | next (none : Bool)
  | leave
  | dropTransport
deriving DecidableEq

namespace HalfClose

/-- The task that `create_task` makes, about to send its first packet. -/
def create (secs : Nat) : HalfClose := { secs, repeats := max secs 1 - 1 }

/-- One step of `create_task` or `run` while the token is cancelled or not. -/
def step (cancelled : Bool) (task : HalfClose) (event : HalfCloseEvent) : Option HalfClose :=
  match event, task.phase with
  | .sent, .create =>
      some { task with sent := task.sent + 1, phase := if task.repeats = 0 then .drop else .gate }
  | .sent, .send =>
      some { task with sent := task.sent + 1, repeats := task.repeats - 1, phase := .run }
  | .failed, .create => some { task with phase := .drop }
  | .failed, .send => some { task with phase := .leave }
  | .interrupted, .create => if cancelled then some { task with phase := .drop } else none
  | .interrupted, .send => if cancelled then some { task with phase := .leave } else none
  | .spawn, .gate =>
      if cancelled then some { task with phase := .drop }
      else some { task with phase := .run, spawned := true }
  | .tick, .run =>
      if 0 < task.repeats ∧ cancelled = false then some { task with phase := .send } else none
  | .next ended, .run =>
      if 0 < task.repeats ∧ cancelled = false ∧ task.isClosed = false then
        some { task with isClosed := ended }
      else none
  | .leave, .run => if task.repeats = 0 ∨ cancelled then some { task with phase := .leave } else none
  | .dropTransport, .leave => some { task with transport := false, phase := .drop }
  -- `create_task` drops its argument after its local variable.
  | .dropTransport, .gone => if task.transport then some { task with transport := false } else none
  | _, _ => none

/-- The task is on the counter. -/
def counts (task : HalfClose) : Bool := task.phase ≠ .notify && task.phase ≠ .gone

/-- The task has to give its notification. -/
def notifies (task : HalfClose) : Bool := task.phase = .notify

end HalfClose

/-- The pool, the tasks and the calls of `shutdown`. -/
structure HalfClosePool where
  token : Bool := false
  permit : Bool := false
  taskCount : Nat := 0
  tasks : List HalfClose := []
  callers : List Waiter := []

inductive PoolEvent where
  | create (secs : Nat)
  | task (index : Nat) (event : HalfCloseEvent)
  /-- `fetch_sub` of `drop`. -/
  | fetchSub (index : Nat)
  /-- `notify_one` of `drop`, with the call that is woken if one waits. -/
  | notifyOne (index woken : Nat)
  | shutdown
  /-- A call of `shutdown` tests the counter. -/
  | load (caller : Nat)
  /-- A call of `shutdown` polls `notified`. -/
  | poll (caller : Nat)
deriving DecidableEq

namespace HalfClosePool

def step (pool : HalfClosePool) : PoolEvent → Option HalfClosePool
  | .create secs =>
      some { pool with taskCount := pool.taskCount + 1, tasks := pool.tasks ++ [.create secs] }
  | .task index event =>
      pool.tasks[index]?.bind fun task => (task.step pool.token event).map fun task =>
        { pool with tasks := pool.tasks.set index task }
  | .fetchSub index =>
      pool.tasks[index]?.bind fun task =>
        if task.phase = .drop then
          some { pool with
            taskCount := pool.taskCount - 1
            tasks := pool.tasks.set index { task with phase := .notify } }
        else none
  | .notifyOne index woken =>
      pool.tasks[index]?.bind fun task =>
        if task.phase = .notify then
          let pool := { pool with tasks := pool.tasks.set index { task with phase := .gone } }
          if .waiting ∈ pool.callers then
            if pool.callers[woken]? = some .waiting then
              some { pool with callers := pool.callers.set woken .testing }
            else none
          else some { pool with permit := true }
        else none
  | .shutdown => some { pool with token := true, callers := pool.callers ++ [.testing] }
  | .load caller =>
      if pool.callers[caller]? = some .testing then
        some { pool with
          callers := pool.callers.set caller (if pool.taskCount = 0 then .returned else .registering) }
      else none
  | .poll caller =>
      if pool.callers[caller]? = some .registering then
        if pool.permit then
          some { pool with permit := false, callers := pool.callers.set caller .testing }
        else some { pool with callers := pool.callers.set caller .waiting }
      else none

end HalfClosePool

/-- The half-close pool from its `default` on. -/
def poolMachine : Machine HalfClosePool PoolEvent where
  Initial pool := pool = {}
  step := HalfClosePool.step


namespace HalfClose

variable {task task' : HalfClose} {cancelled : Bool} {event : HalfCloseEvent}

/-- Only `drop` takes a task off the counter or gives its notification. -/
theorem step_counts (stepped : task.step cancelled event = some task') :
    task'.counts = task.counts ∧ task'.notifies = task.notifies := by
  obtain ⟨secs, repeats, isClosed, phase, spawned, transport, sent⟩ := task
  cases event <;> cases phase <;> simp only [step, reduceCtorEq] at stepped
  all_goals (repeat' split at stepped) <;> cases stepped <;> simp [counts, notifies]

/-- The packets that are sent and those that are left are no more than `create_task` has planned, and
a task that `run` has left has no transport. -/
structure Sound (task : HalfClose) : Prop where
  budget : task.sent + task.repeats + (if task.phase = .create then 1 else 0) ≤ max task.secs 1
  left : task.phase = .send → 0 < task.repeats
  early : task.phase = .create ∨ task.phase = .gate → task.spawned = false
  late : task.phase = .drop ∨ task.phase = .notify ∨ task.phase = .gone → task.spawned →
    task.transport = false

theorem sound_create (secs : Nat) : (create secs).Sound := by
  constructor
  · simp only [create, if_true]
    omega
  · intro phase
    cases phase
  · exact fun _ => rfl
  · rintro (phase | phase | phase) <;> cases phase

theorem Sound.step (sound : task.Sound) (stepped : task.step cancelled event = some task') :
    task'.Sound := by
  obtain ⟨budget, left, early, late⟩ := sound
  obtain ⟨secs, repeats, isClosed, phase, spawned, transport, sent⟩ := task
  cases event <;> cases phase <;> simp only [HalfClose.step, reduceCtorEq] at stepped
  all_goals (repeat' split at stepped) <;> cases stepped
  all_goals
    constructor <;> simp_all <;> omega

/-- `drop` goes on to its next step. -/
theorem Sound.dropped (sound : task.Sound) {phase : HalfClosePhase}
    (before : task.phase = .drop ∨ task.phase = .notify) (after : phase = .notify ∨ phase = .gone) :
    { task with phase }.Sound := by
  obtain ⟨budget, _, _, late⟩ := sound
  have spent : task.sent + task.repeats ≤ max task.secs 1 := Nat.le_trans (Nat.le_add_right _ _) budget
  have ended : task.spawned → task.transport = false := late (before.imp_right .inl)
  rcases after with rfl | rfl
  all_goals
    constructor
    · simpa using spent
    · intro phase
      cases phase
    · rintro (phase | phase) <;> cases phase
    · exact fun _ => ended

end HalfClose

namespace HalfClosePool

variable {pool pool' : HalfClosePool} {event : PoolEvent}

/-- The counter, the notifications that are outstanding and the calls of `shutdown`. -/
def latch (pool : HalfClosePool) : Latch where
  working := pool.taskCount
  leaving := pool.tasks.countP HalfClose.notifies
  permit := pool.permit
  waiters := pool.callers

/-- The counter counts. -/
def Counted (pool : HalfClosePool) : Prop := pool.taskCount = pool.tasks.countP HalfClose.counts

/-- A new task is one worker more. -/
theorem latch_create (counted : pool.Counted) {secs : Nat}
    (stepped : pool.step (.create secs) = some pool') :
    pool'.Counted ∧ pool.latch.Move pool'.latch := by
  cases stepped
  have on : (HalfClose.create secs).counts := rfl
  have silent : ¬ (HalfClose.create secs).notifies := Bool.false_ne_true
  have leaving : (pool.tasks ++ [HalfClose.create secs]).countP HalfClose.notifies =
      pool.latch.leaving := by
    rw [List.countP_append, List.countP_singleton, if_neg silent]
    rfl
  constructor
  · simp only [Counted] at counted ⊢
    rw [List.countP_append, List.countP_singleton, if_pos on, counted]
  · have move := @Latch.Move.arrive pool.latch
    rw [← leaving] at move
    exact move

/-- A task that goes on is none of the pool's business. -/
theorem latch_task (counted : pool.Counted) {index : Nat} {event : HalfCloseEvent}
    (stepped : pool.step (.task index event) = some pool') :
    pool'.Counted ∧ pool'.latch = pool.latch := by
  obtain ⟨task, there, stepped⟩ := Option.bind_eq_some_iff.1 stepped
  obtain ⟨task', moved, rfl⟩ := Option.map_eq_some_iff.1 stepped
  obtain ⟨counts, notifies⟩ := HalfClose.step_counts moved
  have on := Latch.countP_set_add there HalfClose.counts task'
  have leaving := Latch.countP_set_add there HalfClose.notifies task'
  rw [counts] at on
  rw [notifies] at leaving
  constructor
  · exact counted.trans (Nat.add_right_cancel on).symm
  · simp only [latch]
    rw [Nat.add_right_cancel leaving]

/-- `fetch_sub` takes a worker off the counter, and it owes its notification from then on. -/
theorem latch_fetchSub (counted : pool.Counted) {index : Nat}
    (stepped : pool.step (.fetchSub index) = some pool') :
    pool'.Counted ∧ pool.latch.Move pool'.latch := by
  obtain ⟨task, there, stepped⟩ := Option.bind_eq_some_iff.1 stepped
  split at stepped
  · rename_i phase
    cases stepped
    have on := Latch.countP_set_add there HalfClose.counts { task with phase := .notify }
    have leaving := Latch.countP_set_add there HalfClose.notifies { task with phase := .notify }
    rw [if_pos (by simp [HalfClose.counts, phase]), if_neg (by simp [HalfClose.counts])] at on
    rw [if_neg (by simp [HalfClose.notifies, phase]), if_pos (by simp [HalfClose.notifies])]
      at leaving
    unfold Counted at counted
    constructor
    · simp only [Counted]
      omega
    · have move := @Latch.Move.leave pool.latch (show 0 < pool.taskCount by omega)
      rw [show pool.latch.leaving + 1 = _ from leaving.symm] at move
      exact move
  · cases stepped

/-- `notify_one` wakes a call that waits, or stores its permit. -/
theorem latch_notifyOne (counted : pool.Counted) {index woken : Nat}
    (stepped : pool.step (.notifyOne index woken) = some pool') :
    pool'.Counted ∧ pool.latch.Move pool'.latch := by
  obtain ⟨task, there, stepped⟩ := Option.bind_eq_some_iff.1 stepped
  split at stepped
  · rename_i phase
    have on := Latch.countP_set_add there HalfClose.counts { task with phase := .gone }
    have leaving := Latch.countP_set_add there HalfClose.notifies { task with phase := .gone }
    rw [if_neg (by simp [HalfClose.counts, phase]), if_neg (by simp [HalfClose.counts])] at on
    rw [if_pos (by simp [HalfClose.notifies, phase]), if_neg (by simp [HalfClose.notifies])]
      at leaving
    have counted' : pool.taskCount =
        (pool.tasks.set index { task with phase := .gone }).countP HalfClose.counts :=
      counted.trans on.symm
    have some : 0 < pool.latch.leaving := by
      simp only [latch]
      omega
    have fewer : (pool.tasks.set index { task with phase := .gone }).countP HalfClose.notifies =
        pool.latch.leaving - 1 := by
      simp only [latch]
      omega
    dsimp only at stepped
    split at stepped
    · split at stepped
      · rename_i waits
        cases stepped
        refine ⟨counted', ?_⟩
        have move := @Latch.Move.wake pool.latch woken some waits
        rw [← fewer] at move
        exact move
      · cases stepped
    · rename_i nobody
      cases stepped
      refine ⟨counted', ?_⟩
      have move := @Latch.Move.store pool.latch some nobody
      rw [← fewer] at move
      exact move
  · cases stepped

/-- The pool does what waiting for workers allows. -/
theorem step_latch (counted : pool.Counted) (stepped : pool.step event = some pool') :
    pool'.Counted ∧ (pool'.latch = pool.latch ∨ pool.latch.Move pool'.latch) := by
  cases event with
  | create secs => exact (latch_create counted stepped).imp_right .inr
  | task index event => exact (latch_task counted stepped).imp_right .inl
  | fetchSub index => exact (latch_fetchSub counted stepped).imp_right .inr
  | notifyOne index woken => exact (latch_notifyOne counted stepped).imp_right .inr
  | shutdown =>
      cases stepped
      exact ⟨counted, .inr .enter⟩
  | load caller =>
      simp only [step] at stepped
      split at stepped
      · rename_i tests
        cases stepped
        exact ⟨counted, .inr (@Latch.Move.test pool.latch caller tests)⟩
      · cases stepped
  | poll caller =>
      simp only [step] at stepped
      split at stepped
      · rename_i registers
        split at stepped
        · rename_i permit
          cases stepped
          exact ⟨counted, .inr (@Latch.Move.take pool.latch caller registers permit)⟩
        · rename_i empty
          cases stepped
          exact ⟨counted,
            .inr (@Latch.Move.register pool.latch caller registers (Bool.eq_false_iff.2 empty))⟩
      · cases stepped

/-! ## Every reachable pool -/

/-- What holds of every reachable pool. -/
structure Sound (pool : HalfClosePool) : Prop where
  counted : pool.Counted
  tasks : ∀ task ∈ pool.tasks, task.Sound
  asked : pool.callers ≠ [] → pool.token
  awake : pool.latch.Awake

/-- Where a step leaves the tasks: one takes a step of its own, one is created, one is dropped or
nothing happens to them. -/
theorem step_tasks (stepped : pool.step event = some pool') :
    (∃ index task task' taken, pool.tasks[index]? = some task ∧
        task.step pool.token taken = some task' ∧ pool'.tasks = pool.tasks.set index task') ∨
      (∃ secs, event = .create secs ∧ pool'.tasks = pool.tasks ++ [.create secs]) ∨
      (∃ index task, pool.tasks[index]? = some task ∧
        (task.phase = .drop ∧ pool'.tasks = pool.tasks.set index { task with phase := .notify } ∨
          task.phase = .notify ∧ pool'.tasks = pool.tasks.set index { task with phase := .gone })) ∨
      pool'.tasks = pool.tasks := by
  cases event with
  | create secs =>
      cases stepped
      exact .inr (.inl ⟨secs, rfl, rfl⟩)
  | task index event =>
      obtain ⟨task, there, stepped⟩ := Option.bind_eq_some_iff.1 stepped
      obtain ⟨task', moved, rfl⟩ := Option.map_eq_some_iff.1 stepped
      exact .inl ⟨index, task, task', event, there, moved, rfl⟩
  | fetchSub index =>
      obtain ⟨task, there, stepped⟩ := Option.bind_eq_some_iff.1 stepped
      split at stepped
      · rename_i phase
        cases stepped
        exact .inr (.inr (.inl ⟨index, task, there, .inl ⟨phase, rfl⟩⟩))
      · cases stepped
  | notifyOne index woken =>
      obtain ⟨task, there, stepped⟩ := Option.bind_eq_some_iff.1 stepped
      split at stepped
      · rename_i phase
        refine .inr (.inr (.inl ⟨index, task, there, .inr ⟨phase, ?_⟩⟩))
        dsimp only at stepped
        repeat' split at stepped
        all_goals cases stepped
        all_goals rfl
      · cases stepped
  | _ =>
      right; right; right
      simp only [step] at stepped
      repeat' split at stepped
      all_goals cases stepped
      all_goals rfl

/-- Only `shutdown` cancels the token, and only it adds a call. -/
theorem step_token (stepped : pool.step event = some pool') : (pool.token → pool'.token) ∧
    (event ≠ .shutdown → pool'.token = pool.token ∧
      pool'.callers.length = pool.callers.length) ∧ (event = .shutdown → pool'.token) := by
  cases event with
  | shutdown =>
      cases stepped
      exact ⟨fun _ => rfl, fun other => absurd rfl other, fun _ => rfl⟩
  | task index event =>
      obtain ⟨task, _, stepped⟩ := Option.bind_eq_some_iff.1 stepped
      obtain ⟨task', _, rfl⟩ := Option.map_eq_some_iff.1 stepped
      exact ⟨id, fun _ => ⟨rfl, rfl⟩, by rintro ⟨⟩⟩
  | fetchSub index =>
      obtain ⟨task, _, stepped⟩ := Option.bind_eq_some_iff.1 stepped
      split at stepped
      · cases stepped
        exact ⟨id, fun _ => ⟨rfl, rfl⟩, by rintro ⟨⟩⟩
      · cases stepped
  | notifyOne index woken =>
      obtain ⟨task, _, stepped⟩ := Option.bind_eq_some_iff.1 stepped
      dsimp only at stepped
      repeat' split at stepped
      all_goals cases stepped
      all_goals exact ⟨id, fun _ => ⟨rfl, by simp⟩, by rintro ⟨⟩⟩
  | _ =>
      simp only [step] at stepped
      repeat' split at stepped
      all_goals cases stepped
      all_goals exact ⟨id, fun _ => ⟨rfl, by simp⟩, by rintro ⟨⟩⟩

theorem Sound.step (sound : pool.Sound) (stepped : pool.step event = some pool') : pool'.Sound := by
  obtain ⟨counted, moved⟩ := step_latch sound.counted stepped
  obtain ⟨token, others, shutdown⟩ := step_token stepped
  refine ⟨counted, ?_, fun called => ?_, ?_⟩
  · have exchanged {index : Nat} {task' : HalfClose} (fresh : task'.Sound)
        (tasks : pool'.tasks = pool.tasks.set index task') : ∀ task ∈ pool'.tasks, task.Sound := by
      intro task member
      rw [tasks] at member
      rcases List.mem_or_eq_of_mem_set member with old | rfl
      · exact sound.tasks task old
      · exact fresh
    rcases step_tasks stepped with ⟨index, task, task', taken, there, step, tasks⟩ |
      ⟨secs, _, tasks⟩ | ⟨index, task, there, ⟨phase, tasks⟩ | ⟨phase, tasks⟩⟩ | tasks
    · exact exchanged ((sound.tasks task (List.mem_of_getElem? there)).step step) tasks
    · intro task member
      rw [tasks] at member
      rcases List.mem_append.1 member with old | new
      · exact sound.tasks task old
      · rw [List.mem_singleton.1 new]
        exact HalfClose.sound_create secs
    · have fresh := sound.tasks task (List.mem_of_getElem? there)
      exact exchanged (fresh.dropped (.inl phase) (.inl rfl)) tasks
    · have fresh := sound.tasks task (List.mem_of_getElem? there)
      exact exchanged (fresh.dropped (.inr phase) (.inr rfl)) tasks
    · rw [tasks]
      exact sound.tasks
  · by_cases same : event = .shutdown
    · exact shutdown same
    · refine token (sound.asked fun nobody => called ?_)
      have length := (others same).2
      rw [nobody] at length
      exact List.eq_nil_of_length_eq_zero length
  · rcases moved with same | moved
    · rw [same]
      exact sound.awake
    · exact moved.awake sound.awake

theorem reach_sound {allow : HalfClosePool → PoolEvent → Prop} {pool : HalfClosePool}
    (reach : poolMachine.Reach allow pool) : pool.Sound := by
  refine reach.invariant Sound (fun pool initial => ?_)
    fun _ _ _ _ sound _ stepped => sound.step stepped
  cases initial
  exact ⟨rfl, by simp, fun called => absurd rfl called, Latch.awake_empty⟩

/-- Every task in a pool whose counter is zero has been taken off it. -/
theorem Sound.off (sound : pool.Sound) (zero : pool.taskCount = 0) : ∀ task ∈ pool.tasks,
    task.phase = .notify ∨ task.phase = .gone := by
  intro task member
  have counted := sound.counted
  rw [Counted, zero] at counted
  have off := List.countP_eq_zero.1 counted.symm task member
  simp only [HalfClose.counts, Bool.and_eq_true, decide_eq_true_eq, not_and_or, not_not] at off
  exact off

/-- Every task has been dropped. -/
theorem Sound.gone (sound : pool.Sound) (gone : ∀ task ∈ pool.tasks, task.phase = .gone) :
    pool.latch.working = 0 ∧ pool.latch.leaving = 0 := by
  constructor
  · refine sound.counted.trans (List.countP_eq_zero.2 fun task member => ?_)
    simp [HalfClose.counts, gone task member]
  · refine List.countP_eq_zero.2 fun task member => ?_
    simp [HalfClose.notifies, gone task member]

/-! ## How often the packet is sent -/

/-- The packets that are sent, with the one that is being sent. -/
def begun (task : HalfClose) : Nat :=
  task.sent + if task.phase = .create ∨ task.phase = .send then 1 else 0

/-- After the token has been cancelled no further packet is begun. -/
theorem begun_step {task task' : HalfClose} {taken : HalfCloseEvent}
    (stepped : task.step true taken = some task') : begun task' ≤ begun task := by
  obtain ⟨secs, repeats, isClosed, phase, spawned, transport, sent⟩ := task
  cases taken <;> cases phase <;> simp only [HalfClose.step, reduceCtorEq] at stepped
  all_goals (repeat' split at stepped) <;> cases stepped <;> simp_all [begun]

/-- The packets of a task that may not have been created. -/
def sentOf (pool : HalfClosePool) (index : Nat) : Nat := pool.tasks[index]?.elim 0 HalfClose.sent

theorem begun_steps {allow : HalfClosePool → PoolEvent → Prop}
    (steps : poolMachine.Steps allow pool pool') (cancelled : pool.token) :
    pool'.token ∧ ∀ index task, pool'.tasks[index]? = some task →
      begun task ≤ sentOf pool index + 1 := by
  induction steps with
  | refl =>
      refine ⟨cancelled, fun index task there => ?_⟩
      rw [sentOf, there, Option.elim_some, begun]
      split <;> omega
  | @step middle last event _ _ stepped inductionHypothesis =>
      obtain ⟨token, bound⟩ := inductionHypothesis
      refine ⟨(step_token stepped).1 token, ?_⟩
      have exchanged {index : Nat} {old new : HalfClose} (there : middle.tasks[index]? = some old)
          (fewer : begun new ≤ begun old) (tasks : last.tasks = middle.tasks.set index new)
          (place : Nat) (task : HalfClose) (here : last.tasks[place]? = some task) :
          begun task ≤ sentOf pool place + 1 := by
        rw [tasks, List.getElem?_set] at here
        split at here
        · rename_i same
          subst same
          split at here
          · cases here
            exact Nat.le_trans fewer (bound index old there)
          · cases here
        · exact bound place task here
      rcases step_tasks stepped with ⟨index, task, task', taken, there, step, tasks⟩ |
        ⟨secs, _, tasks⟩ | ⟨index, task, there, ⟨phase, tasks⟩ | ⟨phase, tasks⟩⟩ | tasks
      · rw [token] at step
        exact exchanged there (begun_step step) tasks
      · intro place task here
        rw [tasks, List.getElem?_append] at here
        split at here
        · exact bound place task here
        · rw [List.mem_singleton.1 (List.mem_of_getElem? here)]
          exact Nat.succ_le_succ (Nat.zero_le _)
      · exact exchanged there (by simp [begun, phase]) tasks
      · exact exchanged there (by simp [begun, phase]) tasks
      · rw [tasks]
        exact bound

end HalfClosePool

/-- A task sends its packet at most once for every whole second of its timeout, or once if there is none.
From the moment a call of `shutdown` has cancelled the token every task, old or new, sends one more
packet at most. -/
theorem resets_bounded {allow : HalfClosePool → PoolEvent → Prop} {pool : HalfClosePool}
    (reach : poolMachine.Reach allow pool) :
    (∀ task ∈ pool.tasks, task.sent ≤ max task.secs 1) ∧ ∀ pool', pool.token →
      poolMachine.Steps (fun _ _ => True) pool pool' → ∀ index task,
        pool'.tasks[index]? = some task → task.sent ≤ pool.sentOf index + 1 := by
  have sound := HalfClosePool.reach_sound reach
  constructor
  · intro task member
    have budget := (sound.tasks task member).budget
    omega
  · intro pool' cancelled steps index task there
    have bound := (HalfClosePool.begun_steps steps cancelled).2 index task there
    simp only [HalfClosePool.begun] at bound
    omega

/-- A task with a timeout of two seconds that has sent two packets. -/
theorem resets_bounded_two : ∃ pool task, poolMachine.Reachable pool ∧ task ∈ pool.tasks ∧
    task.sent = 2 ∧ task.sent ≤ max task.secs 1 := by
  have run : (poolMachine.exec (fun _ _ => true) {}
      [.create 2, .task 0 .sent, .task 0 .spawn, .task 0 .tick, .task 0 .sent]).map
        (fun pool => pool.tasks.map HalfClose.sent) = some [2] := by decide
  obtain ⟨pool, executed, view⟩ := Option.map_eq_some_iff.1 run
  have reach : poolMachine.Reachable pool :=
    Machine.reach_of_exec (fun _ _ _ => trivial) (.initial rfl) executed
  have two : 2 ∈ pool.tasks.map HalfClose.sent := by
    rw [view]
    exact List.mem_singleton_self 2
  obtain ⟨task, member, sent⟩ := List.mem_map.1 two
  exact ⟨pool, task, reach, member, sent, (resets_bounded reach).1 task member⟩

/-- When a call of `shutdown` returns, every task has been taken off the counter, and those that have
been spawned have dropped their transports before. -/
theorem shutdown_returns_alone {allow : HalfClosePool → PoolEvent → Prop}
    {pool pool' : HalfClosePool} (reach : poolMachine.Reach allow pool) {caller : Nat}
    (stepped : pool.step (.load caller) = some pool')
    (returned : pool'.callers[caller]? = some .returned) : pool'.token ∧ ∀ task ∈ pool'.tasks,
      (task.phase = .notify ∨ task.phase = .gone) ∧ (task.spawned → task.transport = false) := by
  have sound := HalfClosePool.reach_sound reach
  simp only [HalfClosePool.step] at stepped
  split at stepped
  · rename_i tests
    cases stepped
    have zero : pool.taskCount = 0 := by
      by_contra some
      rw [if_neg some, List.getElem?_set_self (List.getElem?_eq_some_iff.1 tests).1] at returned
      cases returned
    refine ⟨sound.asked (List.ne_nil_of_mem (List.mem_of_getElem? tests)), fun task member => ?_⟩
    have off := sound.off zero task member
    exact ⟨off, (sound.tasks task member).late (.inr off)⟩
  · cases stepped

/-- A call that has waited for a task returns when the task is gone. -/
theorem shutdown_returns_alone_one : ∃ pool pool', poolMachine.Reachable pool ∧
    pool.step (.load 0) = some pool' ∧ pool'.tasks ≠ [] ∧ ∀ task ∈ pool'.tasks,
      (task.phase = .notify ∨ task.phase = .gone) ∧ (task.spawned → task.transport = false) := by
  have run : (poolMachine.exec (fun _ _ => true) {}
      [.create 5, .task 0 .sent, .task 0 .spawn, .shutdown, .load 0, .poll 0, .task 0 .leave,
        .task 0 .dropTransport, .fetchSub 0, .notifyOne 0 0]).map
      (fun pool => (pool.step (.load 0)).map fun pool' =>
        (pool'.callers[0]?, pool'.tasks.map HalfClose.spawned)) =
        some (some (some .returned, [true])) := by decide
  obtain ⟨pool, executed, view⟩ := Option.map_eq_some_iff.1 run
  obtain ⟨pool', stepped, view⟩ := Option.map_eq_some_iff.1 view
  simp only [Prod.mk.injEq] at view
  have reach : poolMachine.Reachable pool :=
    Machine.reach_of_exec (fun _ _ _ => trivial) (.initial rfl) executed
  refine ⟨pool, pool', reach, stepped, ?_, (shutdown_returns_alone reach stepped view.1).2⟩
  rintro nothing
  rw [nothing] at view
  cases view.2

/-! ## That `shutdown` returns -/

/-- The event is not a new task or call. -/
def PoolEvent.settles : PoolEvent → Bool
  | .create _ => false
  | .shutdown => false
  | _ => true

/-- The event is up to the tasks and the calls alone: it is neither a new one nor the answer of a
transport or a timer. -/
def PoolEvent.own : PoolEvent → Bool
  | .create _ => false
  | .shutdown => false
  | .task _ event => event ∈ [.interrupted, .spawn, .leave, .dropTransport]
  | _ => true

/-- How many steps a task can still take when the token is cancelled. Its notification counts for the
steps of the call that gets it. -/
def HalfClose.weight (task : HalfClose) : Nat :=
  (match task.phase with
    | .create => 9
    | .send => 8
    | .run => 7
    | .gate => 6
    | .leave => 6
    | .drop => 5
    | .notify => 4
    | .gone => 0) + if task.transport then 1 else 0

def HalfClosePool.callerWeight : Waiter → Nat
  | .testing => 3
  | .registering => 2
  | .waiting => 1
  | .returned => 0

/-- How many steps a pool whose token is cancelled can take without new tasks or calls. -/
def HalfClosePool.potential (pool : HalfClosePool) : Nat :=
  (pool.tasks.map HalfClose.weight).sum + (if pool.permit then 2 else 0) +
    (pool.callers.map HalfClosePool.callerWeight).sum

theorem HalfClose.weight_step {task task' : HalfClose} {event : HalfCloseEvent}
    (stepped : task.step true event = some task') : task'.weight < task.weight := by
  obtain ⟨secs, repeats, isClosed, phase, spawned, transport, sent⟩ := task
  cases event <;> cases phase <;> simp only [HalfClose.step, reduceCtorEq] at stepped
  all_goals (repeat' split at stepped) <;> cases stepped
  all_goals
    simp_all [weight] <;> split <;> omega

/-- A task that is gone stays so. -/
theorem HalfClose.gone_step {task task' : HalfClose} {cancelled : Bool} {event : HalfCloseEvent}
    (phase : task.phase = .gone) (stepped : task.step cancelled event = some task') :
    task'.phase = .gone := by
  cases event <;> simp only [step, phase, reduceCtorEq] at stepped
  split at stepped
  · cases stepped
    rfl
  · cases stepped

namespace HalfClosePool

variable {pool pool' : HalfClosePool} {event : PoolEvent}

/-- After the token has been cancelled every step is a step towards the end. -/
theorem potential_step (cancelled : pool.token) (settles : event.settles)
    (stepped : pool.step event = some pool') : pool'.token ∧ pool'.potential < pool.potential := by
  refine ⟨(step_token stepped).1 cancelled, ?_⟩
  cases event with
  | create secs => cases settles
  | shutdown => cases settles
  | task index event =>
      obtain ⟨task, there, stepped⟩ := Option.bind_eq_some_iff.1 stepped
      obtain ⟨task', moved, rfl⟩ := Option.map_eq_some_iff.1 stepped
      rw [cancelled] at moved
      have less := HalfClose.weight_step moved
      have sum := Latch.sum_set_add there HalfClose.weight task'
      simp only [potential]
      omega
  | fetchSub index =>
      obtain ⟨task, there, stepped⟩ := Option.bind_eq_some_iff.1 stepped
      split at stepped
      · rename_i phase
        cases stepped
        have sum := Latch.sum_set_add there HalfClose.weight { task with phase := .notify }
        simp only [HalfClose.weight, phase] at sum
        simp only [potential]
        omega
      · cases stepped
  | notifyOne index woken =>
      obtain ⟨task, there, stepped⟩ := Option.bind_eq_some_iff.1 stepped
      split at stepped
      · rename_i phase
        have sum := Latch.sum_set_add there HalfClose.weight { task with phase := .gone }
        simp only [HalfClose.weight, phase] at sum
        dsimp only at stepped
        split at stepped
        · split at stepped
          · rename_i waits
            cases stepped
            have calls := Latch.sum_set_add waits callerWeight .testing
            simp only [callerWeight] at calls
            simp only [potential]
            omega
          · cases stepped
        · cases stepped
          simp only [potential, if_true]
          split <;> omega
      · cases stepped
  | load caller =>
      simp only [step] at stepped
      split at stepped
      · rename_i tests
        cases stepped
        have calls := Latch.sum_set_add tests callerWeight
          (if pool.taskCount = 0 then .returned else .registering)
        simp only [potential]
        split at calls <;> simp only [callerWeight] at calls <;> simp_all <;> omega
      · cases stepped
  | poll caller =>
      simp only [step] at stepped
      split at stepped
      · rename_i registers
        split at stepped
        · rename_i permit
          cases stepped
          have calls := Latch.sum_set_add registers callerWeight .testing
          simp only [callerWeight] at calls
          simp only [potential, permit, if_true, Bool.false_eq_true, if_false]
          omega
        · rename_i empty
          cases stepped
          have calls := Latch.sum_set_add registers callerWeight .waiting
          simp only [callerWeight] at calls
          simp only [potential]
          omega
      · cases stepped

/-- Where no task and no call can go on, all tasks are gone and the calls wait or have returned. -/
theorem halted (cancelled : pool.token)
    (stuck : ∀ event : PoolEvent, event.own → pool.step event = none) :
    (∀ task ∈ pool.tasks, task.phase = .gone ∧ task.transport = false) ∧
      ∀ caller ∈ pool.callers, caller = .waiting ∨ caller = .returned := by
  constructor
  · intro task member
    obtain ⟨index, there⟩ := List.mem_iff_getElem?.1 member
    have still (event : HalfCloseEvent) (own : (PoolEvent.task index event).own) :
        task.step true event = none := by
      have none := stuck _ own
      rw [step, there, Option.bind_some, Option.map_eq_none_iff, cancelled] at none
      exact none
    have interrupted := still .interrupted rfl
    have spawn := still .spawn rfl
    have leave := still .leave rfl
    have dropTransport := still .dropTransport rfl
    have fetchSub := stuck (.fetchSub index) rfl
    rw [step, there, Option.bind_some] at fetchSub
    have silent : task.phase ≠ .notify := by
      intro phase
      by_cases waits : .waiting ∈ pool.callers
      · obtain ⟨woken, here⟩ := List.mem_iff_getElem?.1 waits
        have notifyOne := stuck (.notifyOne index woken) rfl
        simp [step, there, phase, waits, here] at notifyOne
      · have notifyOne := stuck (.notifyOne index 0) rfl
        simp [step, there, phase, waits] at notifyOne
    cases phase : task.phase <;> simp_all [HalfClose.step]
  · intro caller member
    obtain ⟨index, there⟩ := List.mem_iff_getElem?.1 member
    have load := stuck (.load index) rfl
    have poll := stuck (.poll index) rfl
    cases caller with
    | testing => simp [step, there] at load
    | registering =>
        simp only [step, there, if_true] at poll
        split at poll <;> cases poll
    | waiting => exact .inl rfl
    | returned => exact .inr rfl

/-- Where all tasks are gone with their transports and every call waits or has returned, no task and no
call can go on. -/
theorem still_of_gone (tasks : ∀ task ∈ pool.tasks, task.phase = .gone ∧ task.transport = false)
    (callers : ∀ caller ∈ pool.callers, caller = .waiting ∨ caller = .returned) (own : event.own) :
    pool.step event = none := by
  have call {index : Nat} {caller : Waiter} (other : ¬ (caller = .waiting ∨ caller = .returned)) :
      pool.callers[index]? ≠ some caller :=
    fun there => other (callers caller (List.mem_of_getElem? there))
  cases event with
  | create secs => cases own
  | shutdown => cases own
  | load caller => exact if_neg (call (by decide))
  | poll caller => exact if_neg (call (by decide))
  | task index event =>
      cases there : pool.tasks[index]? with
      | none => simp [step, there]
      | some task =>
          obtain ⟨phase, transport⟩ := tasks task (List.mem_of_getElem? there)
          cases event <;> simp [step, there, HalfClose.step, phase, transport]
  | fetchSub index =>
      cases there : pool.tasks[index]? with
      | none => simp [step, there]
      | some task => simp [step, there, (tasks task (List.mem_of_getElem? there)).1]
  | notifyOne index woken =>
      cases there : pool.tasks[index]? with
      | none => simp [step, there]
      | some task => simp [step, there, (tasks task (List.mem_of_getElem? there)).1]

end HalfClosePool

/-- `shutdown` settles, whatever order the tasks and calls run in and however transports answer: as
long as no task is created and no call is made a pool whose token is cancelled takes only so many
steps, and when nothing is left to do for the tasks and calls themselves all tasks are gone with their
transports and a call has returned. If there is only one call, it is this one. -/
theorem shutdown_settles {allow : HalfClosePool → PoolEvent → Prop} {pool final : HalfClosePool}
    (reach : poolMachine.Reach allow pool) (called : pool.callers ≠ []) {events : List PoolEvent}
    (run : poolMachine.exec (fun _ event => event.settles) pool events = some final) :
    events.length ≤ pool.potential ∧
      ((∀ event : PoolEvent, event.own → final.step event = none) →
        (∀ task ∈ final.tasks, task.phase = .gone ∧ task.transport = false) ∧
          .returned ∈ final.callers ∧ (pool.callers.length = 1 → final.callers = [.returned])) := by
  have sound := HalfClosePool.reach_sound reach
  have lowers (state : HalfClosePool) (event : PoolEvent) (next : HalfClosePool)
      (holds : state.Sound ∧ state.token ∧ state.callers.length = pool.callers.length)
      (settles : event.settles) (stepped : state.step event = some next) :
      (next.Sound ∧ next.token ∧ next.callers.length = pool.callers.length) ∧
        next.potential < state.potential := by
    obtain ⟨sound, cancelled, calls⟩ := holds
    obtain ⟨token, less⟩ := HalfClosePool.potential_step cancelled settles stepped
    have other : event ≠ .shutdown := by
      rintro rfl
      cases settles
    have length := ((HalfClosePool.step_token stepped).2.1 other).2
    exact ⟨⟨sound.step stepped, token, length.trans calls⟩, less⟩
  obtain ⟨⟨kept, cancelled, calls⟩, bound⟩ :=
    Machine.length_le_of_exec _ _ lowers ⟨sound, sound.asked called, rfl⟩ run
  refine ⟨by omega, fun stuck => ?_⟩
  obtain ⟨tasks, callers⟩ := HalfClosePool.halted cancelled stuck
  obtain ⟨idle, silent⟩ := kept.gone fun task member => (tasks task member).1
  have some : final.callers ≠ [] := by
    intro nobody
    rw [nobody] at calls
    exact called (List.eq_nil_of_length_eq_zero calls.symm)
  have returned : .returned ∈ final.callers := kept.awake.returned idle silent callers some
  refine ⟨tasks, returned, fun one => ?_⟩
  obtain ⟨caller, equal⟩ := List.length_eq_one_iff.1 (calls.trans one)
  rw [equal] at returned ⊢
  rw [List.mem_singleton.1 returned]

/-- A call that waits for a task whose transport does not answer. -/
theorem shutdown_settles_one : ∃ pool, poolMachine.Reachable pool ∧ 7 ≤ pool.potential ∧
    ∃ final, poolMachine.Reachable final ∧ .returned ∈ final.callers := by
  have run : (poolMachine.exec (fun _ _ => true) {} [.create 5, .shutdown]).bind (fun pool =>
      (poolMachine.exec (fun _ event => event.settles) pool [.load 0, .poll 0, .task 0 .interrupted,
        .fetchSub 0, .notifyOne 0 0, .load 0, .task 0 .dropTransport]).map fun final =>
          (pool.callers, final.callers, final.tasks.map fun task => (task.phase, task.transport))) =
        some ([.testing], [.returned], [(.gone, false)]) := by decide
  obtain ⟨pool, executed, run⟩ := Option.bind_eq_some_iff.1 run
  obtain ⟨final, settled, view⟩ := Option.map_eq_some_iff.1 run
  simp only [Prod.mk.injEq] at view
  obtain ⟨callers, calls, tasks⟩ := view
  have reach : poolMachine.Reachable pool :=
    Machine.reach_of_exec (fun _ _ _ => trivial) (.initial rfl) executed
  have called : pool.callers ≠ [] := by
    rw [callers]
    decide
  obtain ⟨bound, ends⟩ := shutdown_settles reach called settled
  refine ⟨pool, reach, bound, final,
    Machine.reach_of_exec (fun _ _ _ => trivial) reach settled, (ends fun event own => ?_).2.1⟩
  refine HalfClosePool.still_of_gone (fun task member => ?_) (fun caller member => ?_) own
  · have view : (task.phase, task.transport) ∈
        final.tasks.map fun task => (task.phase, task.transport) := List.mem_map_of_mem member
    rw [tasks, List.mem_singleton, Prod.mk.injEq] at view
    exact view
  · rw [calls] at member
    exact .inr (List.mem_singleton.1 member)

/-- Where all tasks are gone a call of `shutdown` that waits waits for good, unless a new task is
created. -/
theorem waiting_for_good {allow : HalfClosePool → PoolEvent → Prop} {pool pool' : HalfClosePool}
    (reach : poolMachine.Reach allow pool) (gone : ∀ task ∈ pool.tasks, task.phase = .gone)
    {caller : Nat} (waits : pool.callers[caller]? = some .waiting)
    (steps : poolMachine.Steps (fun _ event => ∀ secs, event ≠ .create secs) pool pool') :
    pool'.callers[caller]? = some .waiting := by
  have kept : pool'.Sound ∧ (∀ task ∈ pool'.tasks, task.phase = .gone) ∧
      pool'.callers[caller]? = some .waiting := by
    induction steps with
    | refl => exact ⟨HalfClosePool.reach_sound reach, gone, waits⟩
    | @step middle last event _ other stepped inductionHypothesis =>
        obtain ⟨sound, gone, waits⟩ := inductionHypothesis
        have later := sound.step stepped
        have ended : ∀ task ∈ last.tasks, task.phase = .gone := by
          rcases HalfClosePool.step_tasks stepped with ⟨index, task, task', taken, there, step, tasks⟩ |
            ⟨secs, new, _⟩ | ⟨index, task, there, ⟨phase, _⟩ | ⟨phase, _⟩⟩ | tasks
          · have phase := gone task (List.mem_of_getElem? there)
            intro other member
            rw [tasks] at member
            rcases List.mem_or_eq_of_mem_set member with old | rfl
            · exact gone other old
            · exact HalfClose.gone_step phase step
          · exact absurd new (other secs)
          · rw [gone task (List.mem_of_getElem? there)] at phase
            cases phase
          · rw [gone task (List.mem_of_getElem? there)] at phase
            cases phase
          · rw [tasks]
            exact gone
        refine ⟨later, ended, ?_⟩
        obtain ⟨idle, silent⟩ := sound.gone gone
        rcases (HalfClosePool.step_latch sound.counted stepped).2 with same | move
        · have callers : last.callers = middle.callers := congrArg Latch.waiters same
          rw [callers]
          exact waits
        · exact (move.waiting_stays idle silent waits (later.gone ended).1).2
  exact kept.2.2

/-- Two calls of `shutdown` that find one task. -/
def twoCallEvents : List PoolEvent :=
  [.create 5, .shutdown, .shutdown, .load 0, .load 1, .poll 0, .poll 1, .task 0 .interrupted,
    .fetchSub 0, .notifyOne 0 0, .load 0, .task 0 .dropTransport]

/-- One of two calls returns and the other one waits for good. -/
theorem waiting_for_good_second : ∃ pool, poolMachine.Reachable pool ∧
    pool.callers = [.returned, .waiting] ∧ ∀ pool',
      poolMachine.Steps (fun _ event => ∀ secs, event ≠ .create secs) pool pool' →
        pool'.callers[1]? = some .waiting := by
  have run : (poolMachine.exec (fun _ _ => true) {} twoCallEvents).map
      (fun pool => (pool.callers, pool.tasks.map HalfClose.phase)) =
        some ([.returned, .waiting], [.gone]) := by decide
  obtain ⟨pool, executed, view⟩ := Option.map_eq_some_iff.1 run
  simp only [Prod.mk.injEq] at view
  have reach : poolMachine.Reachable pool :=
    Machine.reach_of_exec (fun _ _ _ => trivial) (.initial rfl) executed
  refine ⟨pool, reach, view.1, fun pool' steps => waiting_for_good reach ?_ ?_ steps⟩
  · intro task member
    have phase : task.phase ∈ pool.tasks.map HalfClose.phase := List.mem_map_of_mem member
    rw [view.2] at phase
    exact List.mem_singleton.1 phase
  · rw [view.1]
    rfl

end KcpRs
