import KcpRs.Lib.Latch
import KcpRs.Listener.Loop
import KcpRs.Stream.Panic

/-!
# The sessions of a closing listener

`run` of the listener leaves its loop when it is closing, no message waits and no session is left.
A session stays in the table until the report of its KCP task has been processed. When that task has
ended the report is under way (`report_under_way`). One that has panicked sends none, and its session
stays. A closing listener takes boundedly many turns for its sessions, none of them blocks for good,
and in the end there are only the sessions whose KCP task has panicked (`listener_drains`).

`run` looks at the table only at the top of its loop. After the last message it may wait in its
`select!` for one more datagram or packet.
-/

namespace KcpRs

open Lib

/-- The KCP task has panicked. -/
def Job.panicked (job : Job) : Bool := job.task.all fun t => t.pc = .panicked

/-- The KCP task has ended. -/
def Job.ended (job : Job) : Bool := job.task.any fun t => t.pc = .exited

theorem Job.gone_eq (job : Job) : job.gone = (job.ended || job.panicked) := by
  unfold gone ended panicked
  cases job.task <;> rfl

namespace Service

variable {s s' : Service} {event : ServiceEvent}

/-- How many messages can still be processed and how many `accept_stream` tasks can still end. A KCP
task sends one message when it ends, an `accept_stream` task at most one. -/
def potential (s : Service) : Nat :=
  s.messages.length + 2 * s.jobs.countP (fun job => !job.accepted) +
    s.jobs.countP fun job => !job.gone

/-! ## No session is leaked -/

/-- A session whose KCP task has ended is in the table only until its report is processed. -/
theorem report_under_way (matched : s.Matched) {conv : U32} {here : Session}
    (entry : s.listener.convMap.get? conv = some here) {job : Job}
    (there : s.jobs[here.job]? = some job) (ended : job.ended) : 0 < s.reporting here.job := by
  obtain ⟨t, running, exited⟩ := (Option.any_eq_true _ _).1 ended
  have task : s.taskOf here.job = some t := by rw [taskOf, there, Option.bind_some, running]
  obtain ⟨owner, _, reach⟩ := matched.tasks _ t task
  have once : s.reported here.job = 1 := by
    rw [reported, task, Option.elim_some, reach_reportedOnce (reach_of_server reach),
      if_pos (of_decide_eq_true exited)]
  have alive : ¬ s.isEnded here.job := fun ended =>
    (matched.gone _ ended).2 conv here entry rfl
  have counted := matched.counted here.job
  rw [isEnded_iff] at alive
  omega

/-! ## One turn of a closing listener -/

/-- Only the states of the tasks matter. -/
theorem countP_state {jobs jobs' : List Job} (same : jobs'.map Job.state = jobs.map Job.state) :
    jobs'.countP (fun job => !job.accepted) = jobs.countP (fun job => !job.accepted) ∧
      jobs'.countP (fun job => !job.gone) = jobs.countP fun job => !job.gone := by
  have count (p : Option Task × Bool → Bool) :
      jobs'.countP (fun job => p (Job.state job)) = jobs.countP fun job => p (Job.state job) := by
    have mapped := congrArg (List.countP p) same
    rw [List.countP_map, List.countP_map] at mapped
    exact mapped
  exact ⟨count fun state => !state.2,
    count fun state => !({ task := state.1 } : Job).gone⟩

/-- A step that opens no session gives no released conv out again. -/
theorem allows_of_deeds {deeds : List Deed} (stepped : s.step event = some s')
    (same : s'.deeds = s.deeds ++ deeds) (none : deeds.filterMap Deed.session = []) :
    s.allocatesUnreleased event := by
  rw [allocatesUnreleased, stepped, Option.all_some, same, List.drop_left, none]
  rfl

theorem isClosing_processMsg (l : Listener) (msg : Message) (now : Nat) :
    (l.processMsg msg now).isClosing = l.isClosing := by
  cases msg with
  | connect stream =>
      simp only [Listener.processMsg]
      split
      · rfl
      · split <;> rfl
  | disconnect conv =>
      simp only [Listener.processMsg]
      split <;> rfl

/-- A listener that is closing goes on closing, whatever happens besides packets and messages. -/
theorem isClosing_step {l l' : Listener} {event : ListenerEvent} (closing : l.isClosing)
    (stepped : l.step event = some l')
    (quiet : ∀ bytes peerAddr now random, event ≠ .packet bytes peerAddr now random)
    (silent : ∀ msg now, event ≠ .message msg now) : l'.isClosing := by
  cases event with
  | packet bytes peerAddr now random => exact absurd rfl (quiet _ _ _ _)
  | message msg now => exact absurd rfl (silent _ _)
  | cache call now =>
      obtain ⟨_, _, rfl⟩ := Option.map_eq_some_iff.1 stepped
      exact closing
  | accept =>
      simp only [Listener.step] at stepped
      split at stepped
      · cases stepped
      · cases stepped
        exact closing
  | close =>
      cases stepped
      exact closing
  | closing =>
      cases stepped
      rfl

/-- A packet opens no session while the listener is closing. -/
theorem closing_packet (numbered : s.listener.Numbered) (closing : s.listener.isClosing)
    {bytes : Bytes} {peerAddr : SocketAddr} {now : Nat} {random : List U32} {clock : Nat → U32}
    (stepped : s.packet bytes peerAddr now random clock = some s') :
    s'.listener = s.listener ∧ s'.jobs.map Job.state = s.jobs.map Job.state ∧
      s'.messages = s.messages ∧ s'.deeds = s.deeds := by
  unfold Service.packet at stepped
  split at stepped
  · cases stepped
  · rename_i listener got
    cases stepped
    rcases Listener.getSession_cases got with ⟨rfl, _⟩ | ⟨_, _, _, _, _, _, _, _, _, found, _⟩
    · exact ⟨rfl, rfl, rfl, rfl⟩
    · cases found
  · rename_i session listener got
    rcases Listener.getSession_cases got with ⟨rfl, old⟩ | ⟨_, _, _, _, _, _, opens, _⟩
    · have number : session.job ≠ s.listener.spawned := by
        obtain ⟨_, _, _, here | ⟨_, _, _, _, _, _, here⟩⟩ := old session rfl <;>
          exact (numbered _ _ here).ne
      rw [if_neg number] at stepped
      obtain ⟨jobs, rfl, same⟩ := deliver_eq stepped
      exact ⟨rfl, same, rfl, rfl⟩
    · rw [closing] at opens
      cases opens

/-- A KCP task that has panicked stays so. -/
theorem panicked_step {t t' : Task} {event : Event} (transition : t.step event = some t')
    (panicked : t.pc = .panicked) : t'.pc = .panicked := by
  obtain ⟨act, rfl⟩ := Task.event_of_panicked transition panicked
  unfold Task.step at transition
  obtain ⟨_, _, _, rfl | ⟨_, rfl⟩⟩ := Task.app_eq transition
  · exact panicked
  · exact panicked

/-- A KCP task reports once, and then it is gone. -/
theorem reports_le {config : Config} {t t' : Task} {event : Event}
    (reach : (taskMachine config).Reachable t) (transition : t.step event = some t') :
    ((t'.trace.drop t.trace.length).filterMap Obs.disconnectConv).length +
      (if t'.pc = .exited ∨ t'.pc = .panicked then 0 else 1) ≤
        if t.pc = .exited ∨ t.pc = .panicked then 0 else 1 := by
  have once := reach_reportedOnce reach
  have later : (taskMachine config).Reachable t' := .step reach trivial transition
  have once' := reach_reportedOnce later
  have stays := panicked_step transition
  obtain ⟨extra, trace⟩ := Task.trace_prefix_of_moves (Task.step_moves (reach_placed reach) transition)
  rw [Task.ReportedOnce, Task.disconnects] at once once'
  rw [← trace, List.filterMap_append, List.length_append] at once'
  rw [← trace, List.drop_left]
  by_cases panicked : t.pc = .panicked
  · simp_all
  · split at once <;> split at once' <;> simp_all
    split <;> omega

/-- What a step of a closing listener does: no session is opened, one ends only with a message, and
what is left to do is not raised. -/
structure Settles (s : Service) (event : ServiceEvent) (s' : Service) : Prop where
  matched : s'.Matched
  closing : s'.listener.isClosing
  spent : (if event.drains then 1 else 0) + s'.potential ≤ s.potential
  kept : (∀ now, event ≠ .process now) → s'.listener.convMap = s.listener.convMap

theorem packet_settles (matched : s.Matched) (closing : s.listener.isClosing)
    {bytes : Bytes} {peerAddr : SocketAddr} {now : Nat} {random : List U32} {clock : Nat → U32}
    (stepped : s.packet bytes peerAddr now random clock = some s') :
    s.Settles (.packet bytes peerAddr now random clock) s' := by
  obtain ⟨listener, jobs, messages, deeds⟩ := closing_packet matched.numbered closing stepped
  constructor
  · exact matched.idle (congrArg Listener.table listener) jobs messages deeds
  · rw [listener, closing]
  · rw [potential, potential, messages, (countP_state jobs).1, (countP_state jobs).2]
    exact Nat.le_of_eq (Nat.zero_add _)
  · exact fun _ => congrArg Listener.convMap listener

theorem process_settles (matched : s.Matched) (closing : s.listener.isClosing) {now : Nat}
    (stepped : s.process now = some s') : s.Settles (.process now) s' := by
  unfold process at stepped
  split at stepped
  · cases stepped
  · rename_i job msg messages first
    have less : s.messages.length = messages.length + 1 := congrArg List.length first
    split at stepped
    · rename_i unknown
      cases stepped
      refine ⟨?_, (isClosing_processMsg _ _ _).trans closing, ?_, fun other => absurd rfl (other now)⟩
      · rw [Listener.processMsg_unknown unknown]
        exact matched.ignored first unknown
      · simp only [potential, ServiceEvent.drains, if_true, less]
        omega
    · rename_i session known
      split at stepped
      · cases stepped
      · cases stepped
        refine ⟨matched.processed ⟨known, rfl, rfl⟩ first rfl,
          (isClosing_processMsg _ _ _).trans closing, ?_, fun other => absurd rfl (other now)⟩
        simp only [potential, ServiceEvent.drains, if_true, less]
        omega

theorem task_settles (matched : s.Matched) (closing : s.listener.isClosing) {job : Nat}
    {event : Event} (stepped : s.step (.task job event) = some s') :
    s.Settles (.task job event) s' := by
  have taken := stepped
  simp only [Service.step, Service.task] at taken
  split at taken
  · cases taken
  · rename_i tasks here
    split at taken
    · rename_i t inbox running _
      obtain ⟨t', transition, rfl⟩ := Option.map_eq_some_iff.1 taken
      have allowed : s.allocatesUnreleased (.task job event) :=
        allows_of_deeds stepped (List.append_nil _).symm rfl
      refine ⟨matched.step allowed stepped, closing, ?_, fun _ => rfl⟩
      have current : s.taskOf job = some t := by rw [taskOf, here, Option.bind_some, running]
      obtain ⟨owner, _, reach⟩ := matched.tasks job t current
      have reports := reports_le (reach_of_server reach) transition
      have waiting : (s.jobs.set job { tasks with task := some t', inbox }).countP
          (fun job => !job.accepted) = s.jobs.countP fun job => !job.accepted :=
        Nat.add_right_cancel (Latch.countP_set_add here (fun job => !job.accepted) _)
      have alive := Latch.countP_set_add here (fun job => !job.gone)
        { tasks with task := some t', inbox }
      have gone : tasks.gone = decide (t.pc = .exited ∨ t.pc = .panicked) := by
        rw [Job.gone, running, Bool.decide_or]
      have gone' : { tasks with task := some t', inbox }.gone =
          decide (t'.pc = .exited ∨ t'.pc = .panicked) := (Bool.decide_or ..).symm
      rw [gone, gone'] at alive
      simp only [potential, ServiceEvent.drains, List.length_append, List.length_map, waiting]
      by_cases before : t.pc = .exited ∨ t.pc = .panicked <;>
        by_cases after : t'.pc = .exited ∨ t'.pc = .panicked <;>
        simp only [before, after, if_true, if_false, decide_true, decide_false, Bool.not_true,
          Bool.not_false, Bool.false_eq_true] at reports alive ⊢ <;> omega
    · cases taken

theorem acceptStream_settles (matched : s.Matched) (closing : s.listener.isClosing) {job : Nat}
    (stepped : s.step (.acceptStream job) = some s') : s.Settles (.acceptStream job) s' := by
  have taken := stepped
  simp only [Service.step, Service.acceptStream] at taken
  split at taken
  · cases taken
  · rename_i tasks here
    split at taken
    · cases taken
    · rename_i waiting
      have fewer := Latch.countP_set_add here (fun job => !job.accepted)
        { tasks with accepted := true }
      have alive : (s.jobs.set job { tasks with accepted := true }).countP
          (fun job => !job.gone) = s.jobs.countP fun job => !job.gone :=
        Nat.add_right_cancel (Latch.countP_set_add here (fun job => !job.gone) _)
      simp only [waiting, Bool.not_true, Bool.not_false, Bool.false_eq_true, if_true,
        if_false] at fewer
      have allowed (same : s'.deeds = s.deeds) : s.allocatesUnreleased (.acceptStream job) :=
        allows_of_deeds stepped (same.trans (List.append_nil _).symm) rfl
      split at taken
      · cases taken
        refine ⟨matched.step (allowed rfl) stepped, closing, ?_, fun _ => rfl⟩
        simp only [potential, ServiceEvent.drains, if_true, List.length_append,
          List.length_singleton, alive]
        omega
      · split at taken
        · cases taken
          refine ⟨matched.step (allowed rfl) stepped, closing, ?_, fun _ => rfl⟩
          simp only [potential, ServiceEvent.drains, if_true, alive]
          omega
        · cases taken

theorem other_settles (matched : s.Matched) (closing : s.listener.isClosing)
    {event : ListenerEvent} (stepped : s.step (.other event) = some s') :
    s.Settles (.other event) s' := by
  have settles (event : ListenerEvent)
      (mapped : (s.listener.step event).map (fun listener => { s with listener }) = some s')
      (quiet : ∀ bytes peerAddr now random, event ≠ .packet bytes peerAddr now random)
      (silent : ∀ msg now, event ≠ .message msg now) : s.Settles (.other event) s' := by
    obtain ⟨listener, moved, rfl⟩ := Option.map_eq_some_iff.1 mapped
    have table := (Listener.table_step moved quiet silent).1
    refine ⟨matched.idle table rfl rfl rfl, isClosing_step closing moved quiet silent, ?_, ?_⟩
    · exact Nat.le_of_eq (Nat.zero_add _)
    · exact fun _ => (Prod.mk.inj table).1
  cases event with
  | packet | message => cases stepped
  | cache call now => exact settles (.cache call now) stepped (by simp) (by simp)
  | accept => exact settles .accept stepped (by simp) (by simp)
  | close => exact settles .close stepped (by simp) (by simp)
  | closing => exact settles .closing stepped (by simp) (by simp)

theorem step_settles (matched : s.Matched) (closing : s.listener.isClosing)
    (stepped : s.step event = some s') : s.Settles event s' := by
  cases event with
  | packet bytes peerAddr now random clock => exact packet_settles matched closing stepped
  | process now => exact process_settles matched closing stepped
  | task job event => exact task_settles matched closing stepped
  | acceptStream job => exact acceptStream_settles matched closing stepped
  | other event => exact other_settles matched closing stepped

/-! ## When nothing is left to do -/

/-- The session of a KCP task that has panicked stays in the table. -/
theorem entry_of_panicked (matched : s.Matched) {job : Nat} {tasks : Job}
    (there : s.jobs[job]? = some tasks) (panicked : tasks.panicked) :
    ∃ conv here, s.listener.convMap.get? conv = some here ∧ here.job = job := by
  obtain ⟨bound, _⟩ := List.getElem?_eq_some_iff.1 there
  rw [matched.spawned] at bound
  rcases matched.live job _ (List.getElem?_eq_getElem bound) with ended | ⟨here, entry, number⟩
  · have silent : s.reported job = 0 := by
      cases running : tasks.task with
      | none => rw [reported, taskOf, there, Option.bind_some, running, Option.elim_none]
      | some t =>
          have task : s.taskOf job = some t := by rw [taskOf, there, Option.bind_some, running]
          obtain ⟨owner, _, reach⟩ := matched.tasks _ t task
          have stopped : t.pc = .panicked := by simpa [Job.panicked, running] using panicked
          rw [reported, task, Option.elim_some, reach_reportedOnce (reach_of_server reach), stopped,
            if_neg (by decide)]
    have counted := matched.counted job
    rw [isEnded_iff] at ended
    omega
  · exact ⟨_, here, entry, number⟩

/-- Where the KCP tasks are gone and no message waits, the sessions are those whose KCP task has
panicked. -/
theorem panicked_iff (matched : s.Matched) (gone : ∀ job ∈ s.jobs, job.gone)
    (silent : s.messages = []) {job : Nat} {tasks : Job} (there : s.jobs[job]? = some tasks) :
    tasks.panicked ↔
      ∃ conv here, s.listener.convMap.get? conv = some here ∧ here.job = job := by
  refine ⟨entry_of_panicked matched there, ?_⟩
  rintro ⟨conv, here, entry, rfl⟩
  have stopped := gone tasks (List.mem_of_getElem? there)
  rw [Job.gone_eq, Bool.or_eq_true] at stopped
  refine stopped.resolve_left fun ended => ?_
  have waits := report_under_way matched entry there ended
  rw [reporting, silent] at waits
  exact absurd waits (Nat.lt_irrefl 0)

/-- A table with a session has its tasks. -/
theorem exists_job (matched : s.Matched) (filled : s.listener.convMap.size ≠ 0) :
    ∃ conv here tasks, s.listener.convMap.get? conv = some here ∧ s.jobs[here.job]? = some tasks := by
  obtain ⟨entry, rest, table⟩ := List.exists_cons_of_length_pos (Nat.pos_of_ne_zero filled)
  have known : s.listener.convMap.get? entry.1 = some entry.2 := by
    refine LinkedMap.get?_eq_some_iff.2 ?_
    rw [table]
    exact List.mem_cons_self
  obtain ⟨created, there, _⟩ := matched.table _ _ known
  obtain ⟨bound, _⟩ := List.getElem?_eq_some_iff.1 there
  rw [← matched.spawned] at bound
  exact ⟨_, _, _, known, List.getElem?_eq_getElem bound⟩

/-- An `accept_stream` task ends when its KCP task is gone. -/
theorem accepted_of_stuck {job : Nat} {tasks : Job} (there : s.jobs[job]? = some tasks)
    (gone : tasks.gone) (stuck : s.step (.acceptStream job) = none) : tasks.accepted := by
  by_contra waiting
  cases connected : tasks.task.bind fun t => t.trace.findSome? Obs.connectedConv <;>
    simp [Service.step, Service.acceptStream, there, waiting, gone, connected] at stuck

/-- No turn waits for an `accept_stream` task when all of them have ended. -/
theorem process_isSome (matched : s.Matched) (accepted : ∀ job ∈ s.jobs, job.accepted)
    (nonempty : s.messages ≠ []) (now : Nat) : (s.process now).isSome := by
  obtain ⟨⟨sender, msg⟩, rest, queued⟩ := List.exists_cons_of_ne_nil nonempty
  simp only [process, queued]
  split
  · rfl
  · rename_i session known
    obtain ⟨created, there, _⟩ := matched.table _ _ known
    obtain ⟨bound, _⟩ := List.getElem?_eq_some_iff.1 there
    rw [← matched.spawned] at bound
    have finished : s.acceptEnded session.job := by
      rw [acceptEnded, List.getElem?_eq_getElem bound, Option.any_some]
      exact accepted _ (List.getElem_mem bound)
    rw [finished]
    simp

theorem potential_eq_zero (gone : ∀ job ∈ s.jobs, job.gone)
    (accepted : ∀ job ∈ s.jobs, job.accepted) (silent : s.messages = []) : s.potential = 0 := by
  have none_runs : s.jobs.countP (fun job => !job.gone) = 0 :=
    List.countP_eq_zero.2 fun job member => by simp [gone job member]
  have none_waits : s.jobs.countP (fun job => !job.accepted) = 0 :=
    List.countP_eq_zero.2 fun job member => by simp [accepted job member]
  rw [potential, silent, none_runs, none_waits]
  rfl

theorem silent_of_potential (nothing : s.potential = 0) : s.messages = [] := by
  unfold potential at nothing
  exact List.eq_nil_of_length_eq_zero (by omega)

/-- Without a session a message finds none. -/
theorem empty_process (empty : s.listener.convMap.size = 0) {now : Nat}
    (stepped : s.step (.process now) = some s') : s'.listener.convMap.size = 0 := by
  have unknown (conv : U32) : s.listener.convMap.get? conv = none :=
    LinkedMap.get?_eq_none_of_size empty
  simp only [Service.step, process, unknown] at stepped
  split at stepped
  · cases stepped
  · cases stepped
    rw [Listener.processMsg_unknown (unknown _), empty]

end Service

/-! ## The loop -/

/-- The listener and the `accept_stream` tasks go on by themselves. -/
def ListeningEvent.own : ListeningEvent → Bool
  | .tryRecv _ | .leave | .enter | .noDatagram | .pkt | .msg _ | .cancelled | .acceptStream _ => true
  | _ => false

namespace Listening

variable {r r' : Listening} {event : ListeningEvent}

/-- The listener is closing, and its loop is left only without a session. -/
structure Closing (r : Listening) : Prop where
  matched : r.service.Matched
  closing : r.service.listener.isClosing
  left : r.pc = .left → r.service.listener.convMap.size = 0

theorem Closing.step (inv : r.Closing) (stepped : r.step event = some r') : r'.Closing ∧
    (if event.drains then 1 else 0) + r'.service.potential ≤ r.service.potential := by
  obtain ⟨matched, closing, left⟩ := inv
  cases step_turn stepped with
  | control service idle leaves =>
      rw [service, idle]
      refine ⟨⟨service ▸ matched, service ▸ closing, fun out => ?_⟩, Nat.le_of_eq (Nat.zero_add _)⟩
      rw [service]
      exact (leaves out).elim left And.right
  | serve served stepped leaves =>
      have settles := Service.step_settles matched closing stepped
      refine ⟨⟨settles.matched, settles.closing, fun out => ?_⟩, ?_⟩
      · obtain ⟨before, quiet⟩ := leaves out
        rw [settles.kept quiet, left before]
      · rw [← drains_of_serves served]
        exact settles.spent

/-- Who has left the loop was closing. -/
theorem reach_left {r : Listening}
    (reach : listeningMachine.Reach (fun r event => r.allocatesUnreleased event) r)
    (left : r.pc = .left) : r.Closing := by
  induction reach with
  | initial valid =>
      obtain ⟨_, _, rfl⟩ := valid
      cases left
  | @step earlier later event prior _ transition inductionHypothesis =>
      have matched := (reach_matched (reach_service prior)).1
      have before : earlier.Closing := by
        cases Listening.step_turn transition with
        | control _ _ leaves =>
            rcases leaves left with already | ⟨closing, size⟩
            · exact inductionHypothesis already
            · exact ⟨matched, closing, fun _ => size⟩
        | serve _ _ leaves => exact inductionHypothesis (leaves left).1
      exact (before.step transition).1

/-- A listener that is closing in its loop. -/
theorem reach_closing {r : Listening}
    (reach : listeningMachine.Reach (fun r event => r.allocatesUnreleased event) r)
    (closing : r.service.listener.isClosing) : r.Closing where
  matched := (reach_matched (reach_service reach)).1
  closing := closing
  left out := (reach_left reach out).left out

variable {final : Listening} {events : List ListeningEvent}

theorem Closing.exec (inv : r.Closing)
    (executed : listeningMachine.exec (fun _ _ => true) r events = some final) : final.Closing ∧
      events.countP ListeningEvent.drains + final.service.potential ≤ r.service.potential :=
  Machine.countP_le_of_exec Closing (fun r => r.service.potential) ListeningEvent.drains
    (fun _ _ _ inv _ stepped => inv.step stepped) inv executed

/-- Where the KCP tasks are gone and the listener has nothing to do, it has left its loop or waits in its
`select!`, and no `accept_stream` task is left. -/
theorem Closing.settled (inv : r.Closing) (gone : ∀ job ∈ r.service.jobs, job.gone)
    (stuck : ∀ event : ListeningEvent, event.own → r.step event = none) :
    (r.pc = .left ∨ r.pc = .select ∧ r.service.messages = [] ∧ r.pktRx = []) ∧
      ∀ job ∈ r.service.jobs, job.accepted := by
  obtain ⟨matched, closing, left⟩ := inv
  have accepted : ∀ job ∈ r.service.jobs, job.accepted := by
    intro tasks member
    obtain ⟨job, there⟩ := List.mem_iff_getElem?.1 member
    have idle := stuck (.acceptStream job) rfl
    simp only [Listening.step, serve, Option.map_eq_none_iff] at idle
    exact Service.accepted_of_stuck there (gone tasks member) idle
  have turn (nonempty : r.service.messages ≠ []) (pc : LoopPc) :
      r.serve (.process 0) pc ≠ none := by
    have turns := Service.process_isSome matched accepted nonempty 0
    rw [serve, ne_eq, Option.map_eq_none_iff]
    exact Option.isSome_iff_ne_none.1 turns
  refine ⟨?_, accepted⟩
  cases pc : r.pc with
  | top =>
      have waits := stuck (.tryRecv 0) rfl
      have stays := stuck .leave rfl
      have enters := stuck .enter rfl
      by_cases silent : r.service.messages = []
      · by_cases size : r.service.listener.convMap.size = 0
        · simp [Listening.step, leave, pc, closing, silent, size] at stays
        · simp [Listening.step, enter, pc, silent, size] at enters
      · simp only [Listening.step, tryRecv, pc, closing, silent, ne_eq, not_false_eq_true, and_self,
          if_true] at waits
        exact absurd waits (turn silent _)
  | select =>
      have waits := stuck (.msg 0) rfl
      have sends := stuck .pkt rfl
      refine .inr ⟨rfl, ?_, ?_⟩
      · by_contra nonempty
        simp only [Listening.step, msg, pc, if_true] at waits
        exact turn nonempty _ waits
      · cases queued : r.pktRx with
        | nil => rfl
        | cons => simp [Listening.step, pkt, pc, queued] at sends
  | transport room =>
      have waits := stuck .noDatagram rfl
      simp [Listening.step, noDatagram, pc] at waits
  | left => exact .inl rfl

/-- A listener that is closing without a session stays so. -/
theorem Closing.empty_step (inv : r.Closing) (empty : r.service.listener.convMap.size = 0)
    {event : ListeningEvent} {r' : Listening} (stepped : r.step event = some r') :
    r'.service.listener.convMap.size = 0 := by
  cases step_turn stepped with
  | control service => rw [service, empty]
  | @serve inner _ stepped _ =>
      by_cases turn : ∃ now, inner = .process now
      · obtain ⟨now, rfl⟩ := turn
        exact Service.empty_process empty stepped
      · have settles := Service.step_settles inv.matched inv.closing stepped
        rw [settles.kept fun now is => turn ⟨now, is⟩, empty]

/-- The loop is left the next time that it comes to its top. -/
theorem Closing.leaves (inv : r.Closing) (empty : r.service.listener.convMap.size = 0)
    (silent : r.service.messages = []) (top : r.pc = .top) : (r.step .leave).isSome := by
  simp [Listening.step, leave, top, inv.closing, silent, empty]

end Listening

/-- The sessions of a closing listener. In every run of its loop that gives no released conv out again,
from the time it is closing, whatever happens in any order: the turns that it takes for the messages
of its sessions, together with the ends of `accept_stream` tasks, are boundedly many, and the loop is
left only with an empty table. When the KCP tasks are gone and the listener and the `accept_stream`
tasks have nothing to do, `run` has left its loop or waits in its `select!`, and the table holds the
sessions whose KCP task has panicked and no others. If none has, the table is and stays empty, and the
loop is left the next time that it comes to its top. -/
theorem listener_drains {r final : Listening} {events : List ListeningEvent}
    (reach : listeningMachine.Reach (fun r event => r.allocatesUnreleased event) r)
    (closing : r.service.listener.isClosing)
    (executed : listeningMachine.exec (fun _ _ => true) r events = some final) :
    events.countP ListeningEvent.drains + final.service.potential ≤ r.service.potential ∧
      (final.pc = .left → final.service.listener.convMap.size = 0) ∧
      ((∀ job ∈ final.service.jobs, job.gone) →
        (∀ event : ListeningEvent, event.own → final.step event = none) →
          (final.pc = .left ∨
            final.pc = .select ∧ final.service.messages = [] ∧ final.pktRx = []) ∧
          (∀ (job : Nat) tasks, final.service.jobs[job]? = some tasks → (tasks.panicked ↔
            ∃ conv here, final.service.listener.convMap.get? conv = some here ∧ here.job = job)) ∧
          ((∀ job ∈ final.service.jobs, ¬ job.panicked) →
            final.service.listener.convMap.size = 0 ∧
              (final.pc = .select → ∀ more later,
                listeningMachine.exec (fun _ _ => true) final more = some later →
                  later.service.listener.convMap.size = 0 ∧
                    (later.pc = .top → (later.step .leave).isSome)))) := by
  obtain ⟨inv, bound⟩ := (Listening.reach_closing reach closing).exec executed
  refine ⟨bound, inv.left, fun gone stuck => ?_⟩
  obtain ⟨place, accepted⟩ := inv.settled gone stuck
  have sessions (job : Nat) (tasks : Job) (there : final.service.jobs[job]? = some tasks) :
      tasks.panicked ↔
        ∃ conv here, final.service.listener.convMap.get? conv = some here ∧ here.job = job := by
    rcases place with left | ⟨_, silent, _⟩
    · refine ⟨Service.entry_of_panicked inv.matched there, ?_⟩
      rintro ⟨conv, here, entry, _⟩
      rw [LinkedMap.get?_eq_none_of_size (inv.left left)] at entry
      cases entry
    · exact Service.panicked_iff inv.matched gone silent there
  refine ⟨place, sessions, fun sound => ?_⟩
  have empty : final.service.listener.convMap.size = 0 := by
    by_contra filled
    obtain ⟨conv, here, tasks, known, there⟩ := Service.exists_job inv.matched filled
    exact sound tasks (List.mem_of_getElem? there) ((sessions _ _ there).2 ⟨conv, here, known, rfl⟩)
  refine ⟨empty, fun select more later went => ?_⟩
  obtain ⟨_, silent, _⟩ := place.resolve_left (by rw [select]; decide)
  have nothing := Service.potential_eq_zero gone accepted silent
  obtain ⟨⟨inv', empty'⟩, bound'⟩ := Machine.countP_le_of_exec
    (fun r => r.Closing ∧ r.service.listener.convMap.size = 0) (fun r => r.service.potential)
    ListeningEvent.drains
    (fun _ _ _ holds _ stepped =>
      have ⟨kept, less⟩ := holds.1.step stepped
      ⟨⟨kept, holds.1.empty_step holds.2 stepped⟩, less⟩) ⟨inv, empty⟩ went
  refine ⟨empty', inv'.leaves empty' ?_⟩
  exact Service.silent_of_potential (by omega)

/-- A session is opened in the loop. -/
def openEvents (job : Nat) (conv : U32) (packet : Bytes) : List ListeningEvent :=
  [.enter, .datagram packet clientAddr 0 [conv] fun _ => 0, .noDatagram, .enter] ++
    [.drain .sent, .tau, .packet packet, .noPacket, .tau, .tau].map (.task job ·) ++
      [.acceptStream job, .msg 0]

/-- The application closes a stream, and its KCP task ends. -/
def endEvents (job : Nat) : List ListeningEvent :=
  [.app .closeSender, .app .cancel, .app .closeOutput, .drain .sent, .tau, .cancelled, .tau].map
    (.task job ·)

/-- A listener is closed while two sessions are on. The last report is taken with `try_recv`, and `run`
waits in its `select!` with an empty table. The next datagram ends that. -/
theorem listener_drains_two : ∃ r final later,
    listeningMachine.Reach (fun r event => r.allocatesUnreleased event) r ∧
      (r.service.listener.isClosing ∧ r.service.listener.convMap.size = 2) ∧
      ((∀ event : ListeningEvent, event.own → final.step event = none) ∧ final.pc = .select ∧
        final.service.listener.convMap.size = 0) ∧
      listeningMachine.exec (fun _ _ => true) final
        [.datagram [1] clientAddr 0 [] fun _ => 0, .noDatagram] = some later ∧
      (later.step .leave).isSome := by
  have run : (listeningMachine.exec Listening.allocatesUnreleased
      { service := { listener := sampleListener } }
      (openEvents 0 5 synPacket ++ openEvents 1 6 otherSynPacket ++ [.close, .enter, .cancelled])).bind
      (fun r => (listeningMachine.exec (fun _ _ => true) r
        ([.enter] ++ endEvents 0 ++ [.msg 0, .enter, .pkt, .enter] ++ endEvents 1 ++
          [.pkt, .tryRecv 0])).bind fun final =>
        (listeningMachine.exec (fun _ _ => true) final
          [.datagram [1] clientAddr 0 [] fun _ => 0, .noDatagram]).map fun later =>
            ((r.service.listener.isClosing, r.service.listener.convMap.size),
              (final.pc, final.service.messages.isEmpty && final.pktRx.isEmpty &&
                final.service.listener.isClosing &&
                final.service.jobs.all fun job => job.gone && job.accepted && !job.panicked),
              later.pc)) = some ((true, 2), (.select, true), .top) := by
    decide +kernel
  obtain ⟨r, opened, run⟩ := Option.bind_eq_some_iff.1 run
  obtain ⟨final, executed, run⟩ := Option.bind_eq_some_iff.1 run
  obtain ⟨later, went, view⟩ := Option.map_eq_some_iff.1 run
  simp only [Prod.mk.injEq, Bool.and_eq_true, List.isEmpty_iff, List.all_eq_true,
    Bool.not_eq_true'] at view
  obtain ⟨⟨closing, two⟩, ⟨select, ⟨⟨silent, sent⟩, closed⟩, all⟩, top⟩ := view
  have reach : listeningMachine.Reach (fun r event => r.allocatesUnreleased event) r :=
    Machine.reach_of_exec (fun _ _ allowed => allowed)
      (.initial ⟨_, ⟨sampleListener, ⟨_, _, 8, rfl⟩, rfl⟩, rfl⟩) opened
  have stuck (event : ListeningEvent) (own : event.own) : final.step event = none := by
    cases event with
    | tryRecv now => simp [Listening.step, Listening.tryRecv, select]
    | leave => simp [Listening.step, Listening.leave, select]
    | enter => simp [Listening.step, Listening.enter, select]
    | noDatagram => simp [Listening.step, Listening.noDatagram, select]
    | pkt => simp [Listening.step, Listening.pkt, select, sent]
    | msg now =>
        simp [Listening.step, Listening.msg, Listening.serve, Service.step, Service.process, silent]
    | cancelled => simp [Listening.step, Listening.cancelled, closed]
    | acceptStream job =>
        cases there : final.service.jobs[job]? with
        | none => simp [Listening.step, Listening.serve, Service.step, Service.acceptStream, there]
        | some tasks =>
            have accepted := (all tasks (List.mem_of_getElem? there)).1.2
            simp [Listening.step, Listening.serve, Service.step, Service.acceptStream, there, accepted]
    | _ => cases own
  obtain ⟨_, _, settled⟩ := listener_drains reach closing executed
  obtain ⟨_, _, emptied⟩ := settled (fun job member => (all job member).1.1) stuck
  obtain ⟨empty, leaves⟩ := emptied fun job member => by simp [(all job member).2]
  exact ⟨r, final, later, reach, ⟨closing, two⟩, ⟨stuck, select, empty⟩, went,
    (leaves select _ later went).2 top⟩

end KcpRs
