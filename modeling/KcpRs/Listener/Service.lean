import KcpRs.Listener.Table
import KcpRs.Stream.Conv

/-!
# The listener with the tasks of its sessions

`Service` is a listener together with the tasks that it has spawned: for every session an
`accept_stream` task and the KCP task of the stream, and the queue of messages that
they send to the listener. A session and its tasks have one number, its `job`. `deeds`
records the sessions that were opened, the streams that were handed out and the sessions
that were ended, in order.

Any task may go on at any time. When the listener awaits an `accept_stream` task, its step
is not taken before that task has ended.
-/

namespace KcpRs

open Lib

/-- The conv of `Output::Connected`. -/
def Obs.connectedConv : Obs → Option U32
  | .output (.connected conv) => some conv
  | _ => none

/-- The conv reported to the disconnect sink. -/
def Obs.disconnectConv : Obs → Option U32
  | .disconnect conv => some conv
  | _ => none

/-- The conv that a message is looked up under. -/
def Message.conv : Message → U32
  | .connect stream => stream.conv
  | .disconnect conv => conv

/-- The tasks of a session. -/
structure Job where
  /-- The KCP task, unless it has panicked before its loop. -/
  task : Option Task
  /-- The packets on their way to it. -/
  inbox : List Bytes := []
  /-- The `accept_stream` task has ended. -/
  accepted : Bool := false

namespace Job

/-- The KCP task does not take packets any more. -/
def gone (job : Job) : Bool :=
  match job.task with
  | none => true
  | some t => t.pc = .exited || t.pc = .panicked

/-- `session.sender.send(packet)`, which waits while the channel is full and fails when its
receiver is gone. -/
def deliver (job : Job) (capacity : Nat) (packet : Bytes) : Option Job :=
  if job.gone then some job
  else if job.inbox.length < capacity then some { job with inbox := job.inbox ++ [packet] }
  else none

/-- The packets left after an event of the KCP task. -/
def inboxAfter (job : Job) (event : Event) : Option (List Bytes) :=
  match event, job.inbox with
  | .packet bytes, first :: rest => if bytes = first then some rest else none
  | .packet _, [] => none
  | _, inbox => some inbox

end Job

/-- What the listener has done. -/
inductive Deed where
  /-- `get_session` created a session. -/
  | opened (session : Session)
  /-- A stream was sent to the accept queue with an address, for a session. -/
  | handed (stream : KcpStream) (peerAddr : SocketAddr) (session : Session)
  /-- A session was removed. -/
  | ended (session : Session)

/-- The session that was created. -/
def Deed.session : Deed → Option Session
  | .opened session => some session
  | _ => none

/-- The session that a stream was handed out for. -/
def Deed.handedFor : Deed → Option Session
  | .handed _ _ session => some session
  | _ => none

/-- The deed ends the session with number `job`. -/
def Deed.ends (job : Nat) : Deed → Bool
  | .ended session => session.job = job
  | _ => false

/-- A listener with its tasks. -/
structure Service where
  listener : Listener
  jobs : List Job := []
  /-- The messages to the listener, each with the number of its sender. -/
  messages : List (Nat × Message) := []
  deeds : List Deed := []

/-- What may happen to a listener and its tasks. -/
inductive ServiceEvent where
  /-- A packet arrives; `clock` is what a new KCP task will read. -/
  | packet (bytes : Bytes) (peerAddr : SocketAddr) (now : Nat) (random : List U32)
      (clock : Nat → U32)
  /-- The listener processes its first message. -/
  | process (now : Nat)
  /-- The KCP task of a session goes on. -/
  | task (job : Nat) (event : Event)
  /-- The `accept_stream` task of a session goes on. -/
  | acceptStream (job : Nat)
  /-- The cache is used, or the application acts on the listener. -/
  | other (event : ListenerEvent)

namespace Service

/-- The sessions in the order of their creation. -/
def sessions (s : Service) : List Session := s.deeds.filterMap Deed.session

/-- The session was ended. -/
def isEnded (s : Service) (job : Nat) : Bool := s.deeds.any (Deed.ends job)

/-- The tasks that a new session is spawned with. -/
def spawn (s : Service) (session : Session) (clock : Nat → U32) : Service :=
  { s with
    jobs := s.jobs ++ [{ task := Task.start s.listener.config session.conv [] clock }]
    deeds := s.deeds ++ [.opened session] }

/-- Pass a packet on to the tasks of a session. -/
def deliver (s : Service) (job : Nat) (packet : Bytes) : Option Service :=
  match s.jobs[job]? with
  | none => none
  | some tasks =>
      (tasks.deliver s.listener.config.sndWnd.toNat packet).map fun tasks =>
        { s with jobs := s.jobs.set job tasks }

/-- A packet arrives. -/
def packet (s : Service) (bytes : Bytes) (peerAddr : SocketAddr) (now : Nat) (random : List U32)
    (clock : Nat → U32) : Option Service :=
  match s.listener.getSession bytes peerAddr now random with
  | none => none
  | some (none, listener) => some { s with listener }
  | some (some session, listener) =>
      let opened := if session.job = s.listener.spawned then s.spawn session clock else s
      { opened with listener }.deliver session.job bytes

/-- What processing a message does for the session it is looked up under. -/
def deedsOf (session : Session) : Message → List Deed
  | .connect stream =>
      if session.streamPermit then [.handed stream session.peerAddr session] else []
  | .disconnect _ => [.ended session]

/-- The `accept_stream` task of a session has ended. -/
def acceptEnded (s : Service) (job : Nat) : Bool := s.jobs[job]?.any Job.accepted

/-- The listener processes its first message; it awaits the `accept_stream` task if it still
has its handle. -/
def process (s : Service) (now : Nat) : Option Service :=
  match s.messages with
  | [] => none
  | (_, msg) :: messages =>
      match s.listener.convMap.get? msg.conv with
      | none => some { s with messages, listener := s.listener.processMsg msg now }
      | some session =>
          if session.task && !s.acceptEnded session.job then none
          else
            some { s with
              messages
              listener := s.listener.processMsg msg now
              deeds := s.deeds ++ deedsOf session msg }

/-- The KCP task of a session goes on and sends what it reports. -/
def task (s : Service) (job : Nat) (event : Event) : Option Service :=
  match s.jobs[job]? with
  | none => none
  | some tasks =>
      match tasks.task, tasks.inboxAfter event with
      | some t, some inbox =>
          (t.step event).map fun t' =>
            { s with
              jobs := s.jobs.set job { tasks with task := some t', inbox }
              messages := s.messages ++ ((t'.trace.drop t.trace.length).filterMap
                Obs.disconnectConv).map fun conv => (job, .disconnect conv) }
      | _, _ => none

/-- The `accept_stream` task of a session gets its stream, or an error once the KCP task has
ended without one. -/
def acceptStream (s : Service) (job : Nat) : Option Service :=
  match s.jobs[job]? with
  | none => none
  | some tasks =>
      if tasks.accepted then none
      else
        let done := { s with jobs := s.jobs.set job { tasks with accepted := true } }
        match tasks.task.bind fun t => t.trace.findSome? Obs.connectedConv with
        | some conv => some { done with messages := s.messages ++ [(job, .connect { conv, job })] }
        | none => if tasks.gone then some done else none

/-- One step of a listener or of one of its tasks. -/
def step (s : Service) : ServiceEvent → Option Service
  | .packet bytes peerAddr now random clock => s.packet bytes peerAddr now random clock
  | .process now => s.process now
  | .task job event => s.task job event
  | .acceptStream job => s.acceptStream job
  | .other event =>
      match event with
      | .packet _ _ _ _ | .message _ _ => none
      | event => (s.listener.step event).map fun listener => { s with listener }

end Service

/-- Listeners with their tasks. -/
def serviceMachine : Machine Service ServiceEvent where
  Initial s := ∃ listener, listenerMachine.Initial listener ∧ s = { listener }
  step := Service.step

/-! ## What a step can do -/

namespace Listener

variable {l l' : Listener}

/-- The parts of a listener that say which sessions there are. -/
def table (l : Listener) : LinkedMap U32 Session × LinkedMap Bytes U32 × Nat × Config :=
  (l.convMap, l.sidMap, l.spawned, l.config)

/-- Without a packet or a message the sessions stay, and streams are only taken. -/
theorem table_step {event : ListenerEvent} (stepped : l.step event = some l')
    (quiet : ∀ bytes peerAddr now random, event ≠ .packet bytes peerAddr now random)
    (silent : ∀ msg now, event ≠ .message msg now) :
    l'.table = l.table ∧ l'.streams ⊆ l.streams := by
  cases event with
  | packet bytes peerAddr now random => exact absurd rfl (quiet _ _ _ _)
  | message msg now => exact absurd rfl (silent _ _)
  | cache call now =>
      obtain ⟨convCache, _, rfl⟩ := Option.map_eq_some_iff.1 stepped
      exact ⟨rfl, List.Subset.refl _⟩
  | accept =>
      simp only [Listener.step] at stepped
      split at stepped
      · cases stepped
      · rename_i queued
        cases stepped
        rw [queued]
        exact ⟨rfl, List.subset_cons_self _ _⟩
  | close =>
      cases stepped
      exact ⟨rfl, List.Subset.refl _⟩
  | closing =>
      cases stepped
      exact ⟨rfl, List.Subset.refl _⟩

theorem config_processMsg (msg : Message) (now : Nat) : (l.processMsg msg now).config = l.config ∧
    (l.processMsg msg now).spawned = l.spawned := by
  cases msg with
  | connect stream =>
      simp only [processMsg]
      split
      · exact ⟨rfl, rfl⟩
      · split <;> exact ⟨rfl, rfl⟩
  | disconnect conv =>
      simp only [processMsg]
      split <;> exact ⟨rfl, rfl⟩

/-- A message for a session that is gone is dropped. -/
theorem processMsg_unknown {msg : Message} {now : Nat} (unknown : l.convMap.get? msg.conv = none) :
    l.processMsg msg now = l := by
  cases msg with
  | connect stream =>
      simp only [Message.conv] at unknown
      simp [processMsg, unknown]
  | disconnect conv =>
      simp only [Message.conv] at unknown
      simp [processMsg, unknown]

/-- What a message does to a session that is there. -/
theorem convMap_processMsg {msg : Message} {session : Session} (now : Nat)
    (known : l.convMap.get? msg.conv = some session) :
    (∃ stream, msg = .connect stream ∧ (l.processMsg msg now).convMap =
      l.convMap.modify stream.conv fun session =>
        { session with task := false, streamPermit := false }) ∨
    ∃ conv, msg = .disconnect conv ∧ (l.processMsg msg now).convMap = l.convMap.remove conv := by
  cases msg with
  | connect stream =>
      simp only [Message.conv] at known
      refine .inl ⟨stream, rfl, ?_⟩
      simp only [processMsg, known]
      split <;> rfl
  | disconnect conv =>
      simp only [Message.conv] at known
      refine .inr ⟨conv, rfl, ?_⟩
      simp only [processMsg, known]
      rfl

/-- Every session in the table has a number that was given out. -/
def Numbered (l : Listener) : Prop :=
  ∀ conv session, l.convMap.get? conv = some session → session.job < l.spawned

end Listener

namespace Service

variable {s s' : Service} {event : ServiceEvent}

/-- The tasks of a session without the packets on their way. -/
def Job.state (job : Job) : Option Task × Bool := (job.task, job.accepted)

/-- What a step of a service can do. -/
inductive Change (s : Service) : Service → Prop where
  /-- Neither the table nor a task changes. -/
  | idle {s' : Service} (table : s'.listener.table = s.listener.table)
      (jobs : s'.jobs.map Job.state = s.jobs.map Job.state)
      (messages : s'.messages = s.messages) (deeds : s'.deeds = s.deeds)
      (streams : s'.listener.streams ⊆ s.listener.streams) : Change s s'
  /-- A session is opened with its tasks. -/
  | opened {s' : Service} {sid : Bytes} {peerAddr : SocketAddr} {now : Nat} {random : List U32}
      {clock : Nat → U32} {session : Session} (fresh : s.listener.sidMap.get? sid = none)
      (listener : s.listener.openSession sid peerAddr now random = some (session, s'.listener))
      (jobs : s'.jobs.map Job.state = s.jobs.map Job.state ++
        [(Task.start s.listener.config session.conv [] clock, false)])
      (messages : s'.messages = s.messages) (deeds : s'.deeds = s.deeds ++ [.opened session]) :
      Change s s'
  /-- A message finds no session. -/
  | ignored {job : Nat} {msg : Message} {messages : List (Nat × Message)}
      (first : s.messages = (job, msg) :: messages)
      (unknown : s.listener.convMap.get? msg.conv = none) : Change s { s with messages }
  /-- A message finds a session. -/
  | processed {job : Nat} {msg : Message} {messages : List (Nat × Message)} {session : Session}
      (now : Nat) (first : s.messages = (job, msg) :: messages)
      (known : s.listener.convMap.get? msg.conv = some session) :
      Change s { s with
        messages
        listener := s.listener.processMsg msg now
        deeds := s.deeds ++ deedsOf session msg }
  /-- A KCP task goes on. -/
  | stepped {job : Nat} {tasks : Job} {t t' : Task} {inbox : List Bytes} {event : Event}
      (here : s.jobs[job]? = some tasks) (running : tasks.task = some t)
      (transition : t.step event = some t') :
      Change s { s with
        jobs := s.jobs.set job { tasks with task := some t', inbox }
        messages := s.messages ++ ((t'.trace.drop t.trace.length).filterMap
          Obs.disconnectConv).map fun conv => (job, .disconnect conv) }
  /-- An `accept_stream` task ends with its stream. -/
  | connected {job : Nat} {tasks : Job} {t : Task} {conv : U32}
      (here : s.jobs[job]? = some tasks) (running : tasks.task = some t)
      (found : .output (.connected conv) ∈ t.trace) :
      Change s { s with
        jobs := s.jobs.set job { tasks with accepted := true }
        messages := s.messages ++ [(job, .connect { conv, job })] }
  /-- An `accept_stream` task ends without one. -/
  | failed {job : Nat} {tasks : Job} (here : s.jobs[job]? = some tasks) :
      Change s { s with jobs := s.jobs.set job { tasks with accepted := true } }

/-- A packet that is handed to a session changes its inbox only. -/
theorem deliver_eq {job : Nat} {bytes : Bytes} (delivered : s.deliver job bytes = some s') :
    ∃ jobs, s' = { s with jobs } ∧ jobs.map Job.state = s.jobs.map Job.state := by
  unfold Service.deliver at delivered
  split at delivered
  · cases delivered
  · rename_i tasks here
    obtain ⟨later, taken, rfl⟩ := Option.map_eq_some_iff.1 delivered
    refine ⟨_, rfl, ?_⟩
    have same : Job.state later = Job.state tasks := by
      unfold Job.deliver at taken
      split at taken
      · cases taken
        rfl
      · split at taken
        · cases taken
          rfl
        · cases taken
    obtain ⟨bound, rfl⟩ := List.getElem?_eq_some_iff.1 here
    rw [List.map_set, same, ← List.map_set, List.set_getElem_self]

/-- A packet opens a session or is delivered to one. -/
theorem packet_change (numbered : s.listener.Numbered) {bytes : Bytes} {peerAddr : SocketAddr}
    {now : Nat} {random : List U32} {clock : Nat → U32}
    (stepped : s.packet bytes peerAddr now random clock = some s') : s.Change s' := by
  unfold Service.packet at stepped
  split at stepped
  · cases stepped
  · rename_i listener got
    cases stepped
    obtain ⟨rfl, _⟩ | ⟨_, _, _, _, _, _, _, _, _, found, _⟩ := Listener.getSession_cases got
    · exact .idle rfl rfl rfl rfl (List.Subset.refl _)
    · cases found
  · rename_i session listener got
    obtain ⟨rfl, old⟩ | ⟨sid, session', _, _, _, fresh, _, _, _, found, opened⟩ :=
      Listener.getSession_cases got
    · have number : session.job ≠ s.listener.spawned := by
        obtain ⟨_, _, _, here | ⟨_, _, _, _, _, _, here⟩⟩ := old session rfl <;>
          exact (numbered _ _ here).ne
      rw [if_neg number] at stepped
      obtain ⟨jobs, rfl, same⟩ := deliver_eq stepped
      exact .idle rfl same rfl rfl (List.Subset.refl _)
    · cases found
      have number : session.job = s.listener.spawned := by
        obtain ⟨_, _, _, _, rfl, _⟩ := Listener.openSession_eq opened
        rfl
      rw [if_pos number] at stepped
      obtain ⟨jobs, rfl, same⟩ := deliver_eq stepped
      exact .opened fresh opened (same.trans (List.map_append ..)) rfl rfl

/-- Every step makes one of these changes. -/
theorem step_change (numbered : s.listener.Numbered) (stepped : s.step event = some s') :
    s.Change s' := by
  cases event with
  | packet bytes peerAddr now random clock => exact packet_change numbered stepped
  | process now =>
      simp only [Service.step, Service.process] at stepped
      split at stepped
      · cases stepped
      · rename_i job msg messages first
        split at stepped
        · rename_i unknown
          cases stepped
          rw [Listener.processMsg_unknown unknown]
          exact .ignored first unknown
        · rename_i session known
          split at stepped
          · cases stepped
          · cases stepped
            exact .processed now first known
  | task job event =>
      simp only [Service.step, Service.task] at stepped
      split at stepped
      · cases stepped
      · rename_i tasks here
        split at stepped
        · rename_i t inbox running _
          obtain ⟨t', transition, rfl⟩ := Option.map_eq_some_iff.1 stepped
          exact .stepped here running transition
        · cases stepped
  | acceptStream job =>
      simp only [Service.step, Service.acceptStream] at stepped
      split at stepped
      · cases stepped
      · rename_i tasks here
        split at stepped
        · cases stepped
        · split at stepped
          · rename_i conv found
            cases stepped
            obtain ⟨t, running, found⟩ := Option.bind_eq_some_iff.1 found
            obtain ⟨obs, member, is⟩ := List.exists_of_findSome?_eq_some found
            refine .connected here running ?_
            cases obs with
            | output value =>
                cases value with
                | connected reported =>
                    cases is
                    exact member
                | frame bytes => cases is
            | _ => cases is
          · split at stepped
            · cases stepped
              exact .failed here
            · cases stepped
  | other event =>
      have rest (event : ListenerEvent)
          (mapped : (s.listener.step event).map (fun listener => { s with listener }) = some s')
          (quiet : ∀ bytes peerAddr now random, event ≠ .packet bytes peerAddr now random)
          (silent : ∀ msg now, event ≠ .message msg now) : s.Change s' := by
        obtain ⟨listener, moved, rfl⟩ := Option.map_eq_some_iff.1 mapped
        obtain ⟨table, streams⟩ := Listener.table_step moved quiet silent
        exact .idle table rfl rfl rfl streams
      cases event with
      | packet | message => cases stepped
      | cache call now => exact rest (.cache call now) stepped (by simp) (by simp)
      | accept => exact rest .accept stepped (by simp) (by simp)
      | close => exact rest .close stepped (by simp) (by simp)
      | closing => exact rest .closing stepped (by simp) (by simp)

end Service

end KcpRs
