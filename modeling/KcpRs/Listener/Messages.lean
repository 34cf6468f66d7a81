import KcpRs.Listener.Pairing

/-!
# Messages and their sessions

A message carries only a conv, and the two tasks of a session send theirs in either order
while other sessions come and go. If no conv is given out again after it was released, the
messages of a session's tasks find that session and no other
(`messages_find_their_session`): no two sessions have one conv (`distinct`), a session is in
the table until it is ended (`live`), and it is ended only by the one report of its own KCP
task (`counted`).
-/

namespace KcpRs

open Lib

/-- The conv that the end of a session released. -/
def Deed.released : Deed → Option U32
  | .ended session => some session.conv
  | _ => none

/-- The message reports the end of a KCP task. -/
def Message.disconnects : Message → Bool
  | .connect _ => false
  | .disconnect _ => true

/-! ## The report of a KCP task -/

namespace Task

variable {ambient : Ambient} {t t' : Task}

/-- The convs reported to the disconnect sink. -/
def disconnects (t : Task) : List U32 := t.trace.filterMap Obs.disconnectConv

/-- Only the end of `run` reports. -/
theorem Move.disconnects (move : Move ambient t t') :
    t'.disconnects = t.disconnects ∧ (t'.pc = .exited ↔ t.pc = .exited) ∨
      t.pc = .draining ∧ t'.pc = .exited ∧
        t'.disconnects.length = t.disconnects.length + 1 := by
  have silent {obs : Obs} (none : obs.disconnectConv = none) :
      (t.trace ++ [obs]).filterMap Obs.disconnectConv = t.disconnects := by
    simp [Task.disconnects, none]
  have inside {pc : Pc} (running : t.running) (stays : pc ≠ .exited) :
      pc = .exited ↔ t.pc = .exited := by
    refine iff_of_false stays fun exited => ?_
    rw [Task.running, exited] at running
    cases running
  cases move with
  | goto pc running stays => exact .inl ⟨rfl, inside running stays.2⟩
  | app event _ acted =>
      obtain ⟨_, _, _, rfl | ⟨_, rfl⟩⟩ := app_eq acted
      · exact .inl ⟨rfl, Iff.rfl⟩
      · exact .inl ⟨silent rfl, Iff.rfl⟩
  | sendSyn => exact .inl ⟨silent rfl, Iff.rfl⟩
  | replySyn => exact .inl ⟨silent rfl, Iff.rfl⟩
  | sendData => exact .inl ⟨silent rfl, Iff.rfl⟩
  | refuse => exact .inl ⟨silent rfl, Iff.rfl⟩
  | sendFin => exact .inl ⟨silent rfl, Iff.rfl⟩
  | announce => exact .inl ⟨silent rfl, Iff.rfl⟩
  | deliver => exact .inl ⟨silent rfl, Iff.rfl⟩
  | drained => exact .inl ⟨silent rfl, Iff.rfl⟩
  | recv _ taken =>
      obtain ⟨kcp, ⟨_, _, rfl⟩ | ⟨_, _, ⟨_, _, rfl⟩ | ⟨_, _, rfl⟩⟩⟩ := kcpRecv_cases taken
      · exact .inl ⟨rfl, Iff.rfl⟩
      · exact .inl ⟨silent rfl, Iff.rfl⟩
      · exact .inl ⟨silent rfl, Iff.rfl⟩
  | feed _ _ =>
      rename_i packets _ _
      refine .inl ⟨?_, Iff.rfl⟩
      have none : (packets.map fun packet => Obs.packet (stamp t.hs packet)).filterMap
          Obs.disconnectConv = [] := by
        simp [List.filterMap_map, Function.comp_def, Obs.disconnectConv]
      exact (List.filterMap_append ..).trans (by rw [none, List.append_nil]; rfl)
  | leave running _ => exact .inl ⟨rfl, inside running (by simp [Task.leave])⟩
  | finish left =>
      obtain ⟨_, resets, known, equal⟩ := finish_eq t
      have none : resets.filterMap Obs.disconnectConv = [] := by
        refine List.filterMap_eq_nil_iff.2 fun obs member => ?_
        obtain ⟨_, rfl⟩ := known obs member
        rfl
      rw [equal]
      refine .inr ⟨left, rfl, ?_⟩
      simp [Task.disconnects, none, Obs.disconnectConv]
  | _ => exact .inl ⟨rfl, Iff.rfl⟩

/-- A task has reported once when it has ended, and not before. -/
def ReportedOnce (t : Task) : Prop := t.disconnects.length = if t.pc = .exited then 1 else 0

theorem Move.reportedOnce (move : Move ambient t t') (once : t.ReportedOnce) : t'.ReportedOnce := by
  unfold ReportedOnce at once ⊢
  rcases move.disconnects with ⟨same, exited⟩ | ⟨left, exited, more⟩
  · rw [same, once]
    simp only [exited]
  · rw [more, once, if_pos exited, if_neg (by rw [left]; decide)]

end Task

theorem reach_reportedOnce {config : Config} {allow : Task → Event → Prop} {t : Task}
    (reach : (taskMachine config).Reach allow t) : t.ReportedOnce :=
  reach_invariant (fun _ _ _ fresh => by
    rw [Task.ReportedOnce, Task.disconnects, fresh.trace, fresh.pc]
    rfl) (fun _ _ _ move => move.reportedOnce) reach

/-- A reachable server reports its own conv, at most once. -/
theorem server_disconnects {config : Config} {conv : U32} {allow : Task → Event → Prop} {t : Task}
    (reach : (serverMachine config conv).Reach allow t) :
    t.disconnects.length ≤ 1 ∧ ∀ reported ∈ t.disconnects, reported = conv := by
  constructor
  · rw [reach_reportedOnce (reach_of_server reach)]
    split <;> omega
  · intro reported member
    obtain ⟨obs, inside, is⟩ := List.mem_filterMap.1 member
    have carries := server_carries reach obs inside
    cases obs with
    | disconnect other =>
        cases is
        exact carries
    | _ => cases is

/-! ## Sessions and their messages -/

/-- A deed was done for a session that was created, and a stream was handed out with the number
and the conv of its session and the address of its peer. -/
def Deed.Proper (sessions : List Session) : Deed → Prop
  | .opened _ => True
  | .handed stream peerAddr session =>
      (stream.job = session.job ∧ stream.conv = session.conv ∧ peerAddr = session.peerAddr) ∧
        ∃ created : Session, sessions[session.job]? = some created ∧ created.Same session
  | .ended session =>
      ∃ created : Session, sessions[session.job]? = some created ∧ created.Same session

theorem Deed.Proper.mono {sessions later : List Session} {deed : Deed}
    (proper : deed.Proper sessions)
    (older : ∀ (job : Nat) (session : Session), sessions[job]? = some session →
      later[job]? = some session) : deed.Proper later := by
  cases deed with
  | opened session => trivial
  | handed stream peerAddr session =>
      obtain ⟨own, created, here, same⟩ := proper
      exact ⟨own, created, older _ _ here, same⟩
  | ended session =>
      obtain ⟨created, here, same⟩ := proper
      exact ⟨created, older _ _ here, same⟩

namespace Service

variable {s s' : Service} {event : ServiceEvent}

/-- The KCP task of a session. -/
def taskOf (s : Service) (job : Nat) : Option Task := s.jobs[job]?.bind Job.task

/-- The reports that the KCP task of a session has made. -/
def reported (s : Service) (job : Nat) : Nat :=
  (s.taskOf job).elim 0 fun t => t.disconnects.length

/-- The reports of a session's KCP task on their way to the listener. -/
def reporting (s : Service) (job : Nat) : Nat :=
  s.messages.countP fun sent => sent.1 = job && sent.2.disconnects

/-- A conv that is given out in this step was not released before. -/
def allocatesUnreleased (s : Service) (event : ServiceEvent) : Bool :=
  (s.step event).all fun s' =>
    ((s'.deeds.drop s.deeds.length).filterMap Deed.session).all fun session =>
      session.conv ∉ s.deeds.filterMap Deed.released

/-- Every session has its own conv and is in the table under it until its end, its KCP task
runs under it, and what its tasks send carries it. -/
structure Matched (s : Service) : Prop extends Orderly s where
  spawned : s.jobs.length = s.sessions.length
  tasks : ∀ job t, s.taskOf job = some t → ∃ session : Session,
    s.sessions[job]? = some session ∧ (serverMachine s.listener.config session.conv).Reachable t
  distinct : ∀ (job job' : Nat) (session session' : Session), s.sessions[job]? = some session →
    s.sessions[job']? = some session' → session.conv = session'.conv → job = job'
  live : ∀ (job : Nat) (session : Session), s.sessions[job]? = some session → s.isEnded job ∨
    ∃ here, s.listener.convMap.get? session.conv = some here ∧ here.job = job
  sent : ∀ job msg, (job, msg) ∈ s.messages → ∃ session : Session,
    s.sessions[job]? = some session ∧ session.conv = msg.conv ∧
      ∀ stream, msg = .connect stream → stream.job = job
  counted : ∀ job, s.reporting job + s.deeds.countP (Deed.ends job) = s.reported job
  proper : ∀ deed ∈ s.deeds, deed.Proper s.sessions

theorem isEnded_iff {job : Nat} : s.isEnded job ↔ 0 < s.deeds.countP (Deed.ends job) := by
  rw [Service.isEnded, List.any_eq_true, List.countP_pos_iff]

/-- A KCP task that is where it was has reported what it had. -/
theorem reported_congr {job : Nat} (same : s'.taskOf job = s.taskOf job) :
    s'.reported job = s.reported job := by
  rw [Service.reported, same, Service.reported]

theorem taskOf_eq (s : Service) (job : Nat) :
    s.taskOf job = (s.jobs.map Job.state)[job]?.bind Prod.fst := by
  rw [Service.taskOf, List.getElem?_map, Option.bind_map]
  rfl

namespace Matched

theorem reported_le (matched : s.Matched) (job : Nat) : s.reported job ≤ 1 := by
  unfold Service.reported
  cases here : s.taskOf job with
  | none => exact Nat.zero_le _
  | some t =>
      obtain ⟨_, _, reach⟩ := matched.tasks job t here
      exact (server_disconnects reach).1

/-- A message finds no session but that of its sender. -/
theorem finds (matched : s.Matched) {job : Nat} {msg : Message} (sent : (job, msg) ∈ s.messages)
    {here : Session} (found : s.listener.convMap.get? msg.conv = some here) : here.job = job := by
  obtain ⟨created, first, same⟩ := matched.table _ _ found
  obtain ⟨session, own, conv, _⟩ := matched.sent job msg sent
  refine matched.distinct _ _ created session first own ?_
  rw [same.conv, matched.paired.conv _ _ found, conv]

/-- The message of an ended session finds none. -/
theorem finds_none (matched : s.Matched) {job : Nat} {msg : Message}
    (sent : (job, msg) ∈ s.messages) (ended : s.isEnded job) :
    s.listener.convMap.get? msg.conv = none := by
  cases found : s.listener.convMap.get? msg.conv with
  | none => rfl
  | some here => exact absurd (matched.finds sent found) ((matched.gone job ended).2 _ _ found)

/-- A report finds the session of its sender, which has not been ended. -/
theorem report_finds (matched : s.Matched) {job : Nat} {conv : U32}
    (sent : (job, .disconnect conv) ∈ s.messages) :
    ∃ here, s.listener.convMap.get? conv = some here ∧ here.job = job := by
  have waiting : 0 < s.reporting job :=
    List.countP_pos_iff.2 ⟨_, sent, by simp [Message.disconnects]⟩
  obtain ⟨session, own, same, _⟩ := matched.sent _ _ sent
  rcases matched.live job session own with ended | there
  · -- Its KCP task would have reported twice.
    have before := isEnded_iff.1 ended
    have once := matched.reported_le job
    have total := matched.counted job
    omega
  · rwa [show session.conv = conv from same] at there

/-- Neither the table nor a task changes. -/
theorem idle (matched : s.Matched) (table : s'.listener.table = s.listener.table)
    (jobs : s'.jobs.map Job.state = s.jobs.map Job.state) (messages : s'.messages = s.messages)
    (deeds : s'.deeds = s.deeds) : s'.Matched := by
  have orderly := matched.toOrderly.congr table deeds
  simp only [Listener.table, Prod.mk.injEq] at table
  obtain ⟨convMap, _, _, config⟩ := table
  have sessions : s'.sessions = s.sessions := by rw [Service.sessions, Service.sessions, deeds]
  have task (job : Nat) : s'.taskOf job = s.taskOf job := by rw [taskOf_eq, jobs, ← taskOf_eq]
  refine ⟨orderly, ?_, ?_, ?_, ?_, ?_, ?_, ?_⟩
  · have lengths := congrArg List.length jobs
    rw [List.length_map, List.length_map] at lengths
    rw [lengths, sessions, matched.spawned]
  · intro job t here
    rw [sessions, config]
    exact matched.tasks job t (task job ▸ here)
  · rw [sessions]
    exact matched.distinct
  · intro job session here
    rw [Service.isEnded, deeds, convMap]
    exact matched.live job session (sessions ▸ here)
  · rw [messages, sessions]
    exact matched.sent
  · intro job
    rw [Service.reporting, messages, deeds, reported_congr (task job)]
    exact matched.counted job
  · rw [deeds, sessions]
    exact matched.proper

end Matched

/-- What a step that opens a session changes. -/
structure Creates (s : Service) (session : Session) (clock : Nat → U32) (s' : Service) : Prop where
  valid : Kcp.isValidConv session.conv
  free : s.listener.convMap.get? session.conv = none
  number : session.job = s.listener.spawned
  config : s'.listener.config = s.listener.config
  convMap : s'.listener.convMap = s.listener.convMap.insert session.conv session
  jobs : s'.jobs.map Job.state = s.jobs.map Job.state ++
    [(Task.start s.listener.config session.conv [] clock, false)]
  messages : s'.messages = s.messages
  deeds : s'.deeds = s.deeds ++ [.opened session]

namespace Creates

variable {session : Session} {clock : Nat → U32}

theorem sessions (creates : s.Creates session clock s') : s'.sessions = s.sessions ++ [session] := by
  simp [Service.sessions, creates.deeds, Deed.session]

/-- The sessions so far keep their numbers. -/
theorem older (creates : s.Creates session clock s') (job : Nat) (here : Session)
    (found : s.sessions[job]? = some here) : s'.sessions[job]? = some here := by
  rw [creates.sessions, List.getElem?_append_left (List.getElem?_eq_some_iff.1 found).1]
  exact found

theorem cases (creates : s.Creates session clock s') (matched : s.Matched) {job : Nat}
    {here : Session} (found : s'.sessions[job]? = some here) :
    s.sessions[job]? = some here ∨ job = s.listener.spawned ∧ here = session := by
  rw [creates.sessions, List.getElem?_append] at found
  split at found
  · exact .inl found
  · obtain ⟨bound, last⟩ := List.getElem?_eq_some_iff.1 found
    rw [List.length_singleton] at bound
    rw [List.getElem_singleton] at last
    have size := matched.created
    exact .inr ⟨by omega, last.symm⟩

/-- The KCP tasks so far go on, and the new one starts. -/
theorem task (creates : s.Creates session clock s') (matched : s.Matched) (job : Nat) :
    s'.taskOf job = if job = s.listener.spawned then
      Task.start s.listener.config session.conv [] clock else s.taskOf job := by
  rw [taskOf_eq, creates.jobs, List.getElem?_append, List.length_map, matched.spawned, matched.created]
  split
  · rename_i below
    rw [if_neg below.ne, ← taskOf_eq]
  · rename_i above
    split
    · rename_i same
      simp [same]
    · have past : 1 ≤ job - s.listener.spawned := by omega
      rw [List.getElem?_eq_none (by simpa using past), taskOf, List.getElem?_eq_none ?_]
      · rfl
      · rw [matched.spawned, matched.created]
        omega

/-- No session has had the conv: those that were ended released theirs, and the conv is not in
the table. -/
theorem unused (creates : s.Creates session clock s') (matched : s.Matched)
    (unreleased : session.conv ∉ s.deeds.filterMap Deed.released) (job : Nat) (here : Session)
    (found : s.sessions[job]? = some here) : here.conv ≠ session.conv := by
  intro same
  rcases matched.live job here found with ended | ⟨there, known, _⟩
  · obtain ⟨deed, member, ends⟩ := List.any_eq_true.1 ended
    cases deed with
    | ended last =>
        obtain ⟨created, first, alike⟩ := matched.proper _ member
        have index : last.job = job := by simpa [Deed.ends] using ends
        rw [index, found] at first
        cases first
        refine unreleased (List.mem_filterMap.2 ⟨_, member, ?_⟩)
        rw [Deed.released, ← alike.conv, same]
    | _ => simp [Deed.ends] at ends
  · rw [same, creates.free] at known
    cases known

/-- The new KCP task runs under the conv of its session. -/
theorem started (creates : s.Creates session clock s') {t : Task}
    (starts : Task.start s.listener.config session.conv [] clock = some t) :
    (serverMachine s.listener.config session.conv).Reachable t :=
  .initial ⟨creates.valid, clock, starts⟩

theorem tasks (creates : s.Creates session clock s') (matched : s.Matched) (job : Nat) (t : Task)
    (here : s'.taskOf job = some t) : ∃ owner : Session, s'.sessions[job]? = some owner ∧
      (serverMachine s'.listener.config owner.conv).Reachable t := by
  rw [creates.task matched] at here
  rw [creates.config]
  split at here
  · rename_i last
    refine ⟨session, ?_, creates.started here⟩
    rw [creates.sessions, last, ← matched.created]
    simp
  · obtain ⟨first, created, reach⟩ := matched.tasks job t here
    exact ⟨first, creates.older _ _ created, reach⟩

theorem live (creates : s.Creates session clock s') (matched : s.Matched)
    (unreleased : session.conv ∉ s.deeds.filterMap Deed.released) (job : Nat) (here : Session)
    (found : s'.sessions[job]? = some here) : s'.isEnded job ∨
      ∃ there, s'.listener.convMap.get? here.conv = some there ∧ there.job = job := by
  rw [creates.convMap]
  rcases creates.cases matched found with before | ⟨rfl, rfl⟩
  · refine (matched.live job here before).imp (fun ended => ?_) ?_
    · rw [Service.isEnded, creates.deeds, List.any_append, Bool.or_eq_true]
      exact .inl ended
    · rintro ⟨there, known, index⟩
      refine ⟨there, ?_, index⟩
      rwa [LinkedMap.get?_insert_of_ne (creates.unused matched unreleased _ _ before)]
  · exact .inr ⟨here, LinkedMap.get?_insert_self, creates.number⟩

/-- The new KCP task has reported nothing. -/
theorem counted (creates : s.Creates session clock s') (matched : s.Matched) (job : Nat) :
    s'.reporting job + s'.deeds.countP (Deed.ends job) = s'.reported job := by
  have counted := matched.counted job
  have unended : [Deed.opened session].countP (Deed.ends job) = 0 := by simp [Deed.ends]
  rw [Service.reporting, creates.messages, creates.deeds, List.countP_append, unended, Nat.add_zero]
  rw [Service.reporting] at counted
  rw [counted, Service.reported, Service.reported, creates.task matched]
  split
  · rename_i last
    have none : s.taskOf job = none := by
      rw [taskOf, List.getElem?_eq_none]
      · rfl
      · rw [matched.spawned, matched.created, last]
    rw [none]
    cases starts : Task.start s.listener.config session.conv [] clock with
    | none => rfl
    | some t =>
        have once := reach_reportedOnce (reach_of_server (creates.started starts))
        rw [Task.ReportedOnce, Task.start_pc starts] at once
        exact once.symm
  · rfl

end Creates

namespace Matched

/-- A session is opened with its tasks, under a conv that was not released before. -/
theorem opened (matched : s.Matched) {sid : Bytes} {peerAddr : SocketAddr} {now : Nat}
    {random : List U32} {clock : Nat → U32} {session : Session}
    (fresh : s.listener.sidMap.get? sid = none)
    (listener : s.listener.openSession sid peerAddr now random = some (session, s'.listener))
    (jobs : s'.jobs.map Job.state = s.jobs.map Job.state ++
      [(Task.start s.listener.config session.conv [] clock, false)])
    (messages : s'.messages = s.messages) (deeds : s'.deeds = s.deeds ++ [.opened session])
    (unreleased : session.conv ∉ s.deeds.filterMap Deed.released) : s'.Matched := by
  have orderly := matched.toOrderly.opened fresh listener deeds
  have creates : s.Creates session clock s' := by
    obtain ⟨conv, convCache, valid, free, rfl, equal⟩ := Listener.openSession_eq listener
    exact ⟨valid, free, rfl, by rw [equal], by rw [equal], jobs, messages, deeds⟩
  have unused := creates.unused matched unreleased
  have lengths := congrArg List.length jobs
  simp only [List.length_map, List.length_append, List.length_singleton] at lengths
  refine ⟨orderly, ?_, creates.tasks matched, ?_, creates.live matched unreleased, ?_,
    creates.counted matched, ?_⟩
  · rw [lengths, creates.sessions, List.length_append, List.length_singleton, matched.spawned]
  · intro job job' first second here here' same
    rcases creates.cases matched here with before | ⟨rfl, rfl⟩ <;>
      rcases creates.cases matched here' with before' | ⟨rfl, rfl⟩
    · exact matched.distinct _ _ _ _ before before' same
    · exact absurd same (unused _ _ before)
    · exact absurd same.symm (unused _ _ before')
    · rfl
  · intro job msg member
    rw [messages] at member
    obtain ⟨first, created, rest⟩ := matched.sent job msg member
    exact ⟨first, creates.older _ _ created, rest⟩
  · intro deed member
    rw [deeds] at member
    rcases List.mem_append.1 member with earlier | last
    · exact (matched.proper deed earlier).mono creates.older
    · rw [List.mem_singleton.1 last]
      trivial

/-- A connect message finds no session any more. -/
theorem ignored (matched : s.Matched) {job : Nat} {msg : Message}
    {messages : List (Nat × Message)} (first : s.messages = (job, msg) :: messages)
    (unknown : s.listener.convMap.get? msg.conv = none) :
    ({ s with messages } : Service).Matched := by
  have silent : msg.disconnects = false := by
    cases msg with
    | connect stream => rfl
    | disconnect conv =>
        obtain ⟨here, found, _⟩ := matched.report_finds (first ▸ List.mem_cons_self)
        rw [show s.listener.convMap.get? conv = none from unknown] at found
        cases found
  refine ⟨matched.toOrderly.congr rfl rfl, matched.spawned, matched.tasks, matched.distinct,
    matched.live, fun other sent member => ?_, fun other => ?_, matched.proper⟩
  · exact matched.sent other sent (first ▸ List.mem_cons_of_mem _ member)
  · have counted := matched.counted other
    rw [Service.reporting, first, List.countP_cons_of_neg (by simp [silent])] at counted
    exact counted

end Matched

namespace Processes

variable {msg : Message} {session : Session} {now : Nat}

/-- A session that is not ended stays in the table. -/
theorem live (processes : s.Processes msg session now s') (matched : s.Matched) (job : Nat)
    (owner : Session) (here : s.sessions[job]? = some owner) :
    s'.isEnded job ∨ ∃ here, s'.listener.convMap.get? owner.conv = some here ∧ here.job = job := by
  rw [Service.isEnded, processes.deeds, List.any_append, Bool.or_eq_true, processes.listener]
  rcases matched.live job owner here with ended | ⟨old, found, index⟩
  · exact .inl (.inl ended)
  · rcases Listener.processMsg_get? processes.known now found with rfl | ⟨new, after, alike, _⟩
    · -- The session that this message ends.
      have is : session = old := Option.some.inj (processes.known.symm.trans found)
      exact .inl (.inr (by simp [deedsOf, Deed.ends, is, index]))
    · exact .inr ⟨new, after, alike.job.symm.trans index⟩

/-- A report that is processed is an end in the deeds. -/
theorem counted (processes : s.Processes msg session now s') (matched : s.Matched)
    (first : s.messages = (session.job, msg) :: s'.messages) (jobs : s'.jobs = s.jobs) (job : Nat) :
    s'.reporting job + s'.deeds.countP (Deed.ends job) = s'.reported job := by
  have task : s'.taskOf job = s.taskOf job := by rw [Service.taskOf, jobs, Service.taskOf]
  have ends : (deedsOf session msg).countP (Deed.ends job) =
      if session.job = job ∧ msg.disconnects then 1 else 0 := by
    cases msg with
    | connect stream =>
        simp only [deedsOf]
        split <;> simp [Deed.ends, Message.disconnects]
    | disconnect gone => simp [deedsOf, Deed.ends, Message.disconnects, List.countP_singleton]
  have counted := matched.counted job
  rw [Service.reporting, first, List.countP_cons] at counted
  simp only [Bool.and_eq_true, decide_eq_true_iff] at counted
  rw [Service.reporting, processes.deeds, List.countP_append, ends, reported_congr task, ← counted]
  omega

/-- A deed belongs to the session that the message came from. -/
theorem proper (processes : s.Processes msg session now s') (matched : s.Matched)
    (member : (session.job, msg) ∈ s.messages) {deed : Deed} (fresh : deed ∈ deedsOf session msg) :
    deed.Proper s.sessions := by
  obtain ⟨created, there, same⟩ := matched.table _ _ processes.known
  cases msg with
  | connect stream =>
      have conv : session.conv = stream.conv := matched.paired.conv _ _ processes.known
      obtain ⟨_, _, _, sender⟩ := matched.sent _ _ member
      simp only [deedsOf] at fresh
      split at fresh
      · rw [List.mem_singleton.1 fresh]
        exact ⟨⟨sender stream rfl, conv.symm, rfl⟩, created, there, same⟩
      · cases fresh
  | disconnect gone =>
      rw [List.mem_singleton.1 fresh]
      exact ⟨created, there, same⟩

end Processes

namespace Matched

/-- A message finds its session. -/
theorem processed (matched : s.Matched) {job : Nat} {msg : Message} {session : Session} {now : Nat}
    (processes : s.Processes msg session now s')
    (first : s.messages = (job, msg) :: s'.messages) (jobs : s'.jobs = s.jobs) : s'.Matched := by
  have member : (job, msg) ∈ s.messages := first ▸ List.mem_cons_self
  obtain rfl : session.job = job := matched.finds member processes.known
  refine ⟨matched.toOrderly.processed processes, ?_, ?_, ?_, ?_, ?_,
    processes.counted matched first jobs, ?_⟩ <;> rw [processes.sessions]
  · rw [jobs]
    exact matched.spawned
  · intro other t here
    rw [Service.taskOf, jobs] at here
    rw [processes.listener, (Listener.config_processMsg msg now).1]
    exact matched.tasks other t here
  · exact matched.distinct
  · exact processes.live matched
  · intro other sent inside
    exact matched.sent other sent (first ▸ List.mem_cons_of_mem _ inside)
  · intro deed inside
    rw [processes.deeds] at inside
    rcases List.mem_append.1 inside with earlier | fresh
    · exact matched.proper deed earlier
    · exact processes.proper matched member fresh

/-- A task of a session goes on and sends messages. -/
theorem goes_on (matched : s.Matched) {job : Nat} {tasks later : Job} {sent : List Message}
    (here : s.jobs[job]? = some tasks)
    (runs : ∀ (session : Session) t, s.sessions[job]? = some session → later.task = some t →
      (serverMachine s.listener.config session.conv).Reachable t)
    (carries : ∀ session : Session, s.sessions[job]? = some session → ∀ msg ∈ sent,
      session.conv = msg.conv ∧ ∀ stream, msg = .connect stream → stream.job = job)
    (count : sent.countP Message.disconnects + tasks.task.elim 0 (·.disconnects.length) =
      later.task.elim 0 (·.disconnects.length))
    (listener : s'.listener = s.listener) (jobs : s'.jobs = s.jobs.set job later)
    (messages : s'.messages = s.messages ++ sent.map fun msg => (job, msg))
    (deeds : s'.deeds = s.deeds) : s'.Matched := by
  have bound : job < s.jobs.length := (List.getElem?_eq_some_iff.1 here).1
  obtain ⟨session, own⟩ : ∃ session, s.sessions[job]? = some session := by
    rw [matched.spawned] at bound
    exact ⟨_, List.getElem?_eq_getElem bound⟩
  have sessions : s'.sessions = s.sessions := by rw [Service.sessions, deeds, Service.sessions]
  have task (other : Nat) :
      s'.taskOf other = if other = job then later.task else s.taskOf other := by
    rw [Service.taskOf, jobs]
    split
    · rename_i same
      rw [same, List.getElem?_set_self bound]
      rfl
    · rename_i different
      rw [List.getElem?_set_ne (Ne.symm different), Service.taskOf]
  refine ⟨matched.toOrderly.congr (congrArg Listener.table listener) deeds, ?_, ?_, ?_, ?_, ?_,
    ?_, ?_⟩
  · rw [jobs, List.length_set, sessions]
    exact matched.spawned
  · intro other t running
    rw [task] at running
    rw [sessions, listener]
    split at running
    · rename_i same
      rw [same]
      exact ⟨session, own, runs session t own running⟩
    · exact matched.tasks other t running
  · rw [sessions]
    exact matched.distinct
  · intro other owner there
    rw [Service.isEnded, deeds, listener]
    exact matched.live other owner (sessions ▸ there)
  · intro other msg member
    rw [messages] at member
    rw [sessions]
    rcases List.mem_append.1 member with earlier | fresh
    · exact matched.sent other msg earlier
    · obtain ⟨_, inside, equal⟩ := List.mem_map.1 fresh
      cases equal
      exact ⟨session, own, carries session own msg inside⟩
  · intro other
    have counted := matched.counted other
    have fresh : (sent.map fun msg => (job, msg)).countP (fun sent =>
        sent.1 = other && sent.2.disconnects) =
          if other = job then sent.countP Message.disconnects else 0 := by
      rw [List.countP_map]
      split
      · rename_i same
        simp [same, Function.comp_def]
      · rename_i different
        simp [Ne.symm different, Function.comp_def]
    rw [Service.reporting, messages, deeds, List.countP_append, fresh, Service.reported, task]
    rw [Service.reporting, Service.reported] at counted
    split
    · rename_i same
      have old : s.taskOf other = tasks.task := by
        rw [same, Service.taskOf, here]
        rfl
      rw [old] at counted
      omega
    · exact counted
  · rw [deeds, sessions]
    exact matched.proper

/-- Every step in which no released conv is given out again. -/
theorem step (matched : s.Matched) (allowed : s.allocatesUnreleased event)
    (stepped : s.step event = some s') : s'.Matched := by
  cases step_change matched.numbered stepped with
  | idle table jobs messages deeds => exact matched.idle table jobs messages deeds
  | @opened _ _ _ _ _ _ session fresh listener jobs messages deeds =>
      refine matched.opened fresh listener jobs messages deeds ?_
      rw [allocatesUnreleased, stepped, Option.all_some, deeds, List.drop_left] at allowed
      simpa [Deed.session] using allowed
  | ignored first unknown => exact matched.ignored first unknown
  | processed now first known => exact matched.processed ⟨known, rfl, rfl⟩ first rfl
  | @stepped job tasks t t' inbox event here running transition =>
      have current : s.taskOf job = some t := by rw [taskOf, here, Option.bind_some, running]
      obtain ⟨owner, own, reach⟩ := matched.tasks job t current
      have later : (serverMachine s.listener.config owner.conv).Reachable t' :=
        .step reach trivial transition
      obtain ⟨extra, trace⟩ := Task.trace_prefix_of_moves
        (Task.step_moves (reach_placed (reach_of_server reach)) transition)
      have messages : (s.messages ++ ((t'.trace.drop t.trace.length).filterMap
          Obs.disconnectConv).map fun conv => (job, .disconnect conv)) = s.messages ++
            ((extra.filterMap Obs.disconnectConv).map Message.disconnect).map
              fun msg => (job, msg) := by
        rw [← trace, List.drop_left, List.map_map]
        rfl
      have reported : t'.disconnects = t.disconnects ++ extra.filterMap Obs.disconnectConv := by
        rw [Task.disconnects, ← trace, List.filterMap_append, Task.disconnects]
      refine matched.goes_on here ?_ ?_ ?_ rfl rfl messages rfl
      · rintro session _ created ⟨⟩
        rw [own] at created
        cases created
        exact later
      · intro session created msg member
        obtain ⟨conv, inside, rfl⟩ := List.mem_map.1 member
        rw [own] at created
        cases created
        have same := (server_disconnects later).2 conv (reported ▸ List.mem_append_right _ inside)
        refine ⟨same.symm, ?_⟩
        rintro _ ⟨⟩
      · have all : ((extra.filterMap Obs.disconnectConv).map Message.disconnect).countP
            Message.disconnects = (extra.filterMap Obs.disconnectConv).length := by
          simp [List.countP_map, Function.comp_def, Message.disconnects]
        simp only [running, Option.elim_some, all, reported, List.length_append]
        exact Nat.add_comm _ _
  | @connected job tasks t conv here running found =>
      have current : s.taskOf job = some t := by rw [taskOf, here, Option.bind_some, running]
      obtain ⟨owner, own, reach⟩ := matched.tasks job t current
      have messages : s.messages ++ [(job, .connect { conv, job })] =
          s.messages ++ [Message.connect { conv, job }].map fun msg => (job, msg) := rfl
      refine matched.goes_on here ?_ ?_ ?_ rfl rfl messages rfl
      · intro session other created same
        rw [own] at created
        cases created
        rw [running] at same
        cases same
        exact reach
      · intro session created msg member
        rw [own] at created
        cases created
        rw [List.mem_singleton.1 member]
        have carries := server_carries reach _ found
        refine ⟨Eq.symm carries, ?_⟩
        rintro _ ⟨⟩
        rfl
      · simp [Message.disconnects]
  | @failed job tasks here =>
      have messages : s.messages = s.messages ++ ([] : List Message).map fun msg => (job, msg) :=
        (List.append_nil _).symm
      refine matched.goes_on here ?_ (by simp) (Nat.zero_add _) rfl rfl messages rfl
      intro session t created running
      have current : s.taskOf job = some t := by rw [taskOf, here, Option.bind_some, ← running]
      obtain ⟨owner, own, reach⟩ := matched.tasks job t current
      rw [own] at created
      cases created
      exact reach

end Matched

/-- Every stream in the accept queue was handed out. -/
def Delivered (s : Service) : Prop :=
  ∀ entry ∈ s.listener.streams, ∃ session, .handed entry.1 entry.2 session ∈ s.deeds

theorem Delivered.change (delivered : s.Delivered) (change : s.Change s') : s'.Delivered := by
  cases change with
  | idle _ _ _ deeds streams =>
      intro entry member
      rw [deeds]
      exact delivered entry (streams member)
  | opened _ listener _ _ deeds =>
      obtain ⟨_, _, _, _, _, equal⟩ := Listener.openSession_eq listener
      intro entry member
      rw [equal] at member
      obtain ⟨session, handed⟩ := delivered entry member
      exact ⟨session, deeds ▸ List.mem_append_left _ handed⟩
  | @processed _ msg _ session now _ known =>
      have older {entry : KcpStream × SocketAddr} (member : entry ∈ s.listener.streams) :
          ∃ session', .handed entry.1 entry.2 session' ∈ s.deeds ++ deedsOf session msg := by
        obtain ⟨session', handed⟩ := delivered entry member
        exact ⟨session', List.mem_append_left _ handed⟩
      intro entry member
      cases msg with
      | connect stream =>
          have found : s.listener.convMap.get? stream.conv = some session := known
          simp only [Listener.processMsg, found] at member
          split at member
          · rename_i permit
            rcases List.mem_append.1 member with earlier | last
            · exact older earlier
            · rw [List.mem_singleton.1 last]
              exact ⟨session, List.mem_append_right _ (by simp [deedsOf, permit])⟩
          · exact older member
      | disconnect gone =>
          have found : s.listener.convMap.get? gone = some session := known
          simp only [Listener.processMsg, found] at member
          exact older member
  | _ => exact delivered

end Service

/-- What holds between the deeds of a list, in their order, holds of its elements. -/
theorem pairwise_of_splits {α : Type} {xs : List α} {Related : α → α → Prop}
    (related : ∀ before first middle second after,
      xs = before ++ first :: (middle ++ second :: after) → Related first second) :
    xs.Pairwise Related := by
  rw [List.pairwise_iff_forall_sublist]
  intro first second both
  obtain ⟨left, right, rfl, inLeft, inRight⟩ := List.cons_sublist_iff.1 both
  obtain ⟨before, middle, rfl⟩ := List.append_of_mem inLeft
  obtain ⟨middle', after, rfl⟩ := List.append_of_mem (List.singleton_sublist.1 inRight)
  exact related before first (middle ++ middle') second after (by simp)

/-- The streams of an orderly service belong to different sessions. -/
theorem Service.Orderly.nodup {s : Service} (orderly : s.Orderly) :
    ((s.deeds.filterMap Deed.handedFor).map Session.job).Nodup := by
  rw [List.Nodup, List.pairwise_map, List.pairwise_filterMap]
  refine pairwise_of_splits fun before first middle second after split => ?_
  intro session handed session' handed'
  cases first with
  | handed stream peerAddr own =>
      cases second with
      | handed stream' peerAddr' own' =>
          cases handed
          cases handed'
          exact (orderly.separate _ _ _ _ _ _ _ _ _ split).1
      | _ => cases handed'
  | _ => cases handed

theorem reach_matched {s : Service}
    (reach : serviceMachine.Reach (fun s event => s.allocatesUnreleased event) s) :
    s.Matched ∧ s.Delivered := by
  refine reach.invariant (fun s => s.Matched ∧ s.Delivered) (fun s initial => ?_)
    (fun _ _ _ _ holds allowed stepped => ⟨holds.1.step allowed stepped,
      holds.2.change (Service.step_change holds.1.numbered stepped)⟩)
  have start : serviceMachine.Reachable s := .initial initial
  have orderly : s.Orderly := reach_orderly start
  obtain ⟨_, ⟨config, convCache, backlog, rfl⟩, rfl⟩ := initial
  refine ⟨⟨orderly, rfl, ?_, ?_, ?_, ?_, ?_, ?_⟩, ?_⟩
  · exact fun _ _ none => by simp [Service.taskOf] at none
  · exact fun _ _ _ _ none => by simp [Service.sessions] at none
  · exact fun _ _ none => by simp [Service.sessions] at none
  · exact fun _ _ none => by simp at none
  · exact fun _ => rfl
  · exact fun _ none => by simp at none
  · exact fun _ none => by simp at none

/-- Pairing of connects and disconnects. In every run that gives no released conv out again, a
stream in the accept queue was handed out; a stream that was handed out has the number and
the conv of the session it was handed out for, and goes with the address of its peer; no
session hands out two; a disconnect removes the session of the task that sent it and no
other; and a connect whose session has been ended changes nothing. -/
theorem messages_find_their_session {s : Service}
    (reach : serviceMachine.Reach (fun s event => s.allocatesUnreleased event) s) :
    (∀ entry ∈ s.listener.streams, ∃ session, .handed entry.1 entry.2 session ∈ s.deeds) ∧
    (∀ stream peerAddr session, .handed stream peerAddr session ∈ s.deeds →
      (stream.job = session.job ∧ stream.conv = session.conv ∧ peerAddr = session.peerAddr) ∧
        ∃ created, s.sessions[session.job]? = some created ∧ created.Same session) ∧
    ((s.deeds.filterMap Deed.handedFor).map Session.job).Nodup ∧
    ∀ job msg now s', s.messages.head? = some (job, msg) → s.step (.process now) = some s' →
      (∀ conv, msg = .disconnect conv → ∃ session,
        s.listener.convMap.get? conv = some session ∧ session.job = job ∧
          s'.listener.convMap = s.listener.convMap.remove conv ∧
            s'.deeds = s.deeds ++ [.ended session]) ∧
      ∀ stream, msg = .connect stream → stream.job = job ∧
        (s.isEnded job → s'.listener = s.listener ∧ s'.deeds = s.deeds) := by
  obtain ⟨matched, delivered⟩ := reach_matched reach
  refine ⟨delivered, fun stream peerAddr session handed => matched.proper _ handed,
    matched.toOrderly.nodup, fun job msg now s' head stepped => ?_⟩
  obtain ⟨messages, first⟩ : ∃ messages, s.messages = (job, msg) :: messages := by
    cases queued : s.messages with
    | nil => simp [queued] at head
    | cons sent messages =>
        rw [queued, List.head?_cons] at head
        exact ⟨messages, by rw [Option.some.inj head]⟩
  have sent : (job, msg) ∈ s.messages := first ▸ List.mem_cons_self
  simp only [Service.step, Service.process, first] at stepped
  refine ⟨?_, ?_⟩
  · rintro conv rfl
    obtain ⟨here, found, index⟩ := matched.report_finds sent
    simp only [Message.conv, found] at stepped
    split at stepped
    · cases stepped
    · cases stepped
      refine ⟨here, found, index, ?_, rfl⟩
      simp [Listener.processMsg, found, Listener.killSession]
  · rintro stream rfl
    obtain ⟨_, _, _, sender⟩ := matched.sent _ _ sent
    refine ⟨sender stream rfl, fun ended => ?_⟩
    have none := matched.finds_none sent ended
    simp only [none] at stepped
    cases stepped
    have same : s.listener.processMsg (.connect stream) now = s.listener :=
      Listener.processMsg_unknown none
    exact ⟨same, rfl⟩

/-- Two sessions of one session id, one after the other. -/
theorem messages_find_their_session_duplicate : ∃ s : Service,
    serviceMachine.Reach (fun s event => s.allocatesUnreleased event) s ∧
      (s.deeds.filterMap Deed.handedFor).map Session.job = [0, 1] ∧
      ((s.deeds.filterMap Deed.handedFor).map Session.job).Nodup := by
  have run : (serviceMachine.exec Service.allocatesUnreleased { listener := sampleListener }
      duplicateEvents).map (fun s => (s.deeds.filterMap Deed.handedFor).map Session.job) =
        some [0, 1] := by decide +kernel
  obtain ⟨s, executed, handed⟩ := Option.map_eq_some_iff.1 run
  have reach : serviceMachine.Reach (fun s event => s.allocatesUnreleased event) s :=
    Machine.reach_of_exec (fun _ _ allowed => allowed)
      (.initial ⟨sampleListener, ⟨_, _, 8, rfl⟩, rfl⟩) executed
  exact ⟨s, reach, handed, (messages_find_their_session reach).2.2.1⟩

end KcpRs
