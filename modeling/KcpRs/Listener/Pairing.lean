import KcpRs.Listener.Service

/-!
# Streams and sessions

Each session hands out at most one stream, and a second stream for one session id belongs
to another session, opened after the first one was ended (`handed_once_per_session`).
-/

namespace KcpRs

open Lib

/-- Where an element of a list prolonged by one stands. -/
theorem snoc_split {α : Type} {xs before after : List α} {last x : α}
    (equal : xs ++ [last] = before ++ x :: after) :
    (after = [] ∧ x = last ∧ xs = before) ∨
      ∃ rest, after = rest ++ [last] ∧ xs = before ++ x :: rest := by
  rcases List.eq_nil_or_concat after with rfl | ⟨rest, final, rfl⟩
  · obtain ⟨rfl, same⟩ := List.append_inj' equal rfl
    exact .inl ⟨rfl, (List.cons.inj same).1.symm, rfl⟩
  · rw [List.concat_eq_append, ← List.cons_append, ← List.append_assoc] at equal
    obtain ⟨rfl, same⟩ := List.append_inj' equal rfl
    rw [← (List.cons.inj same).1]
    exact .inr ⟨rest, List.concat_eq_append, rfl⟩

/-- Two states of one session. -/
structure Session.Same (first second : Session) : Prop where
  conv : first.conv = second.conv
  sessionId : first.sessionId = second.sessionId
  peerAddr : first.peerAddr = second.peerAddr
  job : first.job = second.job

theorem Session.Same.refl (session : Session) : session.Same session := ⟨rfl, rfl, rfl, rfl⟩

theorem Session.Same.trans {first second third : Session} (one : first.Same second)
    (two : second.Same third) : first.Same third :=
  ⟨one.conv.trans two.conv, one.sessionId.trans two.sessionId, one.peerAddr.trans two.peerAddr,
    one.job.trans two.job⟩

namespace Listener

variable {l : Listener} {msg : Message} {session : Session}

/-- A session that is there after a message was there before it. -/
theorem get?_processMsg (known : l.convMap.get? msg.conv = some session) {conv : U32}
    {here : Session} {now : Nat} (after : (l.processMsg msg now).convMap.get? conv = some here) :
    ∃ before, l.convMap.get? conv = some before ∧ before.Same here ∧
      (here.streamPermit → before.streamPermit) ∧
      (∀ gone, msg = .disconnect gone → conv ≠ gone) := by
  obtain ⟨stream, rfl, changed⟩ | ⟨gone, rfl, changed⟩ := convMap_processMsg now known
  · rw [changed] at after
    by_cases same : conv = stream.conv
    · subst same
      rw [LinkedMap.get?_modify_self] at after
      obtain ⟨before, found, rfl⟩ := Option.map_eq_some_iff.1 after
      exact ⟨before, found, ⟨rfl, rfl, rfl, rfl⟩, by simp, by simp⟩
    · rw [LinkedMap.get?_modify_of_ne same] at after
      exact ⟨here, after, .refl here, id, by simp⟩
  · rw [changed] at after
    have member := LinkedMap.mem_remove.1 (LinkedMap.get?_eq_some_iff.1 after)
    refine ⟨here, LinkedMap.get?_eq_some_iff.2 member.1, .refl here, id, ?_⟩
    rintro _ ⟨⟩
    exact member.2

/-- A session that was there before a message is there after it, unless the message ends
it. -/
theorem processMsg_get? (known : l.convMap.get? msg.conv = some session) (now : Nat) {conv : U32}
    {before : Session} (found : l.convMap.get? conv = some before) :
    msg = .disconnect conv ∨ ∃ here, (l.processMsg msg now).convMap.get? conv = some here ∧
      before.Same here ∧ (here.streamPermit → before.streamPermit) ∧
      (msg.conv = conv → here.streamPermit = false) := by
  obtain ⟨stream, rfl, changed⟩ | ⟨gone, rfl, changed⟩ := convMap_processMsg now known
  · right
    rw [changed]
    by_cases same : conv = stream.conv
    · subst same
      rw [LinkedMap.get?_modify_self, found]
      exact ⟨_, rfl, ⟨rfl, rfl, rfl, rfl⟩, by simp, fun _ => rfl⟩
    · rw [LinkedMap.get?_modify_of_ne same]
      exact ⟨before, found, .refl before, id, fun equal => absurd equal.symm same⟩
  · by_cases same : conv = gone
    · exact .inl (by rw [same])
    · right
      rw [changed, LinkedMap.get?_remove_of_ne same]
      exact ⟨before, found, .refl before, id, fun equal => absurd equal.symm same⟩

end Listener

namespace Service

variable {s s' : Service} {event : ServiceEvent}

/-- The sessions in the table are those created and not ended, a session whose stream was
handed out has no permit left, and streams for one session id are separated by the end of
the first session. -/
structure Orderly (s : Service) : Prop where
  paired : s.listener.Paired
  created : s.sessions.length = s.listener.spawned
  indexed : ∀ i (session : Session), s.sessions[i]? = some session → session.job = i
  table : ∀ conv here, s.listener.convMap.get? conv = some here →
    ∃ session : Session, s.sessions[here.job]? = some session ∧ session.Same here
  gone : ∀ job, s.isEnded job → job < s.listener.spawned ∧
    ∀ conv here, s.listener.convMap.get? conv = some here → here.job ≠ job
  spent : ∀ before stream peerAddr session after,
    s.deeds = before ++ .handed stream peerAddr session :: after →
      after.any (Deed.ends session.job) ∨ ∃ conv here, s.listener.convMap.get? conv = some here ∧
        session.Same here ∧ here.streamPermit = false
  separate : ∀ before stream peerAddr session middle stream' peerAddr' session' after,
    s.deeds = before ++ .handed stream peerAddr session ::
      (middle ++ .handed stream' peerAddr' session' :: after) →
    session.job ≠ session'.job ∧
      (session.sessionId = session'.sessionId → middle.any (Deed.ends session.job))

namespace Orderly

theorem numbered (orderly : s.Orderly) : s.listener.Numbered := by
  intro conv here found
  obtain ⟨session, created, _⟩ := orderly.table conv here found
  rw [← orderly.created]
  exact (List.getElem?_eq_some_iff.1 created).1

/-- A number belongs to one session in the table. -/
theorem unique (orderly : s.Orderly) {conv conv' : U32} {here here' : Session}
    (found : s.listener.convMap.get? conv = some here)
    (found' : s.listener.convMap.get? conv' = some here') (job : here.job = here'.job) :
    conv = conv' ∧ here = here' := by
  obtain ⟨session, created, same⟩ := orderly.table conv here found
  obtain ⟨session', created', same'⟩ := orderly.table conv' here' found'
  rw [job, created'] at created
  cases created
  have equal : conv = conv' := by
    rw [← orderly.paired.conv conv here found, ← orderly.paired.conv conv' here' found']
    exact same.conv.symm.trans same'.conv
  subst equal
  rw [found] at found'
  exact ⟨rfl, Option.some.inj found'⟩

/-- A session id belongs to one session in the table. -/
theorem unique_sid (orderly : s.Orderly) {conv conv' : U32} {here here' : Session}
    (found : s.listener.convMap.get? conv = some here)
    (found' : s.listener.convMap.get? conv' = some here')
    (sid : here.sessionId = here'.sessionId) : here = here' := by
  have first := (orderly.paired.inverse here.sessionId conv).2 ⟨here, found, rfl⟩
  have second := (orderly.paired.inverse here.sessionId conv').2 ⟨here', found', sid.symm⟩
  rw [first] at second
  cases second
  rw [found] at found'
  exact Option.some.inj found'

/-- Only the table and the deeds matter. -/
theorem congr (orderly : s.Orderly) (table : s'.listener.table = s.listener.table)
    (deeds : s'.deeds = s.deeds) : s'.Orderly := by
  simp only [Listener.table, Prod.mk.injEq] at table
  obtain ⟨convMap, sidMap, spawned, _⟩ := table
  have sessions : s'.sessions = s.sessions := by rw [Service.sessions, Service.sessions, deeds]
  refine ⟨orderly.paired.congr convMap sidMap, ?_, ?_, ?_, ?_, ?_, ?_⟩
  · rw [sessions, spawned]
    exact orderly.created
  · rw [sessions]
    exact orderly.indexed
  · rw [sessions, convMap]
    exact orderly.table
  · intro job ended
    rw [spawned, convMap]
    exact orderly.gone job (by rwa [Service.isEnded, deeds] at ended)
  · rw [deeds, convMap]
    exact orderly.spent
  · rw [deeds]
    exact orderly.separate

/-- A new session keeps the order. -/
theorem opened (orderly : s.Orderly) {sid : Bytes} {peerAddr : SocketAddr} {now : Nat}
    {random : List U32} {session : Session} (fresh : s.listener.sidMap.get? sid = none)
    (listener : s.listener.openSession sid peerAddr now random = some (session, s'.listener))
    (deeds : s'.deeds = s.deeds ++ [.opened session]) : s'.Orderly := by
  have paired := orderly.paired.openSession fresh listener
  obtain ⟨conv, convCache, valid, free, isNew, equal⟩ := Listener.openSession_eq listener
  have number : session.job = s.listener.spawned := by rw [isNew]
  have convMap : s'.listener.convMap = s.listener.convMap.insert conv session := by rw [equal]
  have spawned : s'.listener.spawned = s.listener.spawned + 1 := by rw [equal]
  have sessions : s'.sessions = s.sessions ++ [session] := by
    simp [Service.sessions, deeds, Deed.session]
  have old {conv' : U32} {here : Session} (found : s.listener.convMap.get? conv' = some here) :
      s'.listener.convMap.get? conv' = some here := by
    rw [convMap, LinkedMap.get?_insert_of_ne ?_]
    · exact found
    · rintro rfl
      rw [free] at found
      cases found
  have cases {conv' : U32} {here : Session} (found : s'.listener.convMap.get? conv' = some here) :
      here = session ∨ s.listener.convMap.get? conv' = some here := by
    by_cases same : conv' = conv
    · subst same
      rw [convMap, LinkedMap.get?_insert_self] at found
      exact .inl (Option.some.inj found).symm
    · rw [convMap, LinkedMap.get?_insert_of_ne same] at found
      exact .inr found
  have last : s'.sessions[session.job]? = some session := by
    rw [sessions, number, ← orderly.created]
    simp
  refine ⟨paired, ?_, ?_, ?_, ?_, ?_, ?_⟩
  · rw [sessions, List.length_append, orderly.created, spawned]
    rfl
  · intro i session' here
    rw [sessions, List.getElem?_append] at here
    split at here
    · exact orderly.indexed i session' here
    · rename_i past
      obtain ⟨bound, equal⟩ := List.getElem?_eq_some_iff.1 here
      rw [List.length_singleton] at bound
      have index : i = s.listener.spawned := by
        rw [← orderly.created]
        omega
      rw [List.getElem_singleton] at equal
      rw [← equal, number, index]
  · intro conv' here found
    rcases cases found with rfl | before
    · exact ⟨here, last, .refl here⟩
    · obtain ⟨first, created, same⟩ := orderly.table conv' here before
      refine ⟨first, ?_, same⟩
      rw [sessions, List.getElem?_append_left (List.getElem?_eq_some_iff.1 created).1]
      exact created
  · intro job ended
    have before : s.isEnded job := by
      simpa [Service.isEnded, deeds, Deed.ends] using ended
    obtain ⟨bound, none⟩ := orderly.gone job before
    refine ⟨by omega, fun conv' here found => ?_⟩
    rcases cases found with rfl | earlier
    · omega
    · exact none conv' here earlier
  · intro before stream peer handed after split
    rw [deeds] at split
    obtain ⟨_, is, _⟩ | ⟨rest, rfl, earlier⟩ := snoc_split split
    · cases is
    · refine (orderly.spent _ _ _ _ _ earlier).imp (fun ended => ?_) ?_
      · rw [List.any_append, ended, Bool.true_or]
      · rintro ⟨conv', here, found, same⟩
        exact ⟨conv', here, old found, same⟩
  · intro before stream peer handed middle stream' peer' handed' after split
    rw [deeds] at split
    obtain ⟨none, _⟩ | ⟨rest, whole, earlier⟩ := snoc_split split
    · simp at none
    · obtain ⟨_, is, _⟩ | ⟨rest', rfl, rfl⟩ := snoc_split whole.symm
      · cases is
      · exact orderly.separate _ _ _ _ _ _ _ _ _ earlier

end Orderly

/-- What processing a message for a session changes. -/
structure Processes (s : Service) (msg : Message) (session : Session) (now : Nat) (s' : Service) :
    Prop where
  known : s.listener.convMap.get? msg.conv = some session
  listener : s'.listener = s.listener.processMsg msg now
  deeds : s'.deeds = s.deeds ++ deedsOf session msg

namespace Processes

variable {msg : Message} {session : Session} {now : Nat}

theorem sessions (processes : s.Processes msg session now s') : s'.sessions = s.sessions := by
  rw [Service.sessions, processes.deeds, List.filterMap_append]
  cases msg with
  | connect stream =>
      unfold deedsOf
      split <;> simp [Deed.session, Service.sessions]
  | disconnect conv => simp [deedsOf, Deed.session, Service.sessions]

/-- What is in the table afterwards was there before. -/
theorem before (processes : s.Processes msg session now s') {conv : U32} {here : Session}
    (found : s'.listener.convMap.get? conv = some here) :
    ∃ before, s.listener.convMap.get? conv = some before ∧ before.Same here ∧
      (∀ gone, msg = .disconnect gone → conv ≠ gone) := by
  rw [processes.listener] at found
  obtain ⟨before, earlier, same, _, other⟩ := Listener.get?_processMsg processes.known found
  exact ⟨before, earlier, same, other⟩

/-- A stream is handed out for a session with a permit, or it has been handed out before. -/
theorem handed (processes : s.Processes msg session now s') {before after : List Deed}
    {stream : KcpStream} {peer : SocketAddr} {owner : Session}
    (split : s'.deeds = before ++ .handed stream peer owner :: after) :
    ((∃ stream, msg = .connect stream) ∧ after = [] ∧ owner = session ∧ session.streamPermit ∧
      s.deeds = before) ∨
    ∃ rest, after = rest ++ deedsOf session msg ∧
      s.deeds = before ++ .handed stream peer owner :: rest := by
  rw [processes.deeds] at split
  cases msg with
  | connect sent =>
      by_cases permit : session.streamPermit
      · have one : deedsOf session (.connect sent) = [.handed sent session.peerAddr session] := by
          simp [deedsOf, permit]
        rw [one] at split ⊢
        refine (snoc_split split).imp_left fun ⟨last, is, same⟩ => ?_
        cases is
        exact ⟨⟨_, rfl⟩, last, rfl, permit, same⟩
      · simp only [deedsOf, if_neg permit, List.append_nil] at split ⊢
        exact .inr ⟨after, rfl, split⟩
  | disconnect gone => exact .inr ((snoc_split split).resolve_left fun last => by cases last.2.1)

/-- A session that is ended by now was ended before, or this message ends it. -/
theorem ended (processes : s.Processes msg session now s') {job : Nat} (ended : s'.isEnded job) :
    s.isEnded job ∨ session.job = job ∧ ∃ gone, msg = .disconnect gone := by
  rw [Service.isEnded, processes.deeds, List.any_append, Bool.or_eq_true] at ended
  refine ended.imp_right fun now => ?_
  cases msg with
  | connect stream =>
      simp only [deedsOf] at now
      split at now <;> simp [Deed.ends] at now
  | disconnect gone => exact ⟨by simpa [deedsOf, Deed.ends] using now, gone, rfl⟩

/-- A session whose stream was handed out before is ended by the message, or keeps having no
permit. -/
theorem spent (processes : s.Processes msg session now s') (orderly : s.Orderly)
    {before rest : List Deed} {stream : KcpStream} {peer : SocketAddr} {owner : Session}
    (earlier : s.deeds = before ++ .handed stream peer owner :: rest) :
    (rest ++ deedsOf session msg).any (Deed.ends owner.job) ∨
      ∃ conv here, s'.listener.convMap.get? conv = some here ∧ owner.Same here ∧
        here.streamPermit = false := by
  rw [List.any_append, Bool.or_eq_true]
  rcases orderly.spent _ _ _ _ _ earlier with ended | ⟨conv, here, found, same, none⟩
  · exact .inl (.inl ended)
  · rcases Listener.processMsg_get? processes.known now found with
      rfl | ⟨later, after, alike, permit, _⟩
    · have known := processes.known
      have is : here = session := by
        rw [Message.conv, found] at known
        exact Option.some.inj known
      exact .inl (.inr (by simp [deedsOf, Deed.ends, ← is, same.job]))
    · refine .inr ⟨conv, later, processes.listener ▸ after, same.trans alike, ?_⟩
      cases kept : later.streamPermit with
      | false => rfl
      | true => exact absurd (permit kept) (by simp [none])

/-- A session that has a permit has handed out no stream, and neither has another session of its
session id that was not ended. -/
theorem separate (processes : s.Processes msg session now s') (orderly : s.Orderly)
    (permit : session.streamPermit) {before middle : List Deed} {stream : KcpStream}
    {peer : SocketAddr} {owner : Session}
    (earlier : s.deeds = before ++ .handed stream peer owner :: middle) :
    owner.job ≠ session.job ∧
      (owner.sessionId = session.sessionId → middle.any (Deed.ends owner.job)) := by
  rcases orderly.spent _ _ _ _ _ earlier with ended | ⟨conv, here, found, same, spent⟩
  · refine ⟨fun job => ?_, fun _ => ended⟩
    have gone : s.isEnded owner.job := by
      rw [Service.isEnded, earlier, List.any_append, List.any_cons, ended]
      simp
    exact (orderly.gone _ gone).2 _ _ processes.known job.symm
  · refine ⟨fun job => ?_, fun sid => ?_⟩
    · have is := (orderly.unique found processes.known (same.job.symm.trans job)).2
      rw [is, permit] at spent
      cases spent
    · have is := orderly.unique_sid found processes.known (same.sessionId.symm.trans sid)
      rw [is, permit] at spent
      cases spent

end Processes

namespace Orderly

/-- A message keeps the order. -/
theorem processed (orderly : s.Orderly) {msg : Message} {session : Session} {now : Nat}
    (processes : s.Processes msg session now s') : s'.Orderly := by
  have spawned : s'.listener.spawned = s.listener.spawned := by
    rw [processes.listener, (Listener.config_processMsg msg now).2]
  refine ⟨processes.listener ▸ orderly.paired.processMsg msg, ?_, ?_, ?_, ?_, ?_, ?_⟩
  · rw [processes.sessions, spawned]
    exact orderly.created
  · rw [processes.sessions]
    exact orderly.indexed
  · intro conv here found
    obtain ⟨before, earlier, same, _⟩ := processes.before found
    obtain ⟨first, created, alike⟩ := orderly.table conv before earlier
    rw [processes.sessions, ← same.job]
    exact ⟨first, created, alike.trans same⟩
  · intro job ended
    rw [spawned]
    rcases processes.ended ended with already | ⟨rfl, gone, rfl⟩
    · obtain ⟨bound, none⟩ := orderly.gone job already
      refine ⟨bound, fun conv here found => ?_⟩
      obtain ⟨earlier, there, same, _⟩ := processes.before found
      rw [← same.job]
      exact none conv earlier there
    · refine ⟨orderly.numbered _ _ processes.known, fun conv here found number => ?_⟩
      obtain ⟨earlier, there, same, other⟩ := processes.before found
      exact other gone rfl (orderly.unique there processes.known (same.job.trans number)).1
  · intro before stream peer owner after split
    obtain ⟨⟨sent, rfl⟩, rfl, rfl, _, _⟩ | ⟨rest, rfl, earlier⟩ := processes.handed split
    · rcases Listener.processMsg_get? processes.known now processes.known with
        is | ⟨here, after, same, _, none⟩
      · cases is
      · exact .inr ⟨_, here, processes.listener ▸ after, same, none rfl⟩
    · exact processes.spent orderly earlier
  · intro before stream peer owner middle stream' peer' owner' after split
    rw [← List.cons_append, ← List.append_assoc] at split
    obtain ⟨_, _, rfl, permit, earlier⟩ | ⟨rest, _, earlier⟩ := processes.handed split
    · exact processes.separate orderly permit earlier
    · rw [List.append_assoc, List.cons_append] at earlier
      exact orderly.separate _ _ _ _ _ _ _ _ _ earlier

theorem change (orderly : s.Orderly) (change : s.Change s') : s'.Orderly := by
  cases change with
  | idle table _ _ deeds => exact orderly.congr table deeds
  | opened fresh listener _ _ deeds => exact orderly.opened fresh listener deeds
  | ignored => exact orderly.congr rfl rfl
  | processed now _ known => exact orderly.processed ⟨known, rfl, rfl⟩
  | stepped => exact orderly.congr rfl rfl
  | connected => exact orderly.congr rfl rfl
  | failed => exact orderly.congr rfl rfl

end Orderly

end Service

theorem reach_orderly {allow : Service → ServiceEvent → Prop} {s : Service}
    (reach : serviceMachine.Reach allow s) : s.Orderly := by
  refine reach.invariant Service.Orderly (fun s initial => ?_)
    (fun _ _ _ _ orderly _ stepped => orderly.change (Service.step_change orderly.numbered stepped))
  obtain ⟨_, ⟨config, convCache, backlog, rfl⟩, rfl⟩ := initial
  exact ⟨⟨by simp, by simp, by simp, rfl⟩, rfl, by simp [Service.sessions], by simp,
    by simp [Service.isEnded], by simp, by simp⟩

/-- Every session hands out at most one stream, and two streams for one session id belong to
two sessions, of which the first was ended in between. -/
theorem handed_once_per_session {s : Service} (reach : serviceMachine.Reachable s)
    {before middle after : List Deed} {stream stream' : KcpStream}
    {peerAddr peerAddr' : SocketAddr} {session session' : Session}
    (history : s.deeds = before ++ .handed stream peerAddr session ::
      (middle ++ .handed stream' peerAddr' session' :: after)) :
    session.job ≠ session'.job ∧
      (session.sessionId = session'.sessionId → middle.any (Deed.ends session.job)) :=
  (reach_orderly reach).separate _ _ _ _ _ _ _ _ _ history

/-- A session from its SYN packet to the stream that is handed out. -/
def connectEvents (job : Nat) (conv : U32) : List ServiceEvent :=
  [.packet synPacket clientAddr job [conv] fun _ => 0, .task job (.drain .sent), .task job .tau,
    .task job (.packet synPacket), .task job .noPacket, .task job .tau, .task job .tau,
    .acceptStream job, .process job]

/-- The application closes the stream, and the session ends. -/
def disconnectEvents (job : Nat) : List ServiceEvent :=
  [.task job (.app .closeSender), .task job (.app .cancel), .task job (.app .closeOutput),
    .task job (.drain .sent), .task job .tau, .task job .cancelled, .task job .tau, .process job]

/-- The SYN packet of one connect arrives a second time after the session has ended. -/
def duplicateEvents : List ServiceEvent :=
  connectEvents 0 5 ++ disconnectEvents 0 ++ connectEvents 1 6

theorem duplicate_run : ∃ s, serviceMachine.Reachable s ∧
    (s.deeds.filterMap Deed.handedFor).map Session.sessionId = [[7], [7]] := by
  have run : (serviceMachine.exec (fun _ _ => true) { listener := sampleListener }
      duplicateEvents).map (fun s => (s.deeds.filterMap Deed.handedFor).map Session.sessionId) =
        some [[7], [7]] := by decide +kernel
  obtain ⟨s, executed, handed⟩ := Option.map_eq_some_iff.1 run
  exact ⟨s, Machine.reach_of_exec (fun _ _ _ => trivial)
    (.initial ⟨sampleListener, ⟨_, _, 8, rfl⟩, rfl⟩) executed, handed⟩

/-- A stream for one session id was handed out twice. -/
theorem handed_twice_for_session_id : ¬ ∀ s, serviceMachine.Reachable s →
    ((s.deeds.filterMap Deed.handedFor).map Session.sessionId).Nodup := by
  intro once
  obtain ⟨s, reach, handed⟩ := duplicate_run
  have distinct := once s reach
  rw [handed] at distinct
  exact absurd distinct (by decide)

theorem handed_once_per_session_duplicate : ∃ s session session' middle,
    serviceMachine.Reachable s ∧ session.sessionId = session'.sessionId ∧
      (∃ before stream peerAddr stream' peerAddr' after,
        s.deeds = before ++ .handed stream peerAddr session ::
          (middle ++ .handed stream' peerAddr' session' :: after)) ∧
      session.job ≠ session'.job ∧ middle.any (Deed.ends session.job) := by
  have isHanded {deed : Deed} {session : Session} (handed : deed.handedFor = some session) :
      ∃ stream peerAddr, deed = .handed stream peerAddr session := by
    cases deed with
    | handed stream peerAddr other =>
        cases handed
        exact ⟨stream, peerAddr, rfl⟩
    | _ => cases handed
  obtain ⟨s, reach, handed⟩ := duplicate_run
  obtain ⟨session, others, first, sid, rest⟩ := List.map_eq_cons_iff.1 handed
  obtain ⟨session', none, rfl, sid', _⟩ := List.map_eq_cons_iff.1 rest
  obtain ⟨before, deed, tail, whole, _, is, later⟩ := List.filterMap_eq_cons_iff.1 first
  obtain ⟨middle, deed', after, rfl, _, is', _⟩ := List.filterMap_eq_cons_iff.1 later
  obtain ⟨stream, peerAddr, rfl⟩ := isHanded is
  obtain ⟨stream', peerAddr', rfl⟩ := isHanded is'
  obtain ⟨other, ended⟩ := handed_once_per_session reach whole
  exact ⟨s, session, session', middle, reach, sid.trans sid'.symm, ⟨_, _, _, _, _, _, whole⟩, other,
    ended (sid.trans sid'.symm)⟩

end KcpRs
