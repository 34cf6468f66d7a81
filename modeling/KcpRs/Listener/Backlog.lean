import KcpRs.Listener.Table

/-!
# The backlog

A session that is opened takes a permit for the channel of accepted streams and gives it up when its
stream is put there, or when it ends. The streams in the channel and the permits together never
exceed its capacity (`backlog_respected`), so a stream that is put there always finds room.
-/

namespace KcpRs

open Lib

namespace Listener

variable {l l' : Listener}

/-- The number of sessions that hold a permit. -/
def permits (l : Listener) : Nat := l.convMap.entries.countP (·.2.streamPermit)

/-- The streams in the channel and the permits fit into it. -/
def Respected (l : Listener) : Prop := l.streams.length + l.permits ≤ l.backlog

/-- A new session takes at most one permit. -/
theorem permits_insert (map : LinkedMap U32 Session) (conv : U32) (session : Session) :
    (map.insert conv session).entries.countP (·.2.streamPermit) ≤
      map.entries.countP (·.2.streamPermit) + 1 := by
  rw [LinkedMap.entries_insert, List.countP_append]
  have kept := (List.filter_sublist (p := fun entry => entry.1 ≠ conv)
    (l := map.entries)).countP_le (p := fun entry => entry.2.streamPermit)
  have one := List.countP_le_length (p := fun entry : U32 × Session => entry.2.streamPermit)
    (l := [(conv, session)])
  exact Nat.add_le_add kept one

/-- A session that gives up its permit, and the others. -/
theorem permits_modify {map : LinkedMap U32 Session} {conv : U32} {session : Session}
    (present : map.get? conv = some session) :
    (map.modify conv fun session => { session with task := false, streamPermit := false }).entries.countP
        (·.2.streamPermit) + (if session.streamPermit then 1 else 0) =
      map.entries.countP (·.2.streamPermit) := by
  rw [(LinkedMap.perm_modify present).countP_eq, (LinkedMap.perm_of_get? present).countP_eq,
    List.countP_cons, List.countP_cons]
  simp

theorem permits_remove {map : LinkedMap U32 Session} {conv : U32} :
    (map.remove conv).entries.countP (·.2.streamPermit) ≤ map.entries.countP (·.2.streamPermit) :=
  List.filter_sublist.countP_le

theorem Respected.processMsg (respected : l.Respected) (msg : Message) (now : Nat) :
    (l.processMsg msg now).Respected := by
  cases msg with
  | connect stream =>
      simp only [Listener.processMsg]
      split
      · exact respected
      · rename_i session present
        have less := permits_modify present
        simp only [Respected, permits] at respected
        split
        · rename_i permit
          rw [if_pos permit] at less
          simp only [Respected, permits, List.length_append, List.length_singleton]
          omega
        · simp only [Respected, permits]
          omega
  | disconnect conv =>
      simp only [Listener.processMsg]
      split
      · exact respected
      · exact (Nat.add_le_add_left permits_remove _).trans respected

theorem Respected.step {event : ListenerEvent} (respected : l.Respected)
    (stepped : l.step event = some l') : l'.Respected := by
  cases event with
  | packet bytes peerAddr now random =>
      obtain ⟨⟨found, last⟩, got, rfl⟩ := Option.map_eq_some_iff.1 stepped
      rcases getSession_cases got with ⟨rfl, _⟩ | ⟨_, session, _, _, _, _, _, _, room, _, opened⟩
      · exact respected
      · obtain ⟨conv, convCache, _, _, _, rfl⟩ := openSession_eq opened
        have more := permits_insert l.convMap conv session
        have room := of_decide_eq_true ((Bool.and_eq_true _ _).mp room).2
        simp only [Respected, permits]
        omega
  | message msg now =>
      cases stepped
      exact respected.processMsg msg now
  | cache call now =>
      obtain ⟨convCache, _, rfl⟩ := Option.map_eq_some_iff.1 stepped
      exact respected
  | accept =>
      simp only [Listener.step] at stepped
      split at stepped
      · cases stepped
      · rename_i first streams queued
        cases stepped
        simp only [Respected, permits, queued, List.length_cons] at respected ⊢
        omega
  | close | closing =>
      cases stepped
      exact respected

end Listener

/-- The backlog is respected. In every reachable state of a listener the streams that wait for
`accept`, together with the sessions that still hold a permit, are at most `max(backlog, 8)`; and as
long as a session holds its permit the channel has room for its stream. -/
theorem backlog_respected {allow : Listener → ListenerEvent → Prop} {l : Listener}
    (reach : listenerMachine.Reach allow l) :
    l.streams.length + l.permits ≤ l.backlog ∧
      ∀ conv session, l.convMap.get? conv = some session → session.streamPermit →
        l.streams.length < l.backlog := by
  have respected : l.Respected := by
    refine reach.invariant Listener.Respected ?_ fun _ _ _ _ respected _ stepped =>
      respected.step stepped
    rintro _ ⟨config, convCache, backlog, rfl⟩
    exact Nat.zero_le _
  refine ⟨respected, fun conv session present permit => ?_⟩
  have held : 0 < l.permits :=
    List.countP_pos_iff.2 ⟨_, LinkedMap.get?_eq_some_iff.1 present, permit⟩
  have respected : l.streams.length + l.permits ≤ l.backlog := respected
  omega

/-- The stream of the first of two sessions is in the channel, the second holds a permit. -/
theorem backlog_respected_two : ∃ l session, listenerMachine.Reachable l ∧ l.permits = 1 ∧
    l.streams = [({ conv := 5, job := 0 }, clientAddr)] ∧
    l.streams.length + l.permits ≤ l.backlog ∧ l.convMap.get? 6 = some session ∧
    l.streams.length < l.backlog := by
  have run : (listenerMachine.exec (fun _ _ => true) sampleListener
      (twoSessionEvents ++ [.message (.connect { conv := 5, job := 0 }) 2])).map (fun l =>
        (l.permits, l.streams, (l.convMap.get? 6).map Session.streamPermit)) =
      some (1, [({ conv := 5, job := 0 }, clientAddr)], some true) := by decide +kernel
  obtain ⟨l, executed, view⟩ := Option.map_eq_some_iff.1 run
  simp only [Prod.mk.injEq, Option.map_eq_some_iff] at view
  obtain ⟨one, streams, session, known, permit⟩ := view
  have reach : listenerMachine.Reachable l :=
    Machine.reach_of_exec (fun _ _ _ => trivial) reachable_sampleListener executed
  obtain ⟨respected, room⟩ := backlog_respected reach
  exact ⟨l, session, reach, one, streams, respected, known, room 6 session known permit⟩

end KcpRs
