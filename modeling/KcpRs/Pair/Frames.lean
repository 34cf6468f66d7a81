import KcpRs.Stream.Handshake
import KcpRs.Stream.Closing
import KcpRs.Pair.Speech

/-!
# The frames that a task sends and shows

The first frame that a task gives to `Kcp::send` is its SYN frame and the last one may be its
FIN frame; those between are frames of its application, in the order in which it put them into
the input channel. What a task has shown its own application is what `kcp_recv` has returned
after the frame of the SYN handshake.
-/

namespace KcpRs

open Lib

namespace Task

variable {ambient : Ambient} {t t' : Task}

/-- What a move queues, and where the handshake is then. -/
inductive Queues (t t' : Task) (sent : Sent) : Prop where
  | syn (kind : sent.kind = .syn) (client : t.client) (first : t.trace = [])
      (frame : sent.frame = t.handshakeFrame) (state : t'.hs = t.hs)
  | reply (kind : sent.kind = .syn) (server : t.client = false) (early : t.hs = .syn)
      (state : t'.hs = .connected)
      (frame : ∃ id, id.length = t.cfg.sessionIdLen ∧ t'.sessionId = id ∧
      sent.frame = t.cfg.sessionKey ++ id)
  | data (kind : sent.kind = .data) (queued : t.inputRx.queue ≠ []) (opened : t.inputClosed = false)
      (state : t'.hs = t.hs)
  | fin (kind : sent.kind = .fin) (pending : t.hs = .finPending) (settled : t.kcp.getWaitsnd = 0)
      (frame : sent.frame = t.handshakeFrame) (state : t'.hs = .finSent)

theorem sends_of_trace {sent : Sent} (trace : t'.trace = t.trace ++ [.send sent]) :
    t'.sends = t.sends ++ [sent] := by
  rw [Task.sends, trace, List.filterMap_append]
  rfl

/-- A move queues at most one frame. -/
theorem Move.sends (move : Move ambient t t') :
    t'.sends = t.sends ∨ ∃ sent, t'.trace = t.trace ++ [.send sent] ∧ t.Queues t' sent := by
  cases move with
  | sendSyn client _ _ first _ =>
      exact .inr ⟨_, rfl, .syn rfl client first rfl rfl⟩
  | replySyn server early _ valid _ =>
      exact .inr ⟨_, rfl, .reply rfl server early rfl ⟨_, length_of_synSessionId valid, rfl, rfl⟩⟩
  | sendData queued opened _ _ _ =>
      exact .inr ⟨_, rfl, .data rfl (by simp [queued]) opened rfl⟩
  | sendFin _ pending _ settled _ _ =>
      exact .inr ⟨_, rfl, .fin rfl pending settled rfl rfl⟩
  | app event _ acted =>
      obtain ⟨_, _, _, rfl | ⟨_, rfl⟩⟩ := app_eq acted
      · exact .inl rfl
      · exact .inl (sends_of_aloof rfl (by simp [Obs.sent]))
  | recv _ taken =>
      obtain ⟨kcp, ⟨_, _, rfl⟩ | ⟨_, _, ⟨_, _, rfl⟩ | ⟨_, _, rfl⟩⟩⟩ := kcpRecv_cases taken
      · exact .inl rfl
      all_goals exact .inl (sends_of_aloof rfl (by simp [Obs.sent]))
  | feed => exact .inl (sends_of_aloof rfl (by simp [Obs.sent]))
  | finish =>
      obtain ⟨ticks, resets, only, equal⟩ := finish_eq t
      rw [equal]
      refine .inl (sends_of_aloof (List.append_assoc _ _ _) fun obs member => ?_)
      rcases List.mem_append.1 member with reset | last
      · obtain ⟨_, rfl⟩ := only obs reset
        rfl
      · rw [List.mem_singleton.1 last]
        rfl
  | refuse | announce | deliver | drained =>
      exact .inl (sends_of_aloof rfl (by simp [Obs.sent]))
  | _ => exact .inl rfl

/-! ## The order of the frames sent -/

/-- Before its SYN frame a task sends nothing, and it sends no second one. -/
inductive Opens (t : Task) : Prop where
  | silent (none : t.sends = []) (server : t.client = false) (unheld : t.hasStream = false)
      (early : t.Early)
  | opened (syn : Sent) (rest : List Sent) (sends : t.sends = syn :: rest)
      (kind : syn.kind = .syn)
      (length : syn.frame.length = t.cfg.sessionKey.length + t.cfg.sessionIdLen)
      (later : ∀ sent ∈ rest, sent.kind = .data ∨ sent.kind = .fin ∧
        sent.frame.length = t.cfg.sessionKey.length + t.cfg.sessionIdLen)
      (answered : t.client = false → t.hs ≠ .syn)

/-- A server that sends no reply does not become connected. -/
theorem Move.early (move : Move ambient t t') (server : t.client = false)
    (same : t'.sends = t.sends) (early : t.Early) : t'.Early := by
  cases move with
  | replySyn =>
      have longer := congrArg List.length same
      simp [Task.sends, log, sentRecord, Obs.sent] at longer
  | app event _ acted =>
      obtain ⟨_, _, _, rfl | ⟨_, rfl⟩⟩ := app_eq acted <;> exact early
  | recv _ taken =>
      obtain ⟨kcp, ⟨_, _, rfl⟩ | ⟨_, _, ⟨_, _, rfl⟩ | ⟨_, _, rfl⟩⟩⟩ := kcpRecv_cases taken <;>
        exact early
  | finish =>
      obtain ⟨_, _, _, equal⟩ := finish_eq t
      rw [equal]
      exact early
  | sendFin _ state | pend state _ | waitPeer state _ =>
      rcases early with earlier | finished
      · simp [state] at earlier
      · simp [state] at finished
  | connect client => simp [server] at client
  | reset | abort | done | expire => exact .inr rfl
  | _ => exact early

/-- Only a server in the SYN handshake sets its session id. -/
theorem Move.sessionId (move : Move ambient t t') :
    t'.sessionId = t.sessionId ∨ t.client = false ∧ t.hs = .syn := by
  cases move with
  | replySyn server early => exact .inr ⟨server, early⟩
  | app event _ acted =>
      obtain ⟨_, _, _, rfl | ⟨_, rfl⟩⟩ := app_eq acted <;> exact .inl rfl
  | recv _ taken => exact .inl (congrArg Aside.sessionId (kcpRecv_aside taken))
  | finish =>
      obtain ⟨_, _, _, equal⟩ := finish_eq t
      rw [equal]
      exact .inl rfl
  | _ => exact .inl rfl

/-- A client has a session id from the start, and a server once it has replied. -/
def Known (t : Task) : Prop :=
  t.client ∨ ¬ t.Early → t.sessionId.length = t.cfg.sessionIdLen

theorem Move.known (move : Move ambient t t') (known : t.Known) : t'.Known := by
  intro side
  rw [move.identity.1]
  rw [move.conv.1] at side
  by_cases early : t.client = false ∧ t.Early
  · obtain ⟨server, early⟩ := early
    have late := side.resolve_left (by simp [server])
    rcases move.sends with same | ⟨sent, _, queues⟩
    · exact absurd (move.early server same early) late
    · cases queues with
      | syn _ client _ _ _ => simp [server] at client
      | reply _ _ _ _ frame =>
          obtain ⟨id, length, same, _⟩ := frame
          rw [same, length]
      | data _ _ _ state =>
          rw [Early, state] at late
          exact absurd early late
      | fin _ pending _ _ _ => rcases early with state | state <;> simp [pending] at state
  · rcases move.sessionId with same | ⟨server, state⟩
    · rw [same]
      refine known ?_
      by_contra neither
      rw [not_or, not_not, Bool.not_eq_true] at neither
      exact early neither
    · exact absurd ⟨server, .inl state⟩ early

/-- The FIN frame is as long as the session key with a session id. -/
theorem Known.length_handshakeFrame (known : t.Known) (state : t.hs = .finPending) :
    t.handshakeFrame.length = t.cfg.sessionKey.length + t.cfg.sessionIdLen := by
  rw [handshakeFrame, List.length_append, known (.inr (by simp [Early, state]))]

theorem Move.opens (move : Move ambient t t') (unheld : t.Unheld) (known : t.Known)
    (opens : t.Opens) : t'.Opens := by
  have side := move.conv.1
  have cfg := move.identity.1
  have onwards (state : t.hs ≠ .syn) : t'.hs ≠ .syn := (move.identity.2 state).2
  rcases opens with ⟨none, server, unannounced, early⟩ | ⟨syn, rest, sends, kind, length, later, answered⟩
  · rcases move.sends with same | ⟨sent, trace, queues⟩
    · refine .silent (same.trans none) (side.trans server) ?_ (move.early server same early)
      rcases move.hasStream with kept | ⟨state, _⟩
      · exact kept.trans unannounced
      · rcases early with earlier | finished
        · simp [state] at earlier
        · simp [state] at finished
    · cases queues with
      | syn _ client _ _ _ => simp [server] at client
      | reply kind _ _ state frame =>
          obtain ⟨id, length, same, frame⟩ := frame
          refine .opened sent [] (by rw [sends_of_trace trace, none, List.nil_append]) kind ?_ (by simp)
            fun _ => ?_
          · rw [cfg, frame, List.length_append, length]
          · simp [state]
      | data _ queued _ _ => exact absurd (unheld unannounced).1 queued
      | fin _ pending _ _ _ =>
          rcases early with state | state <;> simp [pending] at state
  · have answered' (server : t'.client = false) : t'.hs ≠ .syn := onwards (answered (side ▸ server))
    rw [← cfg] at length later
    rcases move.sends with same | ⟨sent, trace, queues⟩
    · exact .opened syn rest (same.trans sends) kind length later answered'
    · have another : sent.kind = .data ∨ sent.kind = .fin ∧
          sent.frame.length = t'.cfg.sessionKey.length + t'.cfg.sessionIdLen := by
        cases queues with
        | syn _ _ first _ _ => simp [Task.sends, first] at sends
        | reply _ server early _ _ => exact absurd early (answered server)
        | data kind _ _ _ => exact .inl kind
        | fin kind pending _ frame _ =>
            rw [frame, cfg]
            exact .inr ⟨kind, known.length_handshakeFrame pending⟩
      refine .opened syn (rest ++ [sent]) (by rw [sends_of_trace trace, sends, List.cons_append]) kind
        length ?_ answered'
      rw [List.forall_mem_append, List.forall_mem_singleton]
      exact ⟨later, another⟩

theorem sends_handshakeSend {kind : FrameKind} (moved : t.handshakeSend kind = some t') :
    ∃ upto, t'.sends = t.sends ++ [⟨kind, t.handshakeFrame, t.kcp.getWaitsnd, upto⟩] := by
  obtain ⟨_, kcp, _, rfl⟩ := handshakeSend_eq moved
  refine ⟨kcp.cb.sndNxt + kcp.cb.nsndQue, ?_⟩
  rw [Task.sends, trace_kcpFlush, log, List.filterMap_append]
  rfl

/-- A client starts with its SYN frame and a server without one. -/
theorem start_opens {config : Config} {conv : U32} {id : Bytes} {clock : Nat → U32}
    (length : conv = Kcp.synConv → id.length = config.sessionIdLen)
    (started : start config conv id clock = some t) : t.Opens := by
  obtain ⟨fresh, isFresh, aside, _, state⟩ := start_aside started
  have client : t.client = fresh.client := congrArg Aside.client aside
  have unheld : t.hasStream = false := (congrArg Aside.announced aside).trans (isFresh.unannounced isFresh.hs)
  have cfg : t.cfg = config := (congrArg Aside.cfg aside).trans isFresh.cfg
  unfold start at started
  split at started
  · cases started
  · rename_i base configured
    obtain ⟨kcp, rfl⟩ := configure_eq configured
    dsimp only [getSystemTime] at started
    split at started
    · rename_i search
      obtain ⟨upto, sends⟩ := sends_handshakeSend started
      refine .opened _ [] sends rfl ?_ (by simp) fun server => ?_
      · rw [cfg, ← length search]
        exact List.length_append
      · rw [client, isFresh.client, decide_eq_false_iff_not] at server
        exact absurd search server
    · rename_i server
      cases started
      exact .silent rfl rfl unheld (.inl rfl)

/-- The frames that were sent before the FIN frame. -/
def spoken (t : Task) : List Bytes := (t.sends.filter fun sent => sent.kind ≠ .fin).map Sent.frame

/-- The FIN frame has been sent. -/
def finQueued (t : Task) : Prop := ∃ sent ∈ t.sends, sent.kind = .fin

/-- The frames of the application among all frames that were sent. -/
theorem sentData_eq (t : Task) :
    t.sentData = (t.sends.filter fun sent => sent.kind = .data).map Sent.frame := by
  have each (trace : List Obs) : trace.filterMap Obs.sentData =
      ((trace.filterMap Obs.sent).filter fun sent => sent.kind = .data).map Sent.frame := by
    induction trace with
    | nil => rfl
    | cons obs rest inductionHypothesis =>
        cases obs with
        | send sent =>
            by_cases data : sent.kind = .data <;>
              simp [Obs.sentData, Obs.sent, data, inductionHypothesis]
        | _ => exact inductionHypothesis
  exact each t.trace

/-- The frames sent before the FIN frame are the SYN frame and those of the application. -/
theorem Opens.spoken (opens : t.Opens) : t.spoken = [] ∧ t.sentData = [] ∨ ∃ syn,
    syn.length = t.cfg.sessionKey.length + t.cfg.sessionIdLen ∧ t.spoken = syn :: t.sentData := by
  rw [sentData_eq, Task.spoken]
  rcases opens with ⟨none, _⟩ | ⟨syn, rest, sends, kind, length, later, _⟩
  · simp [none]
  · refine .inr ⟨syn.frame, length, ?_⟩
    have same : (rest.filter fun sent => sent.kind ≠ .fin) =
        rest.filter fun sent => sent.kind = .data := by
      refine List.filter_congr fun sent member => ?_
      rcases later sent member with data | ⟨fin, _⟩
      · simp [data]
      · simp [fin]
    simp only [sends, List.filter_cons, kind, same]
    simp

/-! ## Accounting -/

/-- A task that has left its loop does not come back. -/
theorem Move.running (move : Move ambient t t') (running : t'.running) : t.running := by
  cases move with
  | goto _ inside _ => exact inside
  | app event _ acted =>
      obtain ⟨_, _, _, rfl | ⟨_, rfl⟩⟩ := app_eq acted <;> exact running
  | recv inside _ => exact inside
  | leave inside _ => exact inside
  | finish =>
      obtain ⟨_, _, _, equal⟩ := finish_eq t
      rw [equal] at running
      cases running
  | _ => exact running

/-- As long as `Kcp::send` has refused nothing, the frames consumed are those sent and, when
the loop has been left, those dropped. -/
def Tallied (t : Task) : Prop := (∀ frame, .tooBig frame ∉ t.trace) → ∃ dropped,
  t.trace.filterMap Obs.consumed = t.sentData ++ dropped ∧ (t.running → dropped = [])

/-- The consumed frame of an observation that is not a frame sent. -/
theorem Tallied.extend (tallied : t.Tallied) (running : t'.running → t.running) {extra : List Obs}
    (trace : t'.trace = t.trace ++ extra) (unsent : ∀ obs ∈ extra, obs.sentData = none)
    (kept : (t'.running ∧ ∀ frame, .tooBig frame ∉ t'.trace) →
      ∀ obs ∈ extra, obs.consumed = none) : t'.Tallied := by
  intro taken
  obtain ⟨dropped, equal, none⟩ := tallied fun frame member =>
    taken frame (trace ▸ List.mem_append_left _ member)
  have same : t'.sentData = t.sentData := by
    rw [sentData, trace, List.filterMap_append, List.filterMap_eq_nil_iff.2 unsent, List.append_nil,
      sentData]
  refine ⟨dropped ++ extra.filterMap Obs.consumed, ?_, fun inside => ?_⟩
  · rw [trace, List.filterMap_append, equal, same, List.append_assoc]
  · rw [none (running inside), List.filterMap_eq_nil_iff.2 (kept ⟨inside, taken⟩), List.nil_append]

theorem Move.tallied (move : Move ambient t t') (tallied : t.Tallied) : t'.Tallied := by
  have running := move.running
  have quiet {u : Task} {extra : List Obs} (inside : u.running → t.running)
      (trace : u.trace = t.trace ++ extra)
      (plain : ∀ obs ∈ extra, obs.sentData = none ∧ obs.consumed = none) : u.Tallied :=
    tallied.extend inside trace (fun obs member => (plain obs member).1)
      fun _ obs member => (plain obs member).2
  cases move with
  | sendData queued opened inside sent room =>
      intro taken
      obtain ⟨dropped, equal, none⟩ := tallied fun frame member =>
        taken frame (List.mem_append_left _ member)
      rw [none inside, List.append_nil] at equal
      refine ⟨[], ?_, fun _ => rfl⟩
      simp [log, sentRecord, sentData, Obs.consumed, Obs.sentData, equal]
  | refuse =>
      refine fun taken => absurd (List.mem_append_right _ (List.mem_singleton.2 rfl)) (taken _)
  | drained left queued =>
      refine tallied.extend running rfl (by simp [Obs.sentData]) fun inside => ?_
      simp [Task.running, log, left] at inside
  | sendSyn | replySyn | sendFin =>
      exact quiet running rfl (by simp [sentRecord, Obs.sentData, Obs.consumed])
  | app event _ acted =>
      obtain ⟨_, _, _, rfl | ⟨_, rfl⟩⟩ := app_eq acted
      · exact tallied
      · exact quiet running rfl (by simp [Obs.sentData, Obs.consumed])
  | recv _ taken =>
      obtain ⟨kcp, ⟨_, _, rfl⟩ | ⟨_, _, ⟨_, _, rfl⟩ | ⟨_, _, rfl⟩⟩⟩ := kcpRecv_cases taken
      · exact tallied
      all_goals exact quiet running rfl (by simp [Obs.sentData, Obs.consumed])
  | feed => exact quiet running rfl (by simp [Obs.sentData, Obs.consumed])
  | announce | deliver => exact quiet running rfl (by simp [Obs.sentData, Obs.consumed])
  | goto _ inside _ => exact quiet (fun _ => inside) (List.append_nil _).symm (by simp)
  | leave inside _ => exact quiet (fun _ => inside) (List.append_nil _).symm (by simp)
  | finish left =>
      obtain ⟨ticks, resets, only, equal⟩ := finish_eq t
      rw [equal] at running ⊢
      refine quiet running (List.append_assoc _ _ _) fun obs member => ?_
      rcases List.mem_append.1 member with reset | last
      · obtain ⟨_, rfl⟩ := only obs reset
        exact ⟨rfl, rfl⟩
      · rw [List.mem_singleton.1 last]
        exact ⟨rfl, rfl⟩
  | _ => exact tallied

/-- What was sent is what the application offered first. -/
theorem Tallied.sentData_prefix (tallied : t.Tallied) (accounted : t.Accounted)
    (taken : ∀ frame, .tooBig frame ∉ t.trace) : t.sentData <+: t.offered := by
  obtain ⟨dropped, equal, _⟩ := tallied taken
  rw [Accounted, equal, List.append_assoc] at accounted
  exact ⟨_, accounted.symm⟩

/-! ## The frames shown -/

theorem shown_finish (t : Task) : t.finish.shown = t.shown := by
  obtain ⟨ticks, resets, only, equal⟩ := finish_eq t
  have silent : resets.filterMap Obs.shown = [] := by
    refine List.filterMap_eq_nil_iff.2 fun obs member => ?_
    obtain ⟨now, rfl⟩ := only obs member
    rfl
  rw [equal]
  simp [shown, silent, Obs.shown]

/-- Frames are shown in the permit branch only. -/
theorem step_shown {event : Event} (stepped : t.step event = some t') :
    t'.shown = t.shown ∨ t'.pc = .permitLoop := by
  cases transition_of_step stepped with
  | app acted =>
      obtain ⟨inputRx, token, outputOpen, rfl | ⟨frame, rfl⟩⟩ := app_eq acted
      · exact .inl rfl
      · exact .inl (congrArg Front.shown (front_log rfl))
  | fed | broken =>
      exact .inl (congrArg Front.shown
        (front_feed { t with kcp := { t.kcp with outputQueue := [] }, pc := .check } _))
  | frame _ _ _ sent => exact .inl (congrArg Aside.shown (receiver_processInput sent).2)
  | inputClosed _ transit =>
      have same := congrArg Kept.aside ((kept_kcpFlush _).trans (kept_finTransitLoop transit))
      exact .inl (congrArg Aside.shown same)
  | inputFlush | held => exact .inl (congrArg Aside.shown (congrArg Kept.aside (kept_kcpFlush t)))
  | permit => exact .inr rfl
  | more pc taken => exact .inr ((congrArg Aside.pc (kcpRecv_aside taken)).trans pc)
  | stash _ taken | emptied _ taken =>
      exact .inl ((congrArg Aside.shown (kcpRecv_aside taken)).trans rfl)
  | packet _ taken => exact .inl (congrArg Aside.shown (kcpInput_aside taken))
  | batchDone _ ended => exact .inl ended.shows.1
  | @fetched frame later _ _ taken =>
      have same := congrArg Kept.aside (kept_kcpFlush { later with txFrame := frame })
      have shown : later.shown = t.shown := congrArg Aside.shown (kcpRecv_aside taken)
      exact .inl (Eq.trans (congrArg Aside.shown same) shown)
  | thrown => exact .inl (congrArg Front.shown (front_log rfl))
  | finish => exact .inl (shown_finish t)
  | _ => exact .inl rfl

/-- What has been shown comes after the frame of the SYN handshake. -/
def Handed (t : Task) : Prop := t.shown = [] ∨ ∃ syn,
  syn.length = t.cfg.sessionKey.length + t.cfg.sessionIdLen ∧ syn :: t.shown <+: t.received

/-- Every step keeps what has been shown in the order in which it was read. -/
theorem step_handed {event : Event} (placed : t.Placed) (counted : t.kcp.cb.Counted)
    (handing : t.Handing) (known : t'.Known) (stepped : t.step event = some t')
    (handed : t.Handed) : t'.Handed := by
  have moves := step_moves placed stepped
  rcases step_shown stepped with same | loop
  · rw [Handed, same]
    refine handed.imp_right fun ⟨syn, length, shown⟩ => ⟨syn, ?_, ?_⟩
    · have cfg : t'.cfg = t.cfg :=
        @Moves.invariant _ (fun u => u.cfg = t.cfg) _ _ moves
          (fun _ _ move cfg => move.identity.1.trans cfg) rfl
      rw [cfg, length]
    · exact shown.trans ((trace_prefix_of_moves moves).filterMap Obs.popped)
  · have handing' := step_handing placed counted handing stepped
    have going := handing'.going (by simp [selected, loop])
    have ordered := handing'.ordered (by simp [running, loop]) going
    have later := (handing'.looping loop).1
    refine .inr ⟨t'.handshakeFrame, ?_, ?_⟩
    · rw [handshakeFrame, List.length_append, known (.inr ?_)]
      rintro (early | finished)
      · exact later early
      · exact going finished
    · rw [ordered.ledger, synFrame, if_neg later, (handing'.looping loop).2]
      simp

end Task
end KcpRs
