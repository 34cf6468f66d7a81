import KcpRs.Stream.Engine

/-!
# Enabled FIN transitions

A task is settled when `fin_transit_state` has nothing to do. The loop runs it after
the events that it expects to enable a transition; `steady_step` goes through all
events and finds one that it misses: `kcp_recv` may take the last message of a task
that waits for its peer in `FinWaitPeer`, and `is_fin_handshake` does not cover that
state. Apart from this every task at the head of the loop is settled.
-/

namespace KcpRs

open Lib

namespace Task

variable {t t' : Task}

/-- No transition of the FIN handshake is enabled. -/
structure Settled (t : Task) : Prop where
  pending : t.hs = .finPending → t.inputClosed = false ∨ 0 < t.kcp.getWaitsnd
  sent : t.hs = .finSent → 0 < t.kcp.getWaitsnd
  waiting : t.hs = .finWaitPeer → t.finRecved = false ∨ 0 < t.kcp.cb.nrcvQue + t.kcp.cb.nrcvBuf

/-- In the states of the FIN handshake a settled task is a fixed point of
`fin_transit_state`. -/
theorem Settled.finTransitState (settled : t.Settled)
    (state : t.hs = .finPending ∨ t.hs = .finSent ∨ t.hs = .finWaitPeer) :
    t.finTransitState = some t := by
  unfold Task.finTransitState finTransitLoop
  rcases state with state | state | state
  · have blocked := settled.pending state
    simp only [state]
    rw [if_pos blocked]
  · have blocked := settled.sent state
    simp only [state]
    rw [if_pos blocked]
  · have blocked := settled.waiting state
    simp only [state]
    rw [if_pos blocked]

/-- With a turn for every state above the present one, `fin_transit_state` settles. -/
theorem settled_finTransitLoop {fuel : Nat} (enough : 6 ≤ fuel + t.hs.rank)
    (moved : finTransitLoop fuel t = some t') : t'.Settled := by
  induction fuel generalizing t with
  | zero =>
      exfalso
      cases state : t.hs <;> simp [state, Handshake.rank] at enough
  | succ fuel inductionHypothesis =>
      unfold finTransitLoop at moved
      dsimp only at moved
      split at moved
      · rename_i state
        simp only [state, Handshake.rank] at enough
        exact inductionHypothesis (by simp only [Handshake.rank]; omega) moved
      · rename_i state
        simp only [state, Handshake.rank] at enough
        exact inductionHypothesis (by simp only [Handshake.rank]; omega) moved
      · rename_i state
        simp only [state, Handshake.rank] at enough
        split at moved
        · rename_i blocked
          cases moved
          exact ⟨fun _ => blocked, fun other => by simp [state] at other,
            fun other => by simp [state] at other⟩
        · split at moved
          · exact inductionHypothesis (by simp only [Handshake.rank]; omega) moved
          · cases moved
      · rename_i state
        simp only [state, Handshake.rank] at enough
        split at moved
        · rename_i blocked
          cases moved
          exact ⟨fun other => by simp [state] at other, fun _ => blocked,
            fun other => by simp [state] at other⟩
        · exact inductionHypothesis (by simp only [Handshake.rank]; omega) moved
      · rename_i state
        simp only [state, Handshake.rank] at enough
        split at moved
        · rename_i blocked
          cases moved
          exact ⟨fun other => by simp [state] at other, fun other => by simp [state] at other,
            fun _ => blocked⟩
        · exact inductionHypothesis (by simp only [Handshake.rank]; omega) moved
      · rename_i state
        cases moved
        exact ⟨fun other => by simp [state] at other, fun other => by simp [state] at other,
          fun other => by simp [state] at other⟩

/-- The FIN handshake goes on as far as it can. -/
theorem settled_finTransitState (moved : t.finTransitState = some t') : t'.Settled :=
  settled_finTransitLoop (by omega) moved

/-- A task outside the FIN handshake is settled. -/
theorem Settled.outside (pending : t.hs ≠ .finPending) (sent : t.hs ≠ .finSent)
    (waiting : t.hs ≠ .finWaitPeer) : t.Settled :=
  ⟨fun state => absurd state pending, fun state => absurd state sent,
    fun state => absurd state waiting⟩

/-- What the transitions look at, apart from the state. -/
theorem Settled.of_le (settled : t.Settled) (state : t'.hs = t.hs)
    (closed : t'.inputClosed = t.inputClosed) (recved : t'.finRecved = t.finRecved)
    (wait : t.kcp.getWaitsnd ≤ t'.kcp.getWaitsnd)
    (held : t.kcp.cb.nrcvQue + t.kcp.cb.nrcvBuf ≤ t'.kcp.cb.nrcvQue + t'.kcp.cb.nrcvBuf) :
    t'.Settled where
  pending at_ := by
    rw [closed]
    exact (settled.pending (state ▸ at_)).imp_right fun positive => positive.trans_le wait
  sent at_ := (settled.sent (state ▸ at_)).trans_le wait
  waiting at_ := by
    rw [recved]
    exact (settled.waiting (state ▸ at_)).imp_right fun positive => positive.trans_le held

theorem getWaitsnd_kcpFlush (counted : t.kcp.cb.Counted) :
    t.kcpFlush.kcp.getWaitsnd = t.kcp.getWaitsnd := by
  unfold kcpFlush
  split
  · have flushed := (counted.ikcpUpdate (t.clock t.ticks)).ikcpFlush
    simp only [Kcp.getWaitsnd, getSystemTime, Kcp.flush, Kcp.update, Kcp.emit, flushed.waitsnd,
      counted.waitsnd, pending_ikcpFlush, pending_ikcpUpdate]
  · rfl

/-- A flush does not change what the FIN handshake waits for. -/
theorem settled_kcpFlush (counted : t.kcp.cb.Counted) (settled : t.Settled) :
    t.kcpFlush.Settled := by
  have same := kept_kcpFlush t
  have receiver := congrArg Kept.receiver same
  simp only [kept, Ikcpcb.receiver, Ikcpcb.Receiver.mk.injEq] at receiver
  exact settled.of_le (hs_kcpFlush t) (inputClosed_of_kept same)
    (congrArg Kept.finRecved same) (getWaitsnd_kcpFlush counted).ge
    (by rw [receiver.2.1, receiver.2.2.2.1])

/-! ## The events of the loop -/

/-- The next message is complete and the last thing that the receive side holds. -/
def lastMessage (t : Task) : Bool :=
  0 < ikcpPeeksize t.kcp.cb && (takeMessage t.kcp.cb.rcvQueue).2 = [] && t.kcp.cb.rcvBuf = []

/-- Reading a frame that is not the last one of the peer. -/
theorem kcpRecv_settled {frame : Option Bytes} (counted : t.kcp.cb.Counted)
    (more : ¬ (t.hs = .finWaitPeer ∧ t.finRecved ∧ t.lastMessage))
    (taken : t.kcpRecv = some (frame, t')) (settled : t.Settled) : t'.Settled := by
  have received {kcp : Kcp} {got : Option Bytes} (got_ : t.kcp.recvBytes = some (got, kcp)) :
      ({ t with kcp } : Task).Settled := by
    obtain ⟨_, rfl⟩ | ⟨_, positive, _, rfl⟩ := Kcp.recvBytes_eq got_
    · exact settled
    · obtain ⟨probe, equal⟩ := recvMoved_eq t.kcp.cb false
      have wait : ikcpWaitsnd (recvMoved t.kcp.cb false) = ikcpWaitsnd t.kcp.cb := by
        rw [equal]
        rfl
      refine ⟨fun state => ?_, fun state => ?_, fun state => ?_⟩
      · exact (settled.pending state).imp_right fun positive => positive.trans_eq wait.symm
      · exact (settled.sent state).trans_eq wait.symm
      · rw [(counted.recvMoved false).held, held_recvMoved]
        by_cases recved : t.finRecved
        · right
          by_contra empty
          have rest : (takeMessage t.kcp.cb.rcvQueue).2 = [] :=
            List.eq_nil_of_length_eq_zero (by omega)
          have buffer : t.kcp.cb.rcvBuf = [] := List.eq_nil_of_length_eq_zero (by omega)
          exact more ⟨state, recved, by simp [lastMessage, positive, rest, buffer]⟩
        · exact .inl (by simpa using recved)
  obtain ⟨kcp, ⟨got, _, rfl⟩ | ⟨_, got, ⟨_, _, rfl⟩ | ⟨_, _, rfl⟩⟩⟩ := kcpRecv_cases taken
  · exact received got
  · exact ⟨(received got).pending, (received got).sent, (received got).waiting⟩
  · exact ⟨(received got).pending, (received got).sent, (received got).waiting⟩

/-- A frame of the application is one more to wait for. -/
theorem processInput_settled {frame : Bytes} (moved : t.processInput frame = some t')
    (settled : t.Settled) : t'.Settled := by
  have sent {kcp : Kcp} {result : Except ErrorKind Nat}
      (sent : t.kcp.send frame = some (result, kcp)) : t.kcp.getWaitsnd ≤ kcp.getWaitsnd ∧
        t.kcp.cb.nrcvQue + t.kcp.cb.nrcvBuf ≤ kcp.cb.nrcvQue + kcp.cb.nrcvBuf := by
    obtain ⟨_, rfl⟩ | ⟨_, _, rfl⟩ := Kcp.send_eq sent
    · exact ⟨le_refl _, le_refl _⟩
    · refine ⟨ikcpWaitsnd_le_ikcpSend _ _ _, ?_⟩
      obtain ⟨queue, count, equal⟩ := ikcpSend_queue t.kcp.cb frame
        (BitVec.ofNat 32 frame.length).toInt
      rw [equal]
  unfold processInput at moved
  split at moved
  · cases moved
  · rename_i size kcp accepted
    cases moved
    exact settled.of_le rfl rfl rfl (sent accepted).1 (sent accepted).2
  · rename_i error kcp refused
    cases moved
    exact settled.of_le rfl rfl rfl (sent refused).1 (sent refused).2

/-- A task in `FinWaitPeer` waits for a FIN packet or holds something received. -/
def Waits (t : Task) : Prop :=
  t.hs = .finWaitPeer → t.finRecved = false ∨ 0 < t.kcp.cb.nrcvQue + t.kcp.cb.nrcvBuf

/-- A packet takes nothing out of the receive queue. -/
theorem waits_input {packet : Bytes} {result : Except ErrorKind Unit} {kcp kcp' : Kcp}
    (counted : kcp.cb.Counted) (taken : kcp.input packet = some (result, kcp')) :
    kcp.cb.nrcvQue + kcp.cb.nrcvBuf ≤ kcp'.cb.nrcvQue + kcp'.cb.nrcvBuf := by
  obtain ⟨_, rfl⟩ := Kcp.input_eq taken
  rw [counted.held, (counted.ikcpInput packet).held]
  exact held_ikcpInput kcp.cb packet

theorem waits_kcpInput {packet : Bytes} (counted : t.kcp.cb.Counted) (waits : t.Waits)
    (moved : t.kcpInput packet = some t') : t'.Waits := by
  obtain ⟨_, kcp, taken, outcome⟩ := kcpInput_cases moved
  have counted' : kcp.cb.Counted := engineStable_counted.kcpInput taken counted
  have waits' : { t with kcp }.Waits := fun state => (waits state).imp_right fun positive =>
    positive.trans_le (waits_input counted taken)
  obtain ⟨_, rfl⟩ | ⟨_, _, stray⟩ | ⟨_, cmd, _, flags⟩ := outcome
  · exact waits'
  · obtain rfl | ⟨conv, back, result, kcp', _, again, rfl, _⟩ := synHandshakeInput_cases stray
    · exact waits'
    · have counted'' : (kcp.setConv conv).cb.Counted := engineStable_counted.conv _ conv counted'
      have grown := waits_input counted'' again
      exact fun state => (waits' state).imp_right fun positive => positive.trans_le grown
  · obtain ⟨_, rfl⟩ | ⟨_, _, noticed⟩ | ⟨_, _, rfl⟩ := flags
    · exact fun state => by simp at state
    · obtain ⟨later, _, _, transit, again, rfl⟩ := finInput_eq noticed
      have settled := settled_finTransitState transit
      have counted'' : later.kcp.cb.Counted := by
        refine engineStable_counted.finTransitLoop transit ?_
        rwa [kcp_noticeFin]
      exact fun state => (settled.waiting state).imp_right fun positive =>
        positive.trans_le (waits_input counted'' again)
    · exact waits'

/-- The part of `run` outside a batch of packets. -/
def resting (t : Task) : Bool :=
  match t.pc with
  | .head | .check | .select | .inputMore | .inputDone _ | .permitLoop | .fetch => true
  | _ => false

/-- Outside a batch the task is settled, and inside it `FinWaitPeer` is. -/
structure Steady (t : Task) : Prop where
  waits : t.Waits
  settled : t.resting → t.Settled

/-- The event makes the task call `kcp_recv` outside the SYN handshake. -/
def calling (t : Task) (event : Event) : Bool :=
  match t.pc, event with
  | .permitLoop, .tryReserve _ => true
  | .fetch, .tau => t.txFrame = none
  | _, _ => false

/-- `kcp_recv` is about to take the last message of a task whose peer has finished,
in `FinWaitPeer`. -/
def emptiesWaiting (t : Task) (event : Event) : Bool :=
  t.hs = .finWaitPeer && t.finRecved && t.lastMessage && t.calling event

theorem Settled.steady (settled : t.Settled) : t.Steady := ⟨settled.waiting, fun _ => settled⟩

theorem Steady.outside (waits : t.Waits) (elsewhere : t.resting = false) : t.Steady :=
  ⟨waits, fun inside => by simp [elsewhere] at inside⟩

/-- Settledness does not depend on control, channels or records. -/
theorem Settled.congr (settled : t.Settled) (kcp : t'.kcp = t.kcp) (hs : t'.hs = t.hs)
    (closed : t'.inputClosed = t.inputClosed) (recved : t'.finRecved = t.finRecved) :
    t'.Settled :=
  settled.of_le hs closed recved (by rw [kcp]) (by rw [kcp])

/-- An immediate update leaves what waits in both directions alone. -/
theorem Settled.update (settled : t.Settled) (counted : t.kcp.cb.Counted) (current : U32)
    (ticks : Nat) : { t with ticks, kcp := t.kcp.update current, pc := .head }.Settled := by
  have updated := counted.ikcpUpdate current
  refine settled.of_le rfl rfl rfl ?_ ?_
  · simp only [Kcp.getWaitsnd, Kcp.update, Kcp.emit, updated.waitsnd, counted.waitsnd,
      pending_ikcpUpdate]
    exact le_refl _
  · have receiver := receiver_ikcpUpdate t.kcp.cb current
    simp only [Ikcpcb.receiver, Ikcpcb.Receiver.mk.injEq] at receiver
    simp only [Kcp.update, Kcp.emit]
    rw [receiver.2.1, receiver.2.2.2.1]

/-- The end of a batch of packets. -/
theorem BatchEnd.steady (ended : t.BatchEnd t') (waits : t.Waits) : t'.Steady := by
  cases ended with
  | greeted early received =>
      obtain ⟨_, state | state⟩ := synHandshakeRecv_pc early received <;>
        exact (Settled.outside (by simp [state]) (by simp [state]) (by simp [state])).steady
  | refused => exact (Settled.outside (by simp) (by simp) (by simp)).steady
  | closing _ _ transit =>
      exact Settled.steady ((settled_finTransitState transit).congr rfl rfl rfl rfl)
  | passed _ going =>
      simp only [isFinHandshake, Bool.or_eq_false_iff, decide_eq_false_iff_not] at going
      exact Settled.steady ⟨fun state => absurd state going.1, fun state => absurd state going.2, waits⟩
  | panic => exact .outside waits rfl

/-- Every step keeps the invariant, except a `kcp_recv` that empties the receive side
in `FinWaitPeer`. -/
theorem steady_step {event : Event} (counted : t.kcp.cb.Counted)
    (allowed : t.emptiesWaiting event = false) (steady : t.Steady) (stepped : t.step event = some t') :
    t'.Steady := by
  have rest {pc : Pc} (at_ : t.pc = pc) (inside : ({ t with pc } : Task).resting) : t.Settled :=
    steady.settled (by subst at_; exact inside)
  have more (calling : t.calling event) :
      ¬ (t.hs = .finWaitPeer ∧ t.finRecved ∧ t.lastMessage) := by
    rintro ⟨state, recved, last⟩
    simp [emptiesWaiting, state, recved, last, calling] at allowed
  have input (takes : t.TakesInput event) : t.Settled := by
    obtain ⟨_, pc, _⟩ | ⟨_, pc⟩ := takes <;> exact rest pc rfl
  have recv {frame : Option Bytes} {later : Task} (calling : t.calling event) (settled : t.Settled)
      (taken : t.kcpRecv = some (frame, later)) : later.Settled :=
    kcpRecv_settled counted (more calling) taken settled
  cases transition_of_step stepped with
  | app acted =>
      have same := steady.waits
      obtain ⟨_, _, _, rfl | ⟨_, rfl⟩⟩ := app_eq acted <;>
        exact ⟨same, fun inside => (steady.settled inside).congr rfl rfl rfl rfl⟩
  | fed pc | broken pc =>
      exact Settled.steady ((rest pc rfl).of_le rfl rfl rfl (le_refl _) (le_refl _))
  | timeout => exact (Settled.outside (by simp) (by simp) (by simp)).steady
  | update pc => exact ((rest pc rfl).update counted _ _).steady
  | @frame _ _ rest later takes _ _ sent =>
      have popped : Task.Settled { t with inputRx := { t.inputRx with queue := rest } } :=
        (input takes).congr rfl rfl rfl rfl
      exact Settled.steady ((processInput_settled sent popped).congr rfl rfl rfl rfl)
  | inputEnd takes => exact Settled.steady ((input takes).congr rfl rfl rfl rfl)
  | inputClosed pc transit =>
      have counted' := engineStable_counted.finTransitLoop transit counted
      have flushed := settled_kcpFlush counted' (settled_finTransitState transit)
      exact Settled.steady (flushed.congr rfl rfl rfl rfl)
  | inputFlush pc | held pc =>
      exact Settled.steady ((settled_kcpFlush counted (rest pc rfl)).congr rfl rfl rfl rfl)
  | more pc taken | stash pc taken | emptied pc taken =>
      have settled := recv (by simp [calling, pc]) (rest pc rfl) taken
      exact Settled.steady (settled.congr rfl rfl rfl rfl)
  | packet _ taken =>
      have waits := waits_kcpInput counted steady.waits taken
      exact .outside (by exact waits) rfl
  | batchDone _ ended => exact ended.steady steady.waits
  | @fetched frame later pc unstashed taken =>
      have settled := recv (by simp [calling, pc, unstashed]) (rest pc rfl) taken
      have counted' := engineStable_counted.kcpRecv taken counted
      have stashed : Task.Settled { later with txFrame := frame } := settled.congr rfl rfl rfl rfl
      exact Settled.steady
        ((settled_kcpFlush (t := { later with txFrame := frame }) counted' stashed).congr rfl rfl rfl rfl)
  | lapse pc | wait pc | permit pc | unread pc | transportEnd pc | sleep pc | cancelled pc =>
      exact Settled.steady ((rest pc rfl).congr rfl rfl rfl rfl)
  | noPacket | panic => exact .outside steady.waits rfl
  | thrown pc => exact .outside steady.waits (by simp [resting, log, pc])
  | finish =>
      obtain ⟨_, _, _, equal⟩ := finish_eq t
      rw [equal]
      exact .outside steady.waits rfl

/-- A task starts in the SYN handshake. -/
theorem start_hs {config : Config} {conv : U32} {id : Bytes} {clock : Nat → U32}
    (started : start config conv id clock = some t) : t.hs = .syn := by
  unfold start at started
  split at started
  · cases started
  · dsimp only at started
    split at started
    · exact hs_handshakeSend started
    · cases started
      rfl

end Task

/-- In every run in which no `kcp_recv` empties the receive side of a task in
`FinWaitPeer`, the task is steady. -/
theorem reach_steady {config : Config} {t : Task}
    (reach : (taskMachine config).Reach (fun t event => t.emptiesWaiting event = false) t) :
    t.Steady := by
  refine reach.invariant Task.Steady (fun t initial => ?_)
    (fun t event next prior steady allowed stepped =>
      Task.steady_step (reach_counted prior) allowed steady stepped)
  have state : t.hs = .syn := by
    obtain ⟨_, _, _, started⟩ | ⟨_, _, _, started⟩ := initial <;> exact Task.start_hs started
  exact (Task.Settled.outside (by simp [state]) (by simp [state]) (by simp [state])).steady

/-- Then at the head of the loop `fin_transit_state` would leave the state alone. -/
theorem finTransitState_at_head {config : Config} {t : Task}
    (reach : (taskMachine config).Reach (fun t event => t.emptiesWaiting event = false) t)
    (head : t.pc = .head)
    (state : t.hs = .finPending ∨ t.hs = .finSent ∨ t.hs = .finWaitPeer) :
    ∃ t', t.finTransitState = some t' ∧ t'.hs = t.hs := by
  have settled := (reach_steady reach).settled (by simp [Task.resting, head])
  exact ⟨t, settled.finTransitState state, rfl⟩

/-- The client connects, its application closes the sender, and the FIN frame is on
its way. -/
def closingEvents : List Event :=
  [.drain .sent, .tau, .packet (encodePacket [pushSeg 1 0 1 [7]]), .noPacket, .tau, .tau,
    .drain .sent, .tau, .app .closeSender, .recvInput, .tau]

/-- Then the FIN packet of the peer arrives and acknowledges that frame. -/
def crossingEvents : List Event :=
  closingEvents ++ [.drain .sent, .tau,
    .packet (Task.stamp .finSent (encodePacket [pushSeg 1 1 2 [7]])), .noPacket, .tau, .tau]

theorem finTransitState_at_head_closing : ∃ t,
    (taskMachine sampleConfig).Reach (fun t event => t.emptiesWaiting event = false) t ∧
      t.pc = .head ∧ t.hs = .finSent ∧ ∃ t', t.finTransitState = some t' ∧ t'.hs = t.hs := by
  have run : (clientRun sampleConfig [7] (fun _ => 0) (fun t event => !t.emptiesWaiting event)
      closingEvents).map (fun t => (t.pc, t.hs)) = some (.head, .finSent) := by decide +kernel
  obtain ⟨t, executed, view⟩ := Option.map_eq_some_iff.1 run
  have reach : (taskMachine sampleConfig).Reach
      (fun t event => t.emptiesWaiting event = false) t :=
    reach_of_clientRun (fun _ _ permitted => by simpa using permitted) rfl executed
  obtain ⟨head, state⟩ := Prod.mk.inj view
  exact ⟨t, reach, head, state, finTransitState_at_head reach head (.inr (.inl state))⟩

/-- The FIN frames of both sides cross: the client is left in `FinWaitPeer` with nothing
to wait for. -/
theorem finTransitState_missed : ∃ t, (taskMachine sampleConfig).Reachable t ∧ t.pc = .head ∧
    t.hs = .finWaitPeer ∧ t.finRecved ∧ t.kcp.cb.nrcvQue + t.kcp.cb.nrcvBuf = 0 ∧
      ∃ t', t.finTransitState = some t' ∧ t'.hs = .disconnected := by
  have run : (clientRun sampleConfig [7] (fun _ => 0) (fun _ _ => true) crossingEvents).map
      (fun t => (t.pc, t.hs, t.finRecved, t.kcp.cb.nrcvQue + t.kcp.cb.nrcvBuf,
        t.finTransitState.map Task.hs)) =
      some (.head, .finWaitPeer, true, 0, some .disconnected) := by decide +kernel
  obtain ⟨t, executed, view⟩ := Option.map_eq_some_iff.1 run
  simp only [Prod.mk.injEq, Option.map_eq_some_iff] at view
  exact ⟨t, reach_of_clientRun (fun _ _ _ => trivial) rfl executed, view⟩

end KcpRs
