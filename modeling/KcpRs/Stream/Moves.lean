import KcpRs.Stream.Run
import Mathlib.Logic.Relation

/-!
# What a step of the stream task can do

`Move` lists the elementary changes that the methods of `Task` make, each with the
guard under which the source makes it. Every step of `run` is a sequence of moves
(`step_moves`), so an invariant that does not mention the program counter is proved by
one case per move, and a change to one method touches one lemma of this module.

Two rearrangements are made, both of statements that do not read each other's
results: the state becomes `FinSent` with the FIN frame rather than after its flush,
and `Connected` with the SYN reply rather than after its flush.
-/

namespace KcpRs

open Lib Relation

/-- The place of a state in the order that `Handshake` derives. -/
def Handshake.rank : Handshake → Nat
  | .syn => 0
  | .connected => 1
  | .finPending => 2
  | .finSent => 3
  | .finWaitPeer => 4
  | .disconnected => 5

theorem Handshake.rank_eq_zero {hs : Handshake} : hs.rank = 0 ↔ hs = .syn := by
  cases hs <;> decide

theorem Handshake.rank_le (hs : Handshake) : hs.rank ≤ 5 := by
  cases hs <;> decide

theorem Handshake.le_rank {hs : Handshake} : 5 ≤ hs.rank ↔ hs = .disconnected := by
  cases hs <;> decide

/-- The packet that an event delivers. -/
def Event.Delivers (event : Event) (packet : Bytes) : Prop := event = .packet packet

/-- The outcomes of `kcp_output` with which `run` gives up its loop. -/
def SinkOutcome.ends : SinkOutcome → Bool
  | .sent => false
  | .feedError _ flushed => !flushed
  | .flushError => true
  | .cancelled _ => true

/-- The frame that `kcp_recv` returned. -/
def Obs.popped : Obs → Option Bytes
  | .recv frame => some frame
  | _ => none

/-- The frame that was sent to the output channel. -/
def Obs.shown : Obs → Option Bytes
  | .output (.frame frame) => some frame
  | _ => none

/-- An observation that neither returns a frame of the peer nor reaches the application. -/
def Obs.silent (obs : Obs) : Bool :=
  obs.popped.isNone && obs.shown.isNone && !obs.connects

/-- What a step meets outside the task: the packets that may be delivered, the frames that
the application may send, and whether the loop is given up for a reason other than the
state `Disconnected`. -/
structure Ambient where
  Delivered : Bytes → Prop
  Offered : Bytes → Prop
  Quits : Prop

/-- No packet is delivered and the loop is not given up. -/
def Ambient.idle : Ambient where
  Delivered _ := False
  Offered _ := False
  Quits := False

namespace Task

/-- The task is inside the loop of `run`. -/
def running (t : Task) : Bool :=
  match t.pc with
  | .draining | .exited | .panicked => false
  | _ => true

/-- The state of the task makes `run` give up its loop at the checks: a dead link, or
the end of a session or of a handshake by time. -/
def lapsed (t : Task) : Bool :=
  t.kcp.isDeadLink || t.expireMillis ≤ t.kcp.durationSince t.lastIoTime ||
    t.hs ≠ .connected && (t.hsEndTime - t.clock t.ticks).toInt ≤ 0

/-- A step with which `run` gives up its loop although no handshake has ended it. -/
def quits (t : Task) (event : Event) : Bool :=
  match event, t.pc with
  | .drain outcome, .head => outcome.ends
  | .tau, .check => t.hs ≠ .disconnected && t.lapsed
  | .reserve ok, .select => !ok
  | .transportEnd, .select => true
  | .cancelled, .select => true
  | _, _ => false

/-- What a step meets when `event` happens. -/
def ambient (t : Task) (event : Event) : Ambient where
  Delivered := event.Delivers
  Offered frame := event = .app (.startSend frame)
  Quits := t.quits event

/-- The frames that `kcp_recv` has returned. -/
def received (t : Task) : List Bytes := t.trace.filterMap Obs.popped

/-- The frames that have been sent to the output channel. -/
def shown (t : Task) : List Bytes := t.trace.filterMap Obs.shown

/-- The number of times that `Output::Connected` has been sent. -/
def reports (t : Task) : Nat := t.trace.countP Obs.connects

/-- The elementary changes of a task. -/
inductive Move (ambient : Ambient) : Task → Task → Prop where
  /-- Flags and times that nothing else depends on. -/
  | note (t : Task) (flush : Bool) (hsEndTime lastIoTime : U32) (ticks : Nat) :
      Move ambient t { t with flush, hsEndTime, lastIoTime, ticks }
  /-- Control passes to another point of `run`. -/
  | goto (t : Task) (pc : Pc) (running : t.running) (stays : pc ≠ .draining ∧ pc ≠ .exited) :
      Move ambient t { t with pc }
  /-- The application acts. -/
  | app {t t' : Task} (event : AppEvent)
      (offered : ∀ frame, event = .startSend frame → ambient.Offered frame)
      (acted : t.app event = some t') : Move ambient t t'
  /-- `Kcp::set_nodelay`. -/
  | nodelay (t : Task) (nodelay : Bool) (interval resend : U32) (nc : Bool) :
      Move ambient t { t with kcp := t.kcp.setNodelay nodelay interval resend nc }
  /-- `Kcp::update`. -/
  | update (t : Task) (now : U32) : Move ambient t { t with kcp := t.kcp.update now }
  /-- `Kcp::flush`. -/
  | flush (t : Task) : Move ambient t { t with kcp := t.kcp.flush }
  /-- The client queues its SYN frame. -/
  | sendSyn (t : Task) {size : Nat} {kcp : Kcp} (client : t.client) (state : t.hs = .syn)
      (searching : t.kcp.cb.conv = Kcp.synConv) (fresh : t.trace = [])
      (sent : t.kcp.send t.handshakeFrame = some (.ok size, kcp)) :
      Move ambient t ({ t with kcp }.log (t.sentRecord .syn t.handshakeFrame kcp))
  /-- The server queues its SYN reply and is connected. -/
  | replySyn (t : Task) {syn id : Bytes} {size : Nat} {kcp : Kcp} (server : t.client = false)
      (state : t.hs = .syn) (popped : t.trace.getLast? = some (.recv syn))
      (valid : t.synSessionId syn = some id)
      (sent : t.kcp.send (t.cfg.sessionKey ++ id) = some (.ok size, kcp)) :
      Move ambient t ({ t with kcp, sessionId := id, hs := .connected }.log
        (t.sentRecord .syn (t.cfg.sessionKey ++ id) kcp))
  /-- A frame of the application is queued. -/
  | sendData (t : Task) {frame : Bytes} {rest : List Bytes} {size : Nat} {kcp : Kcp}
      (queued : t.inputRx.queue = frame :: rest) (opened : t.inputClosed = false)
      (running : t.running) (sent : t.kcp.send frame = some (.ok size, kcp))
      (room : t.kcp.isSendQueueFull = false) :
      Move ambient t ({ t with kcp, inputRx := { t.inputRx with queue := rest } }.log
        (t.sentRecord .data frame kcp))
  /-- A frame of the application is refused. -/
  | refuse (t : Task) {frame : Bytes} {rest : List Bytes} {error : ErrorKind} {kcp : Kcp}
      (queued : t.inputRx.queue = frame :: rest) (opened : t.inputClosed = false)
      (running : t.running)
      (refused : t.kcp.send frame = some (.error error, kcp)) :
      Move ambient t ({ t with kcp, inputRx := { t.inputRx with queue := rest } }.log
        (.tooBig frame))
  /-- The FIN frame is queued. -/
  | sendFin (t : Task) {size : Nat} {kcp : Kcp} (running : t.running) (state : t.hs = .finPending)
      (closed : t.inputClosed) (settled : t.kcp.getWaitsnd = 0)
      (quiet : t.kcp.outputQueue = [])
      (sent : t.kcp.send t.handshakeFrame = some (.ok size, kcp)) :
      Move ambient t ({ t with kcp, hs := .finSent }.log
        (t.sentRecord .fin t.handshakeFrame kcp))
  /-- A packet is given to `Kcp::input`. -/
  | input (t : Task) {packet : Bytes} {result : Except ErrorKind Unit} {kcp : Kcp}
      (delivered : ambient.Delivered packet) (running : t.running)
      (taken : t.kcp.input packet = some (result, kcp)) : Move ambient t { t with kcp }
  /-- A packet is given to `Kcp::input` under another conv. -/
  | inputAs (t : Task) {packet : Bytes} {conv : U32} (back : U32)
      {result : Except ErrorKind Unit} {kcp : Kcp} (delivered : ambient.Delivered packet)
      (running : t.running) (taken : (t.kcp.setConv conv).input packet = some (result, kcp))
      (side : t.client ∧ t.hs = .syn ∧ (back = Kcp.synConv ∨ kcp.getWaitsnd = 0) ∨
        t.client = false ∧ back = t.kcp.cb.conv) :
      Move ambient t { t with kcp := kcp.setConv back }
  /-- A packet with the FIN flag is given to `Kcp::input` without it. -/
  | inputFin (t : Task) {packet : Bytes} {cmd : Byte} {result : Except ErrorKind Unit}
      {kcp : Kcp} (delivered : ambient.Delivered packet) (running : t.running)
      (command : readCmd packet = some cmd) (flagged : cmd &&& kcpFin ≠ 0)
      (noticed : t.finRecved)
      (taken : t.kcp.input (writeCmd packet (cmd ^^^ kcpFin)) = some (result, kcp)) :
      Move ambient t { t with kcp }
  /-- A packet with the RESET flag has arrived. -/
  | reset (t : Task) {packet : Bytes} {cmd : Byte} (delivered : ambient.Delivered packet)
      (running : t.running) (command : readCmd packet = some cmd)
      (flagged : cmd &&& kcpReset ≠ 0) : Move ambient t { t with hs := .disconnected }
  /-- A packet with the FIN flag has arrived. -/
  | noticeFin (t : Task) {packet : Bytes} {cmd : Byte} (delivered : ambient.Delivered packet)
      (running : t.running) (command : readCmd packet = some cmd)
      (flagged : cmd &&& kcpFin ≠ 0) :
      Move ambient t
        { t with finRecved := true, inputRx := { t.inputRx with rxClosed := true } }
  /-- The SYN handshake fails. -/
  | abort (t : Task) (state : t.hs = .syn ∨ t.hs = .connected) (unannounced : t.hasStream = false) :
      Move ambient t { t with hs := .disconnected }
  /-- The FIN handshake begins. -/
  | pend (t : Task) (state : t.hs = .connected) (reason : t.inputClosed ∨ t.finRecved) :
      Move ambient t { t with hs := .finPending }
  /-- The FIN frame has been acknowledged. -/
  | waitPeer (t : Task) (state : t.hs = .finSent) (settled : t.kcp.getWaitsnd = 0) :
      Move ambient t { t with hs := .finWaitPeer }
  /-- The FIN handshake is complete. -/
  | done (t : Task) (state : t.hs = .finWaitPeer) (noticed : t.finRecved)
      (empty : t.kcp.cb.nrcvQue + t.kcp.cb.nrcvBuf = 0) :
      Move ambient t { t with hs := .disconnected }
  /-- A handshake times out. -/
  | expire (t : Task) (state : t.hs ≠ .connected) (quiet : t.kcp.outputQueue = [])
      (quits : ambient.Quits) :
      Move ambient t { t with hs := .disconnected }
  /-- `kcp_recv`. -/
  | recv {t t' : Task} {frame : Option Bytes} (running : t.running)
      (taken : t.kcpRecv = some (frame, t')) : Move ambient t t'
  /-- The client accepts a SYN reply. -/
  | connect (t : Task) {syn : Bytes} (client : t.client) (state : t.hs = .syn)
      (popped : t.trace.getLast? = some (.recv syn))
      (valid : t.synSessionId syn = some t.sessionId) :
      Move ambient t { t with hs := .connected }
  /-- The connection is reported. -/
  | announce (t : Task) (state : t.hs = .connected) (running : t.running) :
      Move ambient t (t.log (.output (.connected t.kcp.cb.conv)))
  /-- The input channel is found closed. -/
  | closeInput (t : Task) (running : t.running) (exhausted : t.inputRx.exhausted) :
      Move ambient t { t with inputClosed := true }
  /-- Packets are fed to the transport. -/
  | feed (t : Task) {packets : List Bytes} (taken : packets <+: t.kcp.outputQueue)
      (running : t.running) :
      Move ambient t ({ t with kcp := { t.kcp with outputQueue := [] } }.feed packets)
  /-- `tx_frame` changes. -/
  | stash (t : Task) (txFrame : Option Bytes) : Move ambient t { t with txFrame }
  /-- A frame is given to the application. -/
  | deliver (t : Task) (frame : Bytes) (running : t.running) :
      Move ambient t (t.log (.output (.frame frame)))
  /-- The loop is left. -/
  | leave (t : Task) (running : t.running) (reason : t.hs = .disconnected ∨ ambient.Quits) :
      Move ambient t t.leave
  /-- A queued frame is dropped after the loop. -/
  | drained (t : Task) {frame : Bytes} {rest : List Bytes} (left : t.pc = .draining)
      (queued : t.inputRx.queue = frame :: rest) :
      Move ambient t
        ({ t with inputRx := { t.inputRx with queue := rest } }.log (.drained frame))
  /-- The end of `run`. -/
  | finish (t : Task) (left : t.pc = .draining) : Move ambient t t.finish

/-- A sequence of moves. -/
abbrev Moves (ambient : Ambient) : Task → Task → Prop := ReflTransGen (Move ambient)

/-- What every move keeps, a sequence of moves keeps. -/
theorem Moves.invariant {ambient : Ambient} {Invariant : Task → Prop} {t t' : Task}
    (moves : Moves ambient t t')
    (preserved : ∀ t t', Move ambient t t' → Invariant t → Invariant t')
    (holds : Invariant t) : Invariant t' := by
  induction moves with
  | refl => exact holds
  | tail _ move inductionHypothesis => exact preserved _ _ move inductionHypothesis

variable {ambient : Ambient} {t t' : Task}

/-- What the application does: it changes its ends of the channels, or puts a frame into
the input channel. -/
theorem app_cases {event : AppEvent} (acted : t.app event = some t') :
    (∃ inputRx token outputOpen, t' = { t with inputRx, token, outputOpen } ∧
      inputRx.queue = t.inputRx.queue ∧ (t.inputRx.exhausted → inputRx.exhausted) ∧
      (inputRx.permit → t.inputRx.permit ∨ t.hasStream)) ∨
    ∃ frame, event = .startSend frame ∧ t.inputRx.permit ∧
      t' = { t with
        inputRx := { t.inputRx with queue := t.inputRx.queue ++ [frame], permit := false } }.log
          (.accepted frame) := by
  cases event <;> simp only [Task.app] at acted
  case startSend frame =>
    split at acted
    · rename_i held
      cases acted
      exact .inr ⟨frame, rfl, held, rfl⟩
    · cases acted
  case reserve =>
    split at acted
    · rename_i holding
      cases acted
      refine .inl ⟨_, t.token, t.outputOpen, rfl, rfl, ?_, fun _ => .inr holding.1⟩
      simp [Channel.exhausted, holding.2.1, holding.2.2]
    · cases acted
  case abortSend =>
    cases acted
    refine .inl ⟨_, t.token, t.outputOpen, rfl, rfl, ?_, fun held => by cases held⟩
    simp only [Channel.exhausted, Bool.and_eq_true]
    exact fun ended => ⟨⟨ended.1.1, rfl⟩, ended.2⟩
  case closeSender =>
    cases acted
    refine .inl ⟨_, t.token, t.outputOpen, rfl, rfl, ?_, .inl⟩
    simp only [Channel.exhausted, Bool.and_eq_true, Bool.or_eq_true]
    exact fun ended => ⟨ended.1, .inl trivial⟩
  all_goals
    cases acted
    exact .inl ⟨t.inputRx, _, _, rfl, rfl, id, .inl⟩

/-- What the application does changes its channels, and records an accepted frame. -/
theorem app_eq {event : AppEvent} (acted : t.app event = some t') :
    ∃ inputRx token outputOpen, t' = { t with inputRx, token, outputOpen } ∨
      ∃ frame, t' = { t with inputRx, token, outputOpen }.log (.accepted frame) := by
  obtain ⟨inputRx, token, outputOpen, equal, _⟩ | ⟨frame, _, _, equal⟩ := app_cases acted
  · exact ⟨inputRx, token, outputOpen, .inl equal⟩
  · exact ⟨_, t.token, t.outputOpen, .inr ⟨frame, equal⟩⟩

/-- Nothing can be queued into an exhausted channel. -/
theorem exhausted_app {event : AppEvent} (acted : t.app event = some t')
    (exhausted : t.inputRx.exhausted) : t'.inputRx.exhausted := by
  obtain ⟨_, _, _, rfl, _, kept, _⟩ | ⟨_, _, held, _⟩ := app_cases acted
  · exact kept exhausted
  · simp [Channel.exhausted, held] at exhausted

/-- A drain empties the output queue and feeds a part of it. Then control goes on, or the loop
is given up. -/
theorem drain_cases {outcome : SinkOutcome} (moved : t.drain outcome = some t') :
    ∃ packets, packets <+: t.kcp.outputQueue ∧
      let fed := { t with kcp := { t.kcp with outputQueue := [] }, pc := .check }.feed packets
      outcome.ends = false ∧ t' = fed ∨ outcome.ends ∧ t' = fed.leave := by
  unfold Task.drain at moved
  dsimp only at moved
  split at moved
  · rename_i empty
    have same : { t.kcp with outputQueue := [] } = t.kcp := by rw [← empty]
    split at moved
    · rename_i sent
      cases moved
      exact ⟨[], List.nil_prefix, .inl ⟨by rw [sent]; rfl, by simp [feed, same]⟩⟩
    · cases moved
  · split at moved
    · cases moved
      exact ⟨_, List.prefix_refl _, .inl ⟨rfl, rfl⟩⟩
    · split at moved
      · cases moved
        split
        · rename_i flushed
          exact ⟨_, List.take_prefix _ _, .inl ⟨by simp [SinkOutcome.ends, flushed], rfl⟩⟩
        · rename_i broken
          exact ⟨_, List.take_prefix _ _, .inr ⟨by simpa [SinkOutcome.ends] using broken, rfl⟩⟩
      · cases moved
    · cases moved
      exact ⟨_, List.prefix_refl _, .inr ⟨rfl, rfl⟩⟩
    · split at moved
      · cases moved
        exact ⟨_, List.take_prefix _ _, .inr ⟨rfl, rfl⟩⟩
      · cases moved

/-- The end of `run` only records. -/
theorem finish_eq (t : Task) : ∃ ticks resets,
    (∀ obs ∈ resets, ∃ now, obs = .reset (t.kcp.writeAckHead kcpReset 0 now)) ∧
    t.finish = { t with
      ticks, pc := .exited, trace := t.trace ++ resets ++ [.disconnect t.kcp.cb.conv] } := by
  unfold Task.finish
  dsimp only
  split
  · exact ⟨t.ticks + 1, [_], by simp [getSystemTime], rfl⟩
  · exact ⟨t.ticks, [], by simp, by simp [log]⟩

theorem hs_finish (t : Task) : t.finish.hs = t.hs := by
  obtain ⟨_, _, _, equal⟩ := finish_eq t
  rw [equal]

/-- `kcp_flush` reads the clock, updates the KCP, flushes it and notes the time. -/
theorem kcpFlush_moves (t : Task) : Moves ambient t t.kcpFlush := by
  unfold kcpFlush
  split
  · have start : Move ambient _ _ := .note t false t.hsEndTime t.lastIoTime (t.ticks + 1)
    have updated : Move ambient _ _ := .update
      { t with flush := false, ticks := t.ticks + 1 } (t.clock t.ticks)
    have flushed : Move ambient _ _ := .flush { t with
      flush := false, ticks := t.ticks + 1, kcp := t.kcp.update (t.clock t.ticks) }
    have noted : Move ambient _ _ := .note { t with
      flush := false, ticks := t.ticks + 1, kcp := (t.kcp.update (t.clock t.ticks)).flush }
      false t.hsEndTime (t.kcp.update (t.clock t.ticks)).flush.cb.current (t.ticks + 1)
    exact .tail (.tail (.tail (.single start) updated) flushed) noted
  · exact .refl

/-- What taking packets leaves alone: where the task is, whom it talks to, and what it has
received and handed to the application. -/
structure Aside where
  cfg : Config
  client : Bool
  sessionId : Bytes
  inputClosed : Bool
  token : Bool
  outputOpen : Bool
  txFrame : Option Bytes
  pc : Pc
  received : List Bytes
  shown : List Bytes
  announced : Bool
  reports : Nat

/-- The part of a task that taking packets leaves alone. -/
def aside (t : Task) : Aside where
  cfg := t.cfg
  client := t.client
  sessionId := t.sessionId
  inputClosed := t.inputClosed
  token := t.token
  outputOpen := t.outputOpen
  txFrame := t.txFrame
  pc := t.pc
  received := t.received
  shown := t.shown
  announced := t.hasStream
  reports := t.reports

/-- What flushing and the FIN handshake leave alone. -/
structure Kept where
  aside : Aside
  receiver : Ikcpcb.Receiver
  settings : Ikcpcb.Settings
  conv : U32
  inputRx : Channel
  finRecved : Bool

/-- The part of a task that flushing and the FIN handshake leave alone. -/
def kept (t : Task) : Kept where
  aside := t.aside
  receiver := t.kcp.cb.receiver
  settings := t.kcp.cb.settings
  conv := t.kcp.cb.conv
  inputRx := t.inputRx
  finRecved := t.finRecved

theorem pc_of_kept (same : t'.kept = t.kept) : t'.pc = t.pc :=
  congrArg (fun kept : Kept => kept.aside.pc) same

theorem inputClosed_of_kept (same : t'.kept = t.kept) : t'.inputClosed = t.inputClosed :=
  congrArg (fun kept : Kept => kept.aside.inputClosed) same

/-- A silent observation changes nothing outside the send side. -/
theorem aside_log {obs : Obs} (silent : obs.silent) : (t.log obs).aside = t.aside := by
  simp only [Obs.silent, Bool.and_eq_true, Option.isNone_iff_eq_none, Bool.not_eq_true'] at silent
  simp [aside, log, received, shown, hasStream, reports, silent]

theorem kept_log {obs : Obs} (silent : obs.silent) : (t.log obs).kept = t.kept := by
  rw [kept, aside_log silent]
  rfl

/-- A task that is where it was goes on. -/
theorem running_of_pc (same : t'.pc = t.pc) (running : t.running) : t'.running := by
  unfold Task.running at running ⊢
  rwa [same]

theorem running_of_kept (same : t'.kept = t.kept) (running : t.running) : t'.running :=
  running_of_pc (pc_of_kept same) running

@[simp] theorem kept_kcpFlush (t : Task) : t.kcpFlush.kept = t.kept := by
  unfold kcpFlush
  dsimp only
  split
  · simp only [kept, getSystemTime, Kcp.flush, Kcp.update, Kcp.emit, receiver_ikcpFlush,
      receiver_ikcpUpdate, settings_ikcpFlush, settings_ikcpUpdate, conv_ikcpFlush, conv_ikcpUpdate]
    rfl
  · rfl

theorem hs_kcpFlush (t : Task) : t.kcpFlush.hs = t.hs := by
  unfold kcpFlush
  split <;> rfl

/-- `handshake_send` queues the handshake frame and flushes. -/
theorem handshakeSend_eq {kind : FrameKind} (sent : t.handshakeSend kind = some t') :
    ∃ size kcp, t.kcp.send t.handshakeFrame = some (.ok size, kcp) ∧
      t' = ({ t with flush := true, kcp }.log (t.sentRecord kind t.handshakeFrame kcp)).kcpFlush := by
  unfold handshakeSend at sent
  dsimp only at sent
  split at sent
  · rename_i size kcp accepted
    cases sent
    exact ⟨size, kcp, accepted, rfl⟩
  · cases sent

/-- Sending a handshake frame does not change the state of the handshake. -/
theorem hs_handshakeSend {kind : FrameKind} (sent : t.handshakeSend kind = some t') :
    t'.hs = t.hs := by
  obtain ⟨_, _, _, rfl⟩ := handshakeSend_eq sent
  exact hs_kcpFlush _

/-- Sending a handshake frame touches the send side only. -/
theorem kept_handshakeSend {kind : FrameKind} (sent : t.handshakeSend kind = some t') :
    t'.kept = t.kept := by
  obtain ⟨size, kcp, accepted, rfl⟩ := handshakeSend_eq sent
  rw [kept_kcpFlush, kept_log rfl]
  obtain ⟨_, rfl⟩ | ⟨_, _, rfl⟩ := Kcp.send_eq accepted
  · rfl
  · obtain ⟨queue, count, equal⟩ := ikcpSend_queue t.kcp.cb t.handshakeFrame
      (BitVec.ofNat 32 t.handshakeFrame.length).toInt
    simp only [kept]
    rw [equal]
    rfl

/-- One turn of the loop of `fin_transit_state`. -/
inductive FinTurn : Task → Task → Prop where
  /-- The SYN handshake is given up. -/
  | abort (t : Task) (state : t.hs = .syn) : FinTurn t { t with hs := .disconnected }
  /-- The FIN handshake begins. -/
  | pend (t : Task) (state : t.hs = .connected) : FinTurn t { t with
      ticks := t.ticks + 1, hsEndTime := hsDeadline (t.clock t.ticks) t.cfg.shutdownTimeout,
      hs := .finPending }
  /-- The FIN frame is sent. -/
  | send {t sent : Task} (state : t.hs = .finPending) (closed : t.inputClosed)
      (settled : t.kcp.getWaitsnd = 0) (accepted : t.handshakeSend .fin = some sent) :
      FinTurn t { sent with hs := .finSent }
  /-- The FIN frame has been acknowledged. -/
  | waitPeer (t : Task) (state : t.hs = .finSent) (settled : t.kcp.getWaitsnd = 0) :
      FinTurn t { t with hs := .finWaitPeer }
  /-- The FIN handshake is complete. -/
  | done (t : Task) (state : t.hs = .finWaitPeer) (noticed : t.finRecved)
      (empty : t.kcp.cb.nrcvQue + t.kcp.cb.nrcvBuf = 0) : FinTurn t { t with hs := .disconnected }

/-- The loop of `fin_transit_state` is a sequence of turns. -/
theorem finTransitLoop_turns {fuel : Nat} (moved : finTransitLoop fuel t = some t') :
    ReflTransGen FinTurn t t' := by
  induction fuel generalizing t with
  | zero =>
      cases moved
      exact .refl
  | succ fuel inductionHypothesis =>
      unfold finTransitLoop at moved
      dsimp only at moved
      split at moved
      · rename_i state
        exact .head (.abort t state) (inductionHypothesis moved)
      · rename_i state
        exact .head (.pend t state) (inductionHypothesis moved)
      · rename_i state
        split at moved
        · cases moved
          exact .refl
        · rename_i ready
          simp only [not_or, Bool.not_eq_false, Nat.not_lt, Nat.le_zero] at ready
          split at moved
          · rename_i sent accepted
            exact .head (.send state ready.1 ready.2 accepted) (inductionHypothesis moved)
          · cases moved
      · rename_i state
        split at moved
        · cases moved
          exact .refl
        · rename_i settled
          exact .head (.waitPeer t state (by omega)) (inductionHypothesis moved)
      · rename_i state
        split at moved
        · cases moved
          exact .refl
        · rename_i ready
          simp only [not_or, Bool.not_eq_false, Nat.not_lt, Nat.le_zero] at ready
          exact .head (.done t state ready.1 ready.2) (inductionHypothesis moved)
      · cases moved
        exact .refl

/-- What every turn keeps, `fin_transit_state` keeps. -/
theorem finTransitLoop_invariant (Invariant : Task → Prop) {fuel : Nat}
    (moved : finTransitLoop fuel t = some t')
    (preserved : ∀ t t', FinTurn t t' → Invariant t → Invariant t') (holds : Invariant t) :
    Invariant t' := by
  have turns := finTransitLoop_turns moved
  clear moved
  induction turns with
  | refl => exact holds
  | tail _ turn inductionHypothesis => exact preserved _ _ turn inductionHypothesis

/-- The FIN handshake touches its state and the send side only. -/
theorem kept_finTransitLoop {fuel : Nat} (moved : finTransitLoop fuel t = some t') :
    t'.kept = t.kept := by
  refine finTransitLoop_invariant (fun later => later.kept = t.kept) moved
    (fun before after turn same => ?_) rfl
  cases turn with
  | send _ _ _ accepted => exact (kept_handshakeSend accepted).trans same
  | _ => exact same

/-- A flush reads neither the state nor the session id. -/
theorem kcpFlush_hs (t : Task) (hs : Handshake) :
    { t.kcpFlush with hs } = { t with hs }.kcpFlush := by
  unfold kcpFlush
  dsimp only
  split <;> rfl

/-- The first frame of a client. -/
theorem handshakeSend_syn_moves (client : t.client) (state : t.hs = .syn)
    (searching : t.kcp.cb.conv = Kcp.synConv) (fresh : t.trace = [])
    (sent : t.handshakeSend .syn = some t') : Moves ambient t t' := by
  obtain ⟨size, kcp, accepted, rfl⟩ := handshakeSend_eq sent
  have noted : Move ambient _ _ := .note t true t.hsEndTime t.lastIoTime t.ticks
  have queued : Move ambient _ _ := .sendSyn { t with flush := true } client state
    searching fresh accepted
  exact .trans (.tail (.single noted) queued) (kcpFlush_moves _)

/-- The reply of a server to the SYN frame that it has read. -/
theorem handshakeSend_reply_moves {syn id : Bytes} (server : t.client = false)
    (state : t.hs = .syn) (popped : t.trace.getLast? = some (.recv syn))
    (valid : t.synSessionId syn = some id)
    (sent : { t with sessionId := id }.handshakeSend .syn = some t') :
    Moves ambient t { t' with hs := .connected } := by
  obtain ⟨size, kcp, accepted, rfl⟩ := handshakeSend_eq sent
  have noted : Move ambient _ _ := .note t true t.hsEndTime t.lastIoTime t.ticks
  have queued : Move ambient _ _ := .replySyn { t with flush := true } server state
    popped valid accepted
  rw [kcpFlush_hs]
  exact .trans (.tail (.single noted) queued) (kcpFlush_moves _)

/-- The FIN frame, which is queued when all data is acknowledged. -/
theorem handshakeSend_fin_moves (running : t.running) (state : t.hs = .finPending) (closed : t.inputClosed)
    (settled : t.kcp.getWaitsnd = 0) (quiet : t.kcp.outputQueue = [])
    (sent : t.handshakeSend .fin = some t') :
    Moves ambient t { t' with hs := .finSent } := by
  obtain ⟨size, kcp, accepted, rfl⟩ := handshakeSend_eq sent
  have noted : Move ambient _ _ := .note t true t.hsEndTime t.lastIoTime t.ticks
  have queued : Move ambient _ _ := .sendFin { t with flush := true } running state closed
    settled quiet accepted
  rw [kcpFlush_hs]
  exact .trans (.tail (.single noted) queued) (kcpFlush_moves _)

/-- A state that a FIN handshake has not yet left for `FinSent`. -/
def beforeFin (t : Task) : Bool := t.hs = .syn || t.hs = .connected || t.hs = .finPending

/-- Nothing waits for the transport unless the FIN frame has been queued. -/
def Hushed (t : Task) : Prop := t.beforeFin → t.kcp.outputQueue = []

/-- The application does not hold its stream before the SYN handshake is over. -/
def Unannounced (t : Task) : Prop := t.hs = .syn → t.hasStream = false

/-- A turn is a move that keeps what the next turn needs. -/
theorem FinTurn.moves (turn : FinTurn t t') (running : t.running) (hushed : t.Hushed)
    (unannounced : t.Unannounced) (reason : t.inputClosed ∨ t.finRecved) :
    Moves ambient t t' ∧ t'.running ∧ t'.Hushed ∧ t'.Unannounced ∧
      (t'.inputClosed ∨ t'.finRecved) := by
  cases turn with
  | abort state =>
      exact ⟨.single (.abort t (.inl state) (unannounced state)), running,
        fun before => by simp [beforeFin] at before, fun syn => (by cases syn), reason⟩
  | pend state =>
      have noted : Move ambient _ _ := .note t t.flush
        (hsDeadline (t.clock t.ticks) t.cfg.shutdownTimeout) t.lastIoTime (t.ticks + 1)
      exact ⟨.head noted (.single (.pend _ state reason)), running,
        fun _ => hushed (by simp [beforeFin, state]), fun syn => (by cases syn), reason⟩
  | send state closed settled accepted =>
      have same := kept_handshakeSend accepted
      exact ⟨handshakeSend_fin_moves running state closed settled
          (hushed (by simp [beforeFin, state])) accepted, running_of_kept same running,
        fun before => by simp [beforeFin] at before, fun syn => (by cases syn),
        .inl ((inputClosed_of_kept same).trans closed)⟩
  | waitPeer state settled =>
      exact ⟨.single (.waitPeer t state settled), running,
        fun before => by simp [beforeFin] at before, fun syn => (by cases syn), reason⟩
  | done state noticed empty =>
      exact ⟨.single (.done t state noticed empty), running,
        fun before => by simp [beforeFin] at before, fun syn => (by cases syn), reason⟩

/-- The FIN handshake makes its moves in turn. -/
theorem finTransitLoop_moves {fuel : Nat} (running : t.running) (hushed : t.Hushed)
    (unannounced : t.Unannounced) (reason : t.inputClosed ∨ t.finRecved)
    (moved : finTransitLoop fuel t = some t') : Moves ambient t t' := by
  have turns := finTransitLoop_turns moved
  clear moved
  induction turns using ReflTransGen.head_induction_on with
  | refl => exact .refl
  | head turn _ inductionHypothesis =>
      obtain ⟨moves, running, hushed, unannounced, reason⟩ :=
        turn.moves running hushed unannounced reason
      exact .trans moves (inductionHypothesis running hushed unannounced reason)

/-- `kcp_recv` would take the frame at the head of the queue as the FIN frame. -/
def discards (t : Task) : Prop := t.finRecved ∧ t.kcp.cb.nrcvQue = 1 ∧ t.kcp.cb.nrcvBuf = 0

/-- The outcomes of `kcp_recv`. -/
theorem kcpRecv_cases {frame : Option Bytes} (taken : t.kcpRecv = some (frame, t')) :
    ∃ kcp, (t.kcp.recvBytes = some (none, kcp) ∧ frame = none ∧ t' = { t with kcp }) ∨
      (∃ bytes, t.kcp.recvBytes = some (some bytes, kcp) ∧
        (t.discards ∧ frame = none ∧ t' = { t with kcp }.log (.discard bytes) ∨
          ¬ t.discards ∧ frame = some bytes ∧ t' = { t with kcp }.log (.recv bytes))) := by
  unfold kcpRecv at taken
  split at taken
  · cases taken
  · rename_i got kcp received
    refine ⟨kcp, ?_⟩
    split at taken
    · rename_i discards
      cases got with
      | none =>
          cases taken
          exact .inl ⟨received, rfl, rfl⟩
      | some bytes =>
          cases taken
          exact .inr ⟨bytes, received, .inl ⟨discards, rfl, rfl⟩⟩
    · rename_i keeps
      cases got with
      | none =>
          cases taken
          exact .inl ⟨received, rfl, rfl⟩
      | some bytes =>
          cases taken
          exact .inr ⟨bytes, received, .inr ⟨keeps, rfl, rfl⟩⟩

/-- A frame that `kcp_recv` returns is the last thing recorded. -/
theorem kcpRecv_some {bytes : Bytes} (taken : t.kcpRecv = some (some bytes, t')) :
    ∃ kcp, t.kcp.recvBytes = some (some bytes, kcp) ∧ ¬ t.discards ∧
      t' = { t with kcp }.log (.recv bytes) := by
  obtain ⟨kcp, ⟨_, none, _⟩ | ⟨_, received, ⟨_, none, _⟩ | ⟨keeps, same, equal⟩⟩⟩ :=
    kcpRecv_cases taken
  · cases none
  · cases none
  · cases same
    exact ⟨kcp, received, keeps, equal⟩

/-- What `kcp_recv` leaves alone, and what it adds to the frames returned. -/
theorem kcpRecv_aside {frame : Option Bytes} (taken : t.kcpRecv = some (frame, t')) :
    t'.aside = { t.aside with received := t.received ++ frame.toList } := by
  obtain ⟨kcp, ⟨_, rfl, rfl⟩ | ⟨bytes, _, ⟨_, rfl, rfl⟩ | ⟨_, rfl, rfl⟩⟩⟩ := kcpRecv_cases taken
  · simp [aside, received, shown, hasStream, reports]
  · rw [aside_log rfl]
    simp [aside, received, shown, hasStream, reports]
  · simp [aside, received, shown, hasStream, reports, log, Obs.popped, Obs.shown, Obs.connects]

/-- `kcp_recv` does not change the state of the handshake. -/
theorem kcpRecv_hs {frame : Option Bytes} (taken : t.kcpRecv = some (frame, t')) :
    t'.hs = t.hs := by
  obtain ⟨kcp, ⟨_, _, rfl⟩ | ⟨_, _, ⟨_, _, rfl⟩ | ⟨_, _, rfl⟩⟩⟩ := kcpRecv_cases taken <;> rfl

/-- `kcp_recv` uses the engine through `recv_bytes` only. -/
theorem kcpRecv_engine {frame : Option Bytes} (taken : t.kcpRecv = some (frame, t')) :
    t'.kcp = t.kcp ∨ t'.kcp = { t.kcp with cb := recvMoved t.kcp.cb false } := by
  have received {kcp : Kcp} {got : Option Bytes} (received : t.kcp.recvBytes = some (got, kcp)) :
      kcp = t.kcp ∨ kcp = { t.kcp with cb := recvMoved t.kcp.cb false } := by
    obtain ⟨_, rfl⟩ | ⟨_, _, _, rfl⟩ := Kcp.recvBytes_eq received
    · exact .inl rfl
    · exact .inr rfl
  obtain ⟨kcp, ⟨got, _, rfl⟩ | ⟨_, got, ⟨_, _, rfl⟩ | ⟨_, _, rfl⟩⟩⟩ := kcpRecv_cases taken <;>
    exact received got

/-- So it leaves the send side alone. -/
theorem kcpRecv_kcp {frame : Option Bytes} (taken : t.kcpRecv = some (frame, t')) :
    ∃ receiver probe,
      t'.kcp = { t.kcp with cb := { t.kcp.cb with probe }.withReceiver receiver } := by
  rcases kcpRecv_engine taken with same | moved
  · exact ⟨t.kcp.cb.receiver, t.kcp.cb.probe, same⟩
  · obtain ⟨probe, equal⟩ := recvMoved_eq t.kcp.cb false
    rw [equal] at moved
    exact ⟨_, probe, moved⟩

theorem kcpApplyNodelay_move (t : Task) : Move ambient t t.kcpApplyNodelay :=
  .nodelay t _ _ _ _

/-- The end of `syn_handshake_recv` reports the connection if the application listens. -/
theorem connect_cases {ok : Bool} (connected : t.connect = (ok, t')) :
    ok = true ∧ t' = { t with hs := .connected }.log (.output (.connected t.kcp.cb.conv)) ∨
      ok = false ∧ t.outputOpen = false ∧ t' = { t with hs := .connected } := by
  unfold connect at connected
  dsimp only at connected
  split at connected
  · cases connected
    exact .inl ⟨rfl, rfl⟩
  · rename_i unheard
    cases connected
    exact .inr ⟨rfl, by simpa using unheard, rfl⟩

/-- `connect` reports the connection and hands out the stream. -/
theorem connect_moves {ok : Bool} (running : t.running) (connected : t.connect = (ok, t')) :
    Moves ambient { t with hs := .connected } t' := by
  obtain ⟨_, rfl⟩ | ⟨_, _, rfl⟩ := connect_cases connected
  · exact .single (.announce _ rfl running)
  · exact .refl

/-- A frame that is not the SYN frame that the task waits for. -/
def Mismatched (t : Task) (syn : Bytes) : Prop :=
  t.synSessionId syn = none ∨ t.client ∧ t.synSessionId syn ≠ some t.sessionId

/-- The outcomes of `syn_handshake_recv`: no frame, a frame that does not match, the reply that a
client waits for, and the frame that a server answers. -/
theorem synHandshakeRecv_cases {ok : Bool} (received : t.synHandshakeRecv = some (ok, t')) :
    ok = true ∧ t.kcpRecv = some (none, t') ∨ ∃ syn later, t.kcpRecv = some (some syn, later) ∧
      (ok = false ∧ later.Mismatched syn ∧ t' = later ∨
        later.client ∧ later.synSessionId syn = some later.sessionId ∧
          later.kcpApplyNodelay.connect = (ok, t') ∨
        later.client = false ∧ ∃ id sent, later.synSessionId syn = some id ∧
          { later with sessionId := id }.kcpApplyNodelay.handshakeSend .syn = some sent ∧
          sent.connect = (ok, t')) := by
  unfold synHandshakeRecv at received
  split at received
  · cases received
  · rename_i later taken
    cases received
    exact .inl ⟨rfl, taken⟩
  · rename_i syn later taken
    refine .inr ⟨syn, later, taken, ?_⟩
    split at received
    · rename_i invalid
      cases received
      exact .inl ⟨rfl, .inl invalid, rfl⟩
    · rename_i id valid
      split at received
      · rename_i client
        split at received
        · rename_i other
          cases received
          refine .inl ⟨rfl, .inr ⟨client, fun same => other ?_⟩, rfl⟩
          exact (Option.some.inj (valid.symm.trans same)).symm
        · rename_i own
          simp only [ne_eq, Decidable.not_not] at own
          subst own
          exact .inr (.inl ⟨client, valid, Option.some.inj received⟩)
      · rename_i server
        simp only [Bool.not_eq_true] at server
        split at received
        · rename_i sent accepted
          exact .inr (.inr ⟨server, id, sent, valid, accepted, Option.some.inj received⟩)
        · cases received

/-- The SYN handshake reads a frame and connects, or fails. -/
theorem synHandshakeRecv_moves {ok : Bool} (running : t.running) (state : t.hs = .syn)
    (received : t.synHandshakeRecv = some (ok, t')) : Moves ambient t t' := by
  obtain ⟨_, taken⟩ | ⟨syn, later, taken, outcome⟩ := synHandshakeRecv_cases received
  · exact .single (.recv running taken)
  · refine .head (.recv running taken) ?_
    obtain ⟨kcp, _, _, equal⟩ := kcpRecv_some taken
    have popped : later.trace.getLast? = some (.recv syn) := by simp [equal, log]
    replace state : later.hs = .syn := by simpa [equal, log] using state
    have running' : later.running := by
      rw [equal]
      exact running
    obtain ⟨_, _, rfl⟩ | ⟨client, valid, connected⟩ | ⟨server, id, sent, valid, accepted, connected⟩ :=
      outcome
    · exact .refl
    · have matched : Move ambient _ _ := .connect later.kcpApplyNodelay client state popped valid
      exact .head (kcpApplyNodelay_move later) (.head matched (connect_moves running' connected))
    · have replied : Moves ambient later.kcpApplyNodelay { sent with hs := .connected } :=
        handshakeSend_reply_moves server state popped valid accepted
      exact .head (kcpApplyNodelay_move later) (.trans replied
        (connect_moves (running_of_kept (kept_handshakeSend accepted) running') connected))

/-- The outcomes of `syn_handshake_input`. -/
theorem synHandshakeInput_cases {packet : Bytes} {ok : Bool}
    (moved : t.synHandshakeInput packet = some (ok, t')) :
    t' = t ∨ ∃ conv back result kcp, readConv packet = some conv ∧
      (t.kcp.setConv conv).input packet = some (result, kcp) ∧
      t' = { t with kcp := kcp.setConv back } ∧
      (t.client ∧ t.hs = .syn ∧ conv ≠ Kcp.synConv ∧
          back = (if result ≠ .ok () ∨ 0 < kcp.getWaitsnd then Kcp.synConv else conv) ∨
        t.client = false ∧ conv = Kcp.synConv ∧ back = t.kcp.cb.conv) := by
  unfold synHandshakeInput at moved
  split at moved
  · cases moved
    exact .inl rfl
  · rename_i conv read
    split at moved
    · rename_i client
      split at moved
      · rename_i searching
        split at moved
        · cases moved
        · rename_i result kcp taken
          refine .inr ⟨conv, _, result, kcp, read, taken, ?_,
            .inl ⟨client, searching.1, searching.2, rfl⟩⟩
          split at moved
          · rename_i failed
            cases moved
            rw [if_pos failed]
          · rename_i entered
            cases moved
            have kept : kcp.setConv conv = kcp := Kcp.setConv_self (Kcp.conv_of_input taken)
            rw [if_neg entered, kept]
      · cases moved
        exact .inl rfl
    · rename_i server
      simp only [Bool.not_eq_true] at server
      split at moved
      · rename_i handshake
        split at moved
        · cases moved
        · rename_i result kcp taken
          cases moved
          exact .inr ⟨conv, _, result, kcp, read, taken, rfl, .inr ⟨server, handshake, rfl⟩⟩
      · cases moved
        exact .inl rfl

/-- A packet that comes before the SYN handshake is over. -/
theorem synHandshakeInput_moves {packet : Bytes} {ok : Bool} (running : t.running)
    (delivered : ambient.Delivered packet) (moved : t.synHandshakeInput packet = some (ok, t')) :
    Moves ambient t t' := by
  obtain rfl | ⟨conv, back, result, kcp, _, taken, rfl, side⟩ := synHandshakeInput_cases moved
  · exact .refl
  · refine .single (.inputAs t back delivered running taken ?_)
    obtain ⟨client, state, _, chosen⟩ | ⟨server, _, same⟩ := side
    · refine .inl ⟨client, state, ?_⟩
      by_cases failed : result ≠ .ok () ∨ 0 < kcp.getWaitsnd
      · exact .inl (by rw [chosen, if_pos failed])
      · exact .inr (by omega)
    · exact .inr ⟨server, same⟩

/-- The state in which `fin_transit_state` is called for a packet with the FIN flag. -/
def noticeFin (t : Task) : Task :=
  if t.finRecved then t
  else { t with finRecved := true, inputRx := { t.inputRx with rxClosed := true } }

@[simp] theorem kcp_noticeFin (t : Task) : t.noticeFin.kcp = t.kcp := by
  unfold noticeFin
  split <;> rfl

@[simp] theorem trace_noticeFin (t : Task) : t.noticeFin.trace = t.trace := by
  unfold noticeFin
  split <;> rfl

@[simp] theorem hs_noticeFin (t : Task) : t.noticeFin.hs = t.hs := by
  unfold noticeFin
  split <;> rfl

@[simp] theorem aside_noticeFin (t : Task) : t.noticeFin.aside = t.aside := by
  unfold noticeFin
  split <;> rfl

@[simp] theorem finRecved_noticeFin (t : Task) : t.noticeFin.finRecved = true := by
  unfold noticeFin
  split
  · rename_i noticed
    exact noticed
  · rfl

/-- A packet with the FIN flag is noticed and then processed without the flag. -/
theorem finInput_eq {packet : Bytes} {cmd : Byte} (moved : t.finInput packet cmd = some t') :
    ∃ later result kcp, t.noticeFin.finTransitState = some later ∧
      later.kcp.input (writeCmd packet (cmd ^^^ kcpFin)) = some (result, kcp) ∧
      t' = { later with kcp } := by
  unfold finInput at moved
  dsimp only at moved
  split at moved
  · cases moved
  · rename_i later transit
    obtain ⟨⟨result, kcp⟩, taken, equal⟩ := Option.map_eq_some_iff.1 moved
    exact ⟨later, result, kcp, transit, taken, equal.symm⟩

/-- A packet with the FIN flag. -/
theorem finInput_moves {packet : Bytes} {cmd : Byte} (running : t.running)
    (hushed : t.Hushed) (unannounced : t.Unannounced) (delivered : ambient.Delivered packet)
    (command : readCmd packet = some cmd) (flagged : cmd &&& kcpFin ≠ 0)
    (moved : t.finInput packet cmd = some t') : Moves ambient t t' := by
  have notice : Moves ambient t t.noticeFin := by
    unfold noticeFin
    split
    · exact .refl
    · exact .single (.noticeFin t delivered running command flagged)
  obtain ⟨later, result, kcp, transit, taken, rfl⟩ := finInput_eq moved
  have running' : t.noticeFin.running := running_of_pc (congrArg Aside.pc t.aside_noticeFin) running
  have hushed' : t.noticeFin.Hushed := fun before => by
    rw [kcp_noticeFin]
    exact hushed (by rwa [beforeFin, hs_noticeFin] at before)
  have unannounced' : t.noticeFin.Unannounced := fun syn => by
    rw [show t.noticeFin.hasStream = t.hasStream from congrArg Aside.announced t.aside_noticeFin]
    exact unannounced (t.hs_noticeFin ▸ syn)
  have moves : Moves ambient t.noticeFin later :=
    finTransitLoop_moves running' hushed' unannounced' (.inr t.finRecved_noticeFin) transit
  have same := kept_finTransitLoop transit
  have noticed : later.finRecved := (congrArg Kept.finRecved same).trans t.finRecved_noticeFin
  have running'' : later.running := running_of_kept same running'
  exact .trans notice
    (.tail moves (.inputFin later delivered running'' command flagged noticed taken))

/-- The outcomes of `kcp_input`: a packet of the conv in force, one of another conv, and one whose
command has the RESET flag, the FIN flag, or is unknown. -/
theorem kcpInput_cases {packet : Bytes} (moved : t.kcpInput packet = some t') :
    ∃ result kcp, t.kcp.input packet = some (result, kcp) ∧
      (result = .ok () ∧ t' = { t with kcp, flush := true } ∨
        result = .error .notFound ∧ (∃ ok, { t with kcp }.synHandshakeInput packet = some (ok, t')) ∨
        result = .error .invalidData ∧ ∃ cmd, readCmd packet = some cmd ∧
          (cmd &&& kcpReset ≠ 0 ∧ t' = { t with kcp, hs := .disconnected } ∨
            cmd &&& kcpReset = 0 ∧ cmd &&& kcpFin ≠ 0 ∧
              { t with kcp }.finInput packet cmd = some t' ∨
            cmd &&& kcpReset = 0 ∧ cmd &&& kcpFin = 0 ∧ t' = { t with kcp })) := by
  unfold kcpInput at moved
  split at moved
  · cases moved
  · rename_i kcp taken
    cases moved
    exact ⟨_, kcp, taken, .inl ⟨rfl, rfl⟩⟩
  · rename_i kcp taken
    obtain ⟨⟨ok, later⟩, entered, equal⟩ := Option.map_eq_some_iff.1 moved
    cases equal
    exact ⟨_, kcp, taken, .inr (.inl ⟨rfl, ok, entered⟩)⟩
  · rename_i kcp taken
    refine ⟨_, kcp, taken, .inr (.inr ⟨rfl, ?_⟩)⟩
    split at moved
    · cases moved
    · rename_i cmd command
      refine ⟨cmd, command, ?_⟩
      split at moved
      · rename_i flagged
        cases moved
        exact .inl ⟨flagged, rfl⟩
      · rename_i unreset
        simp only [ne_eq, Decidable.not_not] at unreset
        split at moved
        · rename_i flagged
          exact .inr (.inl ⟨unreset, flagged, moved⟩)
        · rename_i unflagged
          simp only [ne_eq, Decidable.not_not] at unflagged
          cases moved
          exact .inr (.inr ⟨unreset, unflagged, rfl⟩)
  · cases moved

/-- Every packet: what it does depends on its flags and on the state of the handshake. -/
theorem kcpInput_moves {packet : Bytes} (running : t.running) (hushed : t.Hushed)
    (unannounced : t.Unannounced) (delivered : ambient.Delivered packet)
    (moved : t.kcpInput packet = some t') : Moves ambient t t' := by
  obtain ⟨result, kcp, taken, outcome⟩ := kcpInput_cases moved
  have entered : Move ambient _ _ := .input t delivered running taken
  have hushed' : { t with kcp }.Hushed := by
    obtain ⟨_, rfl⟩ := Kcp.input_eq taken
    exact hushed
  obtain ⟨_, rfl⟩ | ⟨_, ok, stray⟩ | ⟨_, cmd, command, flags⟩ := outcome
  · exact .tail (.single entered) (.note _ true t.hsEndTime t.lastIoTime t.ticks)
  · exact .head entered (synHandshakeInput_moves running delivered stray)
  · obtain ⟨flagged, rfl⟩ | ⟨_, flagged, noticed⟩ | ⟨_, _, rfl⟩ := flags
    · exact .tail (.single entered) (.reset _ delivered running command flagged)
    · exact .head entered
        (finInput_moves running hushed' unannounced delivered command flagged noticed)
    · exact .single entered

/-- A frame of the application is taken and queued. -/
theorem processInput_moves {frame : Bytes} {rest : List Bytes}
    (queued : t.inputRx.queue = frame :: rest) (opened : t.inputClosed = false)
    (running : t.running) (room : t.kcp.isSendQueueFull = false)
    (moved : { t with inputRx := { t.inputRx with queue := rest } }.processInput frame = some t') :
    Moves ambient t t' := by
  unfold processInput at moved
  split at moved
  · cases moved
  · rename_i size kcp sent
    cases moved
    exact .tail (.single (.sendData t queued opened running sent room))
      (.note _ _ t.hsEndTime t.lastIoTime t.ticks)
  · rename_i error kcp refused
    cases moved
    exact .single (.refuse t queued opened running refused)

end Task
end KcpRs
