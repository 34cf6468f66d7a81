import KcpRs.Stream.Agreement
import KcpRs.Stream.Conv
import KcpRs.Wrapper.Receiving

/-!
# From the engine to the output channel

`kcp_recv` is called in three places: by the SYN handshake, after a batch of packets and
behind a permit of the output channel. `Handing` says what these calls leave behind: every
frame they returned has been sent to the output channel or is the stashed one, in order,
but for the SYN frame; and wherever the loop goes back to its `select!` without a stashed
frame, `Kcp::peek_size` finds no frame in the engine. A complete message may still wait there
behind an empty one, which `kcp_recv` never takes.
-/

namespace KcpRs

open Lib Relation

/-- What `Kcp::peek_size` reads is part of the receive side. -/
theorem Kcp.peekSize_congr {kcp kcp' : Kcp} (same : kcp'.cb.receiver = kcp.cb.receiver) :
    kcp'.peekSize = kcp.peekSize := by
  simp only [Ikcpcb.receiver, Ikcpcb.Receiver.mk.injEq] at same
  simp only [peekSize, ikcpPeeksize, same]

/-- `Kcp::recv_bytes` returns nothing only when there is no frame. -/
theorem Kcp.peekSize_of_recvBytes {kcp kcp' : Kcp} (idle : kcp.recvBytes = some (none, kcp')) :
    kcp'.peekSize = 0 := by
  unfold recvBytes at idle
  dsimp only at idle
  split at idle
  · obtain ⟨_, _, equal⟩ := Option.map_eq_some_iff.1 idle
    cases equal
  · cases idle
    omega

namespace Task

variable {ambient : Ambient} {t t' : Task}

/-- When `kcp_recv` returns nothing, also because it has dropped the FIN frame, no frame is
left. -/
theorem peekSize_kcpRecv (counted : t.kcp.cb.Counted) (taken : t.kcpRecv = some (none, t')) :
    t'.kcp.peekSize = 0 := by
  obtain ⟨kcp, ⟨idle, _, rfl⟩ | ⟨bytes, got, ⟨⟨_, single, unbuffered⟩, _, rfl⟩ | ⟨_, some, _⟩⟩⟩ :=
    kcpRecv_cases taken
  · exact Kcp.peekSize_of_recvBytes idle
  · obtain ⟨none, _⟩ | ⟨_, _, _, rfl⟩ := Kcp.recvBytes_eq got
    · cases none
    · rw [counted.rcvQueue] at single
      rw [counted.rcvBuf] at unbuffered
      obtain ⟨seg, queue⟩ := List.length_eq_one_iff.1 single
      have taken : (takeMessage t.kcp.cb.rcvQueue).2 = [] := by
        rw [queue]
        unfold takeMessage
        split <;> rfl
      have nothing : (recvMoved t.kcp.cb false).received = [] := by
        rw [received_recvMoved, taken, List.eq_nil_of_length_eq_zero unbuffered]
        rfl
      have empty : (recvMoved t.kcp.cb false).rcvQueue = [] := (List.append_eq_nil_iff.1 nothing).1
      simp [log, Kcp.peekSize, ikcpPeeksize, empty]
  · cases some

/-- Without a frame `kcp_recv` does nothing. -/
theorem kcpRecv_of_peekSize {frame : Option Bytes} (empty : t.kcp.peekSize = 0)
    (taken : t.kcpRecv = some (frame, t')) : frame = none ∧ ∃ kcp, t' = { t with kcp } := by
  obtain ⟨kcp, ⟨_, nothing, equal⟩ | ⟨bytes, got, _⟩⟩ := kcpRecv_cases taken
  · exact ⟨nothing, kcp, equal⟩
  · obtain ⟨none, _⟩ | ⟨_, positive, _⟩ := Kcp.recvBytes_eq got
    · cases none
    · unfold Kcp.peekSize at empty
      omega

/-! ## The frames in order -/

/-- The SYN frame that the SYN handshake has taken. -/
def synFrame (t : Task) : List Bytes := if t.hs = .syn then [] else [t.handshakeFrame]

/-- The frames returned by `kcp_recv` are the SYN frame, those sent to the output channel and
the stashed one. -/
structure Ordered (t : Task) : Prop where
  ledger : t.received = t.synFrame ++ (t.shown ++ t.txFrame.toList)
  early : t.hs = .syn → t.received = []
  announced : t.hs ≠ .syn → t.hasStream

/-- What the order speaks about. -/
structure Front where
  handshakeFrame : Bytes
  received : List Bytes
  shown : List Bytes
  txFrame : Option Bytes
  announced : Bool

/-- The part of a task that the order speaks about. -/
def front (t : Task) : Front where
  handshakeFrame := t.handshakeFrame
  received := t.received
  shown := t.shown
  txFrame := t.txFrame
  announced := t.hasStream

theorem front_of_aside (same : t'.aside = t.aside) : t'.front = t.front :=
  congrArg (fun aside : Aside => { aside with
    handshakeFrame := aside.cfg.sessionKey ++ aside.sessionId : Front }) same

theorem front_of_kept (same : t'.kept = t.kept) : t'.front = t.front :=
  front_of_aside (congrArg Kept.aside same)

theorem front_log {obs : Obs} (silent : obs.silent) : (t.log obs).front = t.front :=
  front_of_aside (aside_log silent)

theorem front_feed (t : Task) (packets : List Bytes) : (t.feed packets).front = t.front := by
  simp only [front, feed, received, shown, hasStream, List.filterMap_append, List.any_append,
    List.filterMap_map, List.any_map]
  simp [handshakeFrame, Function.comp_def, Obs.popped, Obs.shown, Obs.connects]

/-- Steps that neither return nor show a frame keep the order. -/
theorem Ordered.congr (ordered : t.Ordered) (same : t'.front = t.front)
    (state : t'.hs = .syn ↔ t.hs = .syn) : t'.Ordered := by
  simp only [front, Front.mk.injEq] at same
  obtain ⟨frame, received, shown, stash, announced⟩ := same
  refine ⟨?_, fun early => ?_, fun later => ?_⟩
  · simp only [received, shown, stash, synFrame, frame, state]
    exact ordered.ledger
  · rw [received]
    exact ordered.early (state.1 early)
  · rw [announced]
    exact ordered.announced fun early => later (state.2 early)

/-- After the SYN handshake, frames that are returned and then shown or stashed keep the
order. -/
theorem Ordered.extend (ordered : t.Ordered) (later : t.hs ≠ .syn) (state : t'.hs = t.hs)
    (same : t'.handshakeFrame = t.handshakeFrame) (announced : t'.hasStream = t.hasStream)
    (extra : List Bytes) (received : t'.received = t.received ++ extra)
    (handed : t'.shown ++ t'.txFrame.toList = t.shown ++ t.txFrame.toList ++ extra) :
    t'.Ordered := by
  refine ⟨?_, fun early => absurd (state.symm.trans early) later, fun _ => ?_⟩
  · rw [received, handed, ordered.ledger, synFrame, synFrame, state, same, List.append_assoc]
  · rw [announced]
    exact ordered.announced later

/-- Sending the stashed frame to the output channel keeps the order. -/
theorem Ordered.deliver {frame : Bytes} (ordered : t.Ordered) (later : t.hs ≠ .syn)
    (stash : t.txFrame = some frame) (pc : Pc) :
    ({ t with txFrame := none, pc }.log (.output (.frame frame))).Ordered := by
  refine ordered.extend later rfl rfl ?_ [] ?_ ?_
  · simp [hasStream, log, Obs.connects]
  · simp [received, log, Obs.popped]
  · simp [shown, log, Obs.shown, stash]

/-- In `Syn` nothing is stashed. -/
theorem Ordered.stash_of_syn (ordered : t.Ordered) (state : t.hs = .syn) :
    t.shown = [] ∧ t.txFrame = none := by
  have ledger := ordered.ledger
  rw [ordered.early state, synFrame, if_pos state] at ledger
  simpa using ledger.symm

/-- A point of `run` at which a frame that waits in the engine would stay there. -/
def unattended (t : Task) : Bool :=
  match t.pc with
  | .head | .check | .select | .inputMore | .inputDone _ => true
  | _ => false

/-- A point of `run` between the main `select!` and the next check of the state, when no
packet is taken. -/
def selected (t : Task) : Bool :=
  match t.pc with
  | .select | .inputMore | .inputDone _ | .permitLoop => true
  | _ => false

/-- What the program counter says about the frames. -/
structure Handing (t : Task) : Prop where
  ordered : t.running → t.hs ≠ .disconnected → t.Ordered
  fetched : t.unattended → t.txFrame = none → t.kcp.peekSize = 0
  synFetched : t.pc = .fetch → t.hs = .syn → t.kcp.peekSize = 0
  going : t.selected → t.hs ≠ .disconnected
  looping : t.pc = .permitLoop → t.hs ≠ .syn ∧ t.txFrame = none

/-- The state of the handshake only advances. -/
theorem Move.advances (move : Move ambient t t') : t.hs.rank ≤ t'.hs.rank := by
  have last {hs : Handshake} : hs.rank ≤ Handshake.disconnected.rank := hs.rank_le
  cases move with
  | app event _ acted => obtain ⟨_, _, _, rfl | ⟨_, rfl⟩⟩ := app_eq acted <;> exact le_rfl
  | replySyn _ state | connect _ state | sendFin _ state | pend state | waitPeer state =>
      simp only [log]
      rw [state]
      decide
  | reset | abort | done | expire => exact last
  | recv _ taken => rw [kcpRecv_hs taken]
  | finish =>
      obtain ⟨_, _, _, equal⟩ := finish_eq t
      rw [equal]
  | _ => exact le_rfl

theorem Moves.advances (moves : Moves ambient t t') : t.hs.rank ≤ t'.hs.rank := by
  induction moves with
  | refl => exact le_rfl
  | tail _ move inductionHypothesis => exact inductionHypothesis.trans move.advances

/-- Where no batch ends, a step that does not disconnect keeps being in `Syn` or not. -/
theorem step_state {event : Event} (placed : t.Placed) (stepped : t.step event = some t')
    (elsewhere : t.pc ≠ .batchDone) (alive : t'.hs ≠ .disconnected) :
    t.hs ≠ .disconnected ∧ (t'.hs = .syn ↔ t.hs = .syn) := by
  have advance := (step_moves placed stepped).advances
  refine ⟨fun finished => alive ?_, fun early => ?_, fun early => ?_⟩
  · rw [← Handshake.le_rank]
    rwa [finished] at advance
  · rw [early] at advance
    exact Handshake.rank_eq_zero.1 (Nat.le_zero.1 advance)
  · rcases step_early stepped early with ⟨done, _⟩ | same | finished
    · exact absurd done elsewhere
    · exact same
    · exact absurd finished alive

theorem receiver_processInput {frame : Bytes} (moved : t.processInput frame = some t') :
    t'.kcp.cb.receiver = t.kcp.cb.receiver ∧ t'.aside = t.aside := by
  unfold processInput at moved
  split at moved
  · cases moved
  · rename_i size kcp sent
    cases moved
    exact ⟨Kcp.receiver_of_send sent, aside_log rfl⟩
  · rename_i error kcp refused
    cases moved
    exact ⟨Kcp.receiver_of_send refused, aside_log rfl⟩

/-- Outside the loop there is nothing to say. -/
theorem handing_of_stopped (stopped : t.running = false) : t.Handing := by
  constructor
  · simp [stopped]
  all_goals
    unfold running at stopped
    split at stopped <;> simp_all [unattended, selected]

theorem running_of_unattended (inside : t.unattended) : t.running := by
  unfold unattended at inside
  unfold running
  split at inside <;> simp_all

/-- A step between unattended points that touches neither the receive side nor a frame. -/
theorem Handing.quiet (handing : t.Handing) (inside : t.unattended) (same : t'.front = t.front)
    (receiver : t'.kcp.cb.receiver = t.kcp.cb.receiver)
    (state : t'.hs ≠ .disconnected → t.hs ≠ .disconnected ∧ (t'.hs = .syn ↔ t.hs = .syn))
    (going : t'.selected → t'.hs ≠ .disconnected) (pc : t'.unattended) : t'.Handing where
  ordered _ alive := (handing.ordered (running_of_unattended inside) (state alive).1).congr same
    (state alive).2
  fetched _ unstashed := by
    rw [Kcp.peekSize_congr receiver]
    exact handing.fetched inside ((congrArg Front.txFrame same).symm.trans unstashed)
  synFetched at_ := by simp [unattended, at_] at pc
  going := going
  looping at_ := by simp [unattended, at_] at pc

/-- A stashed frame is sent to the output channel. -/
theorem Handing.permit {frame : Bytes} (handing : t.Handing) (inside : t.pc = .select)
    (stash : t.txFrame = some frame) :
    ({ t with txFrame := none, pc := .permitLoop }.log (.output (.frame frame))).Handing := by
  have alive := handing.going (by simp [selected, inside])
  have ordered := handing.ordered (running_of_unattended (by simp [unattended, inside])) alive
  have later : t.hs ≠ .syn := by
    intro early
    have unstashed := (ordered.stash_of_syn early).2
    rw [stash] at unstashed
    cases unstashed
  refine ⟨fun _ _ => ordered.deliver later stash .permitLoop, ?_, ?_, fun _ => alive,
    fun _ => ⟨later, rfl⟩⟩
  · simp [unattended, log]
  · simp [log]

/-- What a call of `kcp_recv` outside the SYN handshake does to the order. -/
theorem Ordered.kcpRecv {frame : Option Bytes} (ordered : t.Ordered) (later : t.hs ≠ .syn)
    (unstashed : t.txFrame = none) (taken : t.kcpRecv = some (frame, t')) :
    { t' with txFrame := frame }.Ordered := by
  have same := kcpRecv_aside taken
  simp only [aside, Aside.mk.injEq] at same
  obtain ⟨cfg, _, sessionId, _, _, _, _, _, received, shown, announced, _⟩ := same
  have state : t'.hs = t.hs := kcpRecv_hs taken
  refine ordered.extend later state ?_ announced frame.toList received ?_
  · simp only [handshakeFrame, cfg, sessionId]
  · simp only [Task.shown] at shown ⊢
    rw [shown, unstashed]
    simp

/-- A further frame is sent to the output channel. -/
theorem Handing.more {frame : Bytes} {later : Task} (handing : t.Handing) (inside : t.pc = .permitLoop)
    (taken : t.kcpRecv = some (some frame, later)) : (later.log (.output (.frame frame))).Handing := by
  have alive := handing.going (by simp [selected, inside])
  obtain ⟨started, unstashed⟩ := handing.looping inside
  have ordered := (handing.ordered (by simp [running, inside]) alive).kcpRecv started unstashed taken
  have state : later.hs = t.hs := kcpRecv_hs taken
  have same := kcpRecv_aside taken
  have pc : later.pc = .permitLoop := (congrArg Aside.pc same).trans inside
  have stash : later.txFrame = none := (congrArg Aside.txFrame same).trans unstashed
  have delivered := ordered.deliver (state ▸ started) rfl .permitLoop
  refine ⟨fun _ _ => delivered.congr ?_ Iff.rfl, ?_, ?_, fun _ => ?_, fun _ => ⟨?_, stash⟩⟩
  · simp only [front, log, stash]
    rfl
  · simp [unattended, log, pc]
  · simp [log, pc]
  · simpa [log, state] using alive
  · simpa [log, state] using started

/-- The output channel is full, and the frame is stashed. -/
theorem Handing.stash {frame : Bytes} {later : Task} (handing : t.Handing) (inside : t.pc = .permitLoop)
    (taken : t.kcpRecv = some (some frame, later)) :
    { later with txFrame := some frame, pc := .head }.Handing := by
  have alive := handing.going (by simp [selected, inside])
  obtain ⟨started, unstashed⟩ := handing.looping inside
  have ordered := (handing.ordered (by simp [running, inside]) alive).kcpRecv started unstashed taken
  refine ⟨fun _ _ => ordered.congr rfl Iff.rfl, ?_, ?_, ?_, ?_⟩ <;> simp [selected]

/-- No frame is left. -/
theorem Handing.emptied {later : Task} (handing : t.Handing) (counted : t.kcp.cb.Counted)
    (inside : t.pc = .permitLoop) (taken : t.kcpRecv = some (none, later)) :
    { later with pc := .head }.Handing := by
  have alive := handing.going (by simp [selected, inside])
  obtain ⟨started, unstashed⟩ := handing.looping inside
  have ordered := (handing.ordered (by simp [running, inside]) alive).kcpRecv started unstashed taken
  have stash : later.txFrame = none := (congrArg Aside.txFrame (kcpRecv_aside taken)).trans unstashed
  have empty := peekSize_kcpRecv counted taken
  refine ⟨fun _ _ => ordered.congr ?_ Iff.rfl, fun _ _ => empty, ?_, ?_, ?_⟩
  · simp only [front, stash]
    rfl
  · simp
  · simp [selected]
  · simp

/-- Taking a packet. -/
theorem Handing.packet {packet : Bytes} {room : Nat} {later : Task} (handing : t.Handing)
    (inside : t.running) (taken : t.kcpInput packet = some later)
    (state : later.hs ≠ .disconnected → t.hs ≠ .disconnected ∧ (later.hs = .syn ↔ t.hs = .syn)) :
    { later with pc := .batch room }.Handing := by
  have front : later.front = t.front := front_of_aside (kcpInput_aside taken)
  refine ⟨fun _ alive => ?_, ?_, ?_, ?_, ?_⟩
  · exact (handing.ordered inside (state alive).1).congr front (state alive).2
  all_goals simp [unattended, selected]

/-- A batch ends while a frame is stashed. -/
theorem Handing.held (handing : t.Handing) (inside : t.pc = .fetch) (stash : t.txFrame.isSome) :
    { t.kcpFlush with pc := .head }.Handing := by
  have front : t.kcpFlush.front = t.front := front_of_kept (kept_kcpFlush t)
  have state := hs_kcpFlush t
  refine ⟨fun _ alive => ?_, fun _ unstashed => ?_, ?_, ?_, ?_⟩
  · exact (handing.ordered (by simp [running, inside]) (state ▸ alive)).congr front (by rw [state])
  · have none : t.txFrame = none := (congrArg Front.txFrame front).symm.trans unstashed
    rw [none] at stash
    cases stash
  all_goals simp [selected]

/-- A batch ends with the fetch of a frame. -/
theorem Handing.fetch {frame : Option Bytes} {later : Task} (handing : t.Handing)
    (counted : t.kcp.cb.Counted) (inside : t.pc = .fetch) (unstashed : t.txFrame = none)
    (taken : t.kcpRecv = some (frame, later)) :
    { { later with txFrame := frame }.kcpFlush with pc := .head }.Handing := by
  have same : { later with txFrame := frame }.kcpFlush.kept = { later with txFrame := frame }.kept :=
    kept_kcpFlush _
  have front : { later with txFrame := frame }.kcpFlush.front = { later with txFrame := frame }.front :=
    front_of_kept same
  have before : later.hs = t.hs := kcpRecv_hs taken
  have state : { later with txFrame := frame }.kcpFlush.hs = t.hs := (hs_kcpFlush _).trans before
  refine ⟨fun _ alive => ?_, fun _ nothing => ?_, ?_, ?_, ?_⟩
  · have ordered := handing.ordered (by simp [running, inside]) (state ▸ alive)
    refine Ordered.congr (t := { later with txFrame := frame }) ?_ front (by rw [hs_kcpFlush])
    by_cases early : t.hs = .syn
    · obtain ⟨rfl, kcp, rfl⟩ := kcpRecv_of_peekSize (handing.synFetched inside early) taken
      exact ordered.congr (by simp only [Task.front, unstashed]; rfl) Iff.rfl
    · exact ordered.kcpRecv early unstashed taken
  · have none : frame = none := (congrArg Front.txFrame front).symm.trans nothing
    subst none
    have empty := peekSize_kcpRecv counted taken
    rw [Kcp.peekSize_congr (congrArg Kept.receiver same)]
    exact empty
  all_goals simp [selected]

/-! ## The SYN frame -/

theorem trace_handshakeSend {kind : FrameKind} (sent : t.handshakeSend kind = some t') :
    ∃ record, t'.trace = t.trace ++ [.send record] := by
  obtain ⟨_, _, _, rfl⟩ := handshakeSend_eq sent
  exact ⟨_, trace_kcpFlush _⟩

theorem connect_true (connected : t.connect = (true, t')) : t'.hs = .connected ∧
    t'.aside = { t.aside with announced := true, reports := t.reports + 1 } ∧
    t'.trace = t.trace ++ [.output (.connected t'.kcp.cb.conv)] := by
  obtain ⟨_, rfl⟩ | ⟨failed, _⟩ := connect_cases connected
  · refine ⟨rfl, ?_, rfl⟩
    simp [aside, log, received, shown, hasStream, reports, Obs.popped, Obs.shown, Obs.connects]
  · cases failed

/-- What the SYN handshake does when it succeeds: it has found no frame, or it has taken the
session key and a session id, which for a client is its own, and reports the connection. -/
theorem synHandshakeRecv_true (received : t.synHandshakeRecv = some (true, t')) :
    t.kcpRecv = some (none, t') ∨ ∃ id replies, id.length = t.cfg.sessionIdLen ∧
      (t.client → id = t.sessionId) ∧ (∀ obs ∈ replies, obs.silent) ∧ t'.hs = .connected ∧
      t'.aside = { t.aside with
        sessionId := id
        received := t.received ++ [t.cfg.sessionKey ++ id]
        announced := true
        reports := t.reports + 1 } ∧
      t'.trace = t.trace ++ .recv (t.cfg.sessionKey ++ id) ::
        (replies ++ [.output (.connected t'.kcp.cb.conv)]) := by
  obtain ⟨_, idle⟩ | ⟨syn, later, taken, outcome⟩ := synHandshakeRecv_cases received
  · exact .inl idle
  · obtain ⟨kcp, _, _, equal⟩ := kcpRecv_some taken
    have same := kcpRecv_aside taken
    have trace : later.trace = t.trace ++ [.recv syn] := by rw [equal]; rfl
    have reports : later.reports = t.reports := congrArg Aside.reports same
    have frame {id : Bytes} (valid : later.synSessionId syn = some id) :
        syn = t.cfg.sessionKey ++ id ∧ id.length = t.cfg.sessionIdLen := by
      rw [← show later.cfg = t.cfg from congrArg Aside.cfg same]
      exact ⟨eq_append_of_synSessionId valid, length_of_synSessionId valid⟩
    obtain ⟨failed, _⟩ | ⟨_, valid, connected⟩ | ⟨server, id, sent, valid, accepted, connected⟩ :=
      outcome
    · cases failed
    · obtain ⟨rfl, length⟩ := frame valid
      obtain ⟨state, aside, extra⟩ := connect_true connected
      have own : later.sessionId = t.sessionId := congrArg Aside.sessionId same
      have quiet : later.kcpApplyNodelay.aside = later.aside := rfl
      have reports' : later.kcpApplyNodelay.reports = t.reports := reports
      refine .inr ⟨later.sessionId, [], length, fun _ => own, by simp, state, ?_, ?_⟩
      · rw [aside, quiet, same, reports', own]
        rfl
      · rw [extra]
        exact (congrArg (· ++ _) trace).trans (List.append_assoc _ _ _)
    · obtain ⟨rfl, length⟩ := frame valid
      obtain ⟨state, aside, extra⟩ := connect_true connected
      obtain ⟨record, replied⟩ := trace_handshakeSend accepted
      have quiet : sent.aside = { later.aside with sessionId := id } :=
        congrArg Kept.aside (kept_handshakeSend accepted)
      have client : t.client = false := (congrArg Aside.client same).symm.trans server
      have reports' : sent.reports = t.reports := (congrArg Aside.reports quiet).trans reports
      refine .inr ⟨id, [.send record], length, fun isClient => ?_, by simp [Obs.silent, Obs.popped,
        Obs.shown, Obs.connects], state, ?_, ?_⟩
      · rw [client] at isClient
        cases isClient
      · rw [aside, quiet, same, reports']
        rfl
      · have before : sent.trace = later.trace ++ [.send record] := replied
        rw [extra, before, trace]
        simp

/-- The frame taken by the SYN handshake is the first one returned. -/
theorem Handing.greeted {later : Task} (handing : t.Handing) (counted : t.kcp.cb.Counted)
    (inside : t.pc = .batchDone) (early : t.hs = .syn)
    (received : t.synHandshakeRecv = some (true, later)) : { later with pc := .fetch }.Handing := by
  have ordered := handing.ordered (by simp [running, inside]) (by simp [early])
  obtain idle | ⟨id, replies, _, _, _, state, same, _⟩ := synHandshakeRecv_true received
  · have same := kcpRecv_aside idle
    have state : later.hs = t.hs := kcpRecv_hs idle
    have front : later.front = t.front := by
      refine front_of_aside (same.trans ?_)
      simp [aside]
    have empty := peekSize_kcpRecv counted idle
    refine ⟨fun _ _ => ordered.congr front (by rw [state]), ?_, fun _ _ => empty, ?_, ?_⟩
    all_goals simp [unattended, selected]
  · simp only [aside, Aside.mk.injEq] at same
    obtain ⟨cfg, _, sessionId, _, _, _, txFrame, _, received, shown, announced, _⟩ := same
    have nothing := ordered.stash_of_syn early
    have ledger : later.received = [later.handshakeFrame] ++ (later.shown ++ later.txFrame.toList) := by
      rw [received, shown, txFrame, nothing.1, nothing.2, ordered.early early, handshakeFrame, cfg,
        sessionId]
      rfl
    refine ⟨fun _ _ => ⟨?_, ?_, fun _ => announced⟩, ?_, ?_, ?_, ?_⟩
    · rw [synFrame, if_neg (by simp [state])]
      exact ledger
    · simp [state]
    all_goals simp [unattended, selected, state]

theorem BatchEnd.handing (ended : t.BatchEnd t') (handing : t.Handing) (counted : t.kcp.cb.Counted)
    (inside : t.pc = .batchDone) : t'.Handing := by
  have running : t.running := by simp [Task.running, inside]
  cases ended with
  | greeted early received => exact handing.greeted counted inside early received
  | refused =>
      refine ⟨fun _ alive => absurd rfl alive, ?_, ?_, ?_, ?_⟩
      all_goals simp [unattended, selected]
  | @closing later started finishing transit =>
      have front : later.front = t.front := front_of_kept (kept_finTransitLoop transit)
      have state := finTransitState_not_syn transit
      have alive : t.hs ≠ .disconnected := by
        intro finished
        simp [isFinHandshake, finished] at finishing
      refine ⟨fun _ _ => (handing.ordered running alive).congr front (by simp [state, started]), ?_,
        fun _ early => absurd early state, ?_, ?_⟩
      all_goals simp [unattended, selected]
  | passed started =>
      refine ⟨fun _ alive => (handing.ordered running alive).congr rfl Iff.rfl, ?_,
        fun _ early => absurd early started, ?_, ?_⟩
      all_goals simp [unattended, selected]
  | panic => exact handing_of_stopped rfl

theorem TakesInput.inside {event : Event} (takes : t.TakesInput event) : t.unattended ∧ t.selected := by
  obtain ⟨_, pc, _⟩ | ⟨_, pc⟩ := takes <;> exact ⟨by simp [unattended, pc], by simp [selected, pc]⟩

/-- Every step keeps the frames in order. -/
theorem step_handing {event : Event} (placed : t.Placed) (counted : t.kcp.cb.Counted)
    (handing : t.Handing) (stepped : t.step event = some t') : t'.Handing := by
  have state := step_state placed stepped
  cases transition_of_step stepped with
  | app acted =>
      obtain ⟨inputRx, token, outputOpen, rfl | ⟨frame, rfl⟩⟩ := app_eq acted
      · exact ⟨fun inside alive => (handing.ordered inside alive).congr rfl Iff.rfl, handing.fetched,
          handing.synFetched, handing.going, handing.looping⟩
      · exact ⟨fun inside alive => (handing.ordered inside alive).congr (front_log rfl) Iff.rfl,
          handing.fetched, handing.synFetched, handing.going, handing.looping⟩
  | fed pc =>
      refine handing.quiet (by simp [unattended, pc]) ((front_feed _ _).trans rfl) rfl
        (fun alive => ⟨alive, Iff.rfl⟩) ?_ rfl
      simp [selected, feed]
  | timeout pc =>
      exact handing.quiet (by simp [unattended, pc]) rfl rfl (fun still => absurd rfl still)
        (by simp [selected]) rfl
  | update pc alive =>
      exact handing.quiet (by simp [unattended, pc]) rfl (receiver_ikcpUpdate _ _)
        (fun _ => ⟨alive, Iff.rfl⟩) (by simp [selected]) rfl
  | wait pc alive =>
      exact handing.quiet (by simp [unattended, pc]) rfl rfl (fun _ => ⟨alive, Iff.rfl⟩)
        (fun _ => alive) rfl
  | frame takes _ _ sent =>
      obtain ⟨unattended, selected⟩ := takes.inside
      obtain ⟨receiver, same⟩ := receiver_processInput sent
      have alive := handing.going selected
      have front := (front_of_aside same).trans rfl
      have kept := (processInput_hs sent).trans rfl
      exact handing.quiet unattended front receiver (fun _ => ⟨alive, by rw [kept]⟩)
        (fun _ => by rwa [kept]) rfl
  | inputEnd takes =>
      have alive := handing.going takes.inside.2
      exact handing.quiet takes.inside.1 rfl rfl (fun _ => ⟨alive, Iff.rfl⟩) (fun _ => alive) rfl
  | inputClosed pc transit =>
      have same := (kept_kcpFlush _).trans (kept_finTransitLoop transit)
      have front := (front_of_kept same).trans rfl
      have receiver := congrArg Kept.receiver same
      exact handing.quiet (by simp [unattended, pc]) front receiver (state (by simp [pc]))
        (by simp [selected]) rfl
  | inputFlush pc =>
      have front := front_of_kept (kept_kcpFlush t)
      have receiver := congrArg Kept.receiver (kept_kcpFlush t)
      exact handing.quiet (by simp [unattended, pc]) front receiver (state (by simp [pc]))
        (by simp [selected]) rfl
  | permit pc stash => exact handing.permit pc stash
  | more pc taken => exact handing.more pc taken
  | stash pc taken => exact handing.stash pc taken
  | emptied pc taken => exact handing.emptied counted pc taken
  | packet takes taken =>
      exact handing.packet (placed.takesPacket takes).1 taken
        (state (by rcases takes with ⟨pc, _⟩ | pc <;> simp [pc]))
  | noPacket pc =>
      refine ⟨fun _ alive => (handing.ordered (by simp [running, pc]) alive).congr rfl Iff.rfl, ?_, ?_,
        ?_, ?_⟩
      all_goals simp [unattended, selected]
  | batchDone pc ended => exact ended.handing handing counted pc
  | held pc stash => exact handing.held pc stash
  | fetched pc unstashed taken => exact handing.fetch counted pc unstashed taken
  | sleep pc =>
      exact handing.quiet (by simp [unattended, pc]) rfl rfl (fun alive => ⟨alive, Iff.rfl⟩)
        (by simp [selected]) rfl
  | thrown pc => exact handing_of_stopped (by simp [running, log, pc])
  | finish =>
      obtain ⟨_, _, _, equal⟩ := finish_eq t
      exact handing_of_stopped (by rw [equal]; rfl)
  | _ => exact handing_of_stopped rfl

/-! ## The wait -/

/-- The main `select!` is entered from the check of the state, which leaves the receive side as it
is. -/
theorem step_select {event : Event} (stepped : t.step event = some t') (waiting : t'.pc = .select) :
    t'.kcp.cb.receiver = t.kcp.cb.receiver := by
  cases transition_of_step stepped with
  | app acted => obtain ⟨_, _, _, rfl | ⟨_, rfl⟩⟩ := app_eq acted <;> rfl
  | wait => rfl
  | more pc taken =>
      have inside := (congrArg Aside.pc (kcpRecv_aside taken)).trans pc
      exact absurd (inside.symm.trans waiting) (by simp)
  | batchDone _ ended => cases ended <;> cases waiting
  | thrown pc => exact absurd (pc.symm.trans waiting) (by simp)
  | finish =>
      obtain ⟨_, _, _, equal⟩ := finish_eq t
      rw [equal] at waiting
      cases waiting
  | _ => cases waiting

end Task

/-- What a complete first message measures is part of the receive side. -/
theorem Kcp.HeadMeasured.congr {kcp kcp' : Kcp} (measured : kcp.HeadMeasured)
    (same : kcp'.cb.receiver = kcp.cb.receiver) : kcp'.HeadMeasured := by
  simp only [Ikcpcb.receiver, Ikcpcb.Receiver.mk.injEq] at same
  simpa only [HeadMeasured, Ikcpcb.HeadComplete, Ikcpcb.headLength, same] using measured

/-- When a complete first message is neither empty nor too long and `Kcp::peek_size` finds none, no
complete message waits. -/
theorem Kcp.waitingMessages_of_peekSize {kcp : Kcp} (counted : kcp.cb.Counted)
    (measured : kcp.HeadMeasured) (nothing : kcp.peekSize = 0) : kcp.cb.waitingMessages = [] := by
  refine Ikcpcb.waitingMessages_of_incomplete counted.rcvQueue fun complete => ?_
  obtain ⟨least, most⟩ := measured complete
  have size := Kcp.peekSize_of_positive (Ikcpcb.ikcpPeeksize_positive_iff.2 ⟨complete, by omega⟩)
  omega

/-- Every reachable task has its frames in order. -/
theorem reach_handing {config : Config} {allow : Task → Event → Prop} {t : Task}
    (reach : (taskMachine config).Reach allow t) : t.Handing := by
  refine reach.invariant Task.Handing (fun t initial => ?_)
    (fun t event next prior handing _ stepped => Task.step_handing (reach_placed prior)
      (reach_counted prior) handing stepped)
  obtain ⟨conv, id, clock, started⟩ : ∃ conv id clock, Task.start config conv id clock = some t := by
    obtain ⟨id, clock, _, started⟩ | ⟨conv, _, clock, started⟩ := initial <;>
      exact ⟨_, _, clock, started⟩
  obtain ⟨fresh, isFresh, same, receiver, state⟩ := Task.start_aside started
  have pc : t.pc = .head := (congrArg Task.Aside.pc same).trans isFresh.pc
  have nothing : t.received = [] ∧ t.shown = [] ∧ t.txFrame = none := by
    refine ⟨(congrArg Task.Aside.received same).trans ?_, (congrArg Task.Aside.shown same).trans ?_,
      (congrArg Task.Aside.txFrame same).trans isFresh.txFrame⟩ <;>
      simp [Task.aside, Task.received, Task.shown, isFresh.trace]
  refine ⟨fun _ _ => ⟨?_, fun _ => nothing.1, fun later => absurd state later⟩, fun _ _ => ?_, ?_, ?_, ?_⟩
  · simp [nothing, Task.synFrame, state]
  · rw [Kcp.peekSize_congr receiver, Kcp.peekSize, ikcpPeeksize, isFresh.empty.rcvQueue]
    rfl
  all_goals simp [pc, Task.selected]

/-- When `kcp_recv` never meets a complete first message that is empty or too long, no such message
is there while the loop waits. -/
theorem reach_measured {config : Config} {allow : Task → Event → Prop} {t : Task}
    (reach : (taskMachine config).Reach allow t)
    (measured : ∀ t event, allow t event → t.kcp.HeadMeasured) (waiting : t.pc = .select) :
    t.kcp.HeadMeasured := by
  cases reach with
  | initial initial =>
      obtain ⟨_, _, _, started⟩ | ⟨_, _, _, started⟩ := initial <;>
        exact absurd waiting (by rw [Task.start_pc started]; exact nofun)
  | step prior permitted stepped =>
      exact (measured _ _ permitted).congr (Task.step_select stepped waiting)

/-- Where the loop waits in its main `select!`, the frames that `kcp_recv` has returned are the SYN
frame, those sent to the output channel and the stashed one, in this order. Without a stashed one
`Kcp::peek_size` finds no frame, and no complete message waits in the engine when at every step so
far a complete first message was neither empty nor of `2 ^ 31` bytes or more. -/
theorem frames_in_order {config : Config} {allow : Task → Event → Prop} {t : Task}
    (reach : (taskMachine config).Reach allow t) (waiting : t.pc = .select) :
    t.received = t.synFrame ++ (t.shown ++ t.txFrame.toList) ∧
      (t.txFrame = none → t.kcp.peekSize = 0) ∧
        ((∀ t event, allow t event → t.kcp.HeadMeasured) →
          t.txFrame = none → t.kcp.cb.waitingMessages = []) := by
  have handing := reach_handing reach
  have alive := handing.going (by simp [Task.selected, waiting])
  have ordered := handing.ordered (by simp [Task.running, waiting]) alive
  have fetched := handing.fetched (by simp [Task.unattended, waiting])
  refine ⟨ordered.ledger, fetched, fun measured unstashed => ?_⟩
  exact Kcp.waitingMessages_of_peekSize (reach_counted reach) (reach_measured reach measured waiting)
    (fetched unstashed)

/-- After the SYN reply of conv 1, two frames of the peer. -/
def peerFrameEvents (first second : Bytes) : List Event :=
  replyEvents ++ [.tau, .tau, .drain .sent, .tau,
    .packet (encodePacket [pushSeg 1 1 1 first, pushSeg 1 2 1 second]), .noPacket, .tau, .tau,
    .drain .sent, .tau]

/-- The first frame is sent to the output channel, the second has to wait for a permit. -/
def twoFrameEvents : List Event :=
  peerFrameEvents [8] [9] ++ [.reserve true, .tryReserve false, .drain .sent, .tau]

/-- A task with one frame shown and one stashed, which is shown later. -/
theorem frames_in_order_stashed : ∃ t t' : Task, t.pc = .select ∧ t.shown = [[8]] ∧
    t.txFrame = some [9] ∧ t.received = t.synFrame ++ [[8], [9]] ∧ t'.pc = .select ∧
      t'.received = t'.synFrame ++ [[8], [9]] ∧ t'.txFrame = none ∧ t'.kcp.peekSize = 0 ∧
        t'.kcp.cb.waitingMessages = [] := by
  let permits := fun (t : Task) (_ : Event) => decide t.kcp.HeadMeasured
  have permitted (t : Task) (event : Event) (holds : permits t event) : t.kcp.HeadMeasured :=
    of_decide_eq_true holds
  have stash : (clientRun sampleConfig [7] (fun _ => 0) permits twoFrameEvents).map
      (fun t => (t.pc, t.shown, t.txFrame)) = some (.select, [[8]], some [9]) := by
    decide +kernel
  have later : (clientRun sampleConfig [7] (fun _ => 0) permits
      (twoFrameEvents ++ [.reserve true, .tryReserve true, .drain .sent, .tau])).map
        (fun t => (t.pc, t.shown, t.txFrame)) = some (.select, [[8], [9]], none) := by
    decide +kernel
  obtain ⟨t, executed, view⟩ := Option.map_eq_some_iff.1 stash
  obtain ⟨t', executed', view'⟩ := Option.map_eq_some_iff.1 later
  simp only [Prod.mk.injEq] at view view'
  obtain ⟨waiting, shown, stashed⟩ := view
  obtain ⟨waiting', shown', unstashed⟩ := view'
  have ledger := (frames_in_order (reach_of_clientRun permitted rfl executed) waiting).1
  have order := frames_in_order (reach_of_clientRun permitted rfl executed') waiting'
  rw [shown, stashed] at ledger
  rw [shown', unstashed] at order
  exact ⟨t, t', waiting, shown, stashed, ledger, waiting', order.1, unstashed, order.2.1 rfl,
    order.2.2 (fun _ _ => id) rfl⟩

/-- The peer's frame behind an empty one waits in the engine, which `Kcp::peek_size` takes for
empty, and nothing wakes the loop for it. -/
theorem frames_in_order_stranded : ¬ ∀ t, (taskMachine sampleConfig).Reachable t → t.pc = .select →
    t.txFrame = none → t.kcp.peekSize = 0 ∧ ∀ message ∈ t.kcp.cb.waitingMessages, message = [] := by
  intro claim
  have run : (clientRun sampleConfig [7] (fun _ => 0) (fun _ _ => true)
      (peerFrameEvents [] [9])).map (fun t => (t.pc, t.txFrame, t.kcp.cb.waitingMessages)) =
        some (.select, none, [[], [9]]) := by
    decide +kernel
  obtain ⟨t, executed, view⟩ := Option.map_eq_some_iff.1 run
  simp only [Prod.mk.injEq] at view
  obtain ⟨waiting, unstashed, messages⟩ := view
  have nothing := (claim t (reach_of_clientRun (fun _ _ _ => trivial) rfl executed) waiting
    unstashed).2 [9] (by rw [messages]; decide)
  cases nothing

end KcpRs
