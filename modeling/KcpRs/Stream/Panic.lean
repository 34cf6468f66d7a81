import KcpRs.Stream.Packing
import KcpRs.Wrapper.Receiving

/-!
# What packets can do to the task

A task panics where a return value of the engine is not one that the wrapper matches, where
a byte of a packet is out of range, and where `handshake_send` unwraps a refusal. The first
two are facts of the engine. The third rests on the handshake frame: a client has already
sent it when its loop begins, and a server sends what it has just received, so its length is
one that `ikcp_send` takes (`Sendable`). No packet does any of this, but packets can queue a
message that `Kcp::recv_bytes` writes past the end of its buffer (`no_packet_panics`).
-/

namespace KcpRs

open Lib Relation

/-- A frame that `Kcp::send` takes has a length that is a C integer. -/
theorem Kcp.lt_of_send {kcp kcp' : Kcp} {frame : Bytes} {size : Nat}
    (small : frame.length < 2 ^ 32) (sent : kcp.send frame = some (.ok size, kcp')) :
    frame.length < 2 ^ 31 := by
  obtain ⟨rfl, _⟩ | ⟨_, code, _⟩ := Kcp.send_eq sent
  · exact Nat.two_pow_pos 31
  · by_contra large
    have negative : (BitVec.ofNat 32 frame.length).toInt < 0 := by
      rw [BitVec.toInt_eq_toNat_cond, BitVec.toNat_ofNat, Nat.mod_eq_of_lt small]
      split <;> omega
    rw [ikcpSend, if_pos negative] at code
    simp [sendResult] at code

/-- So has a frame that `Kcp::recv_bytes` returns. -/
theorem Kcp.lt_of_recvBytes {kcp kcp' : Kcp} {frame : Bytes} (small : frame.length < 2 ^ 32)
    (got : kcp.recvBytes = some (some frame, kcp')) : frame.length < 2 ^ 31 := by
  obtain ⟨none, _⟩ | ⟨_, positive, equal, _⟩ := Kcp.recvBytes_eq got
  · cases none
  · cases equal
    by_contra large
    rw [ikcpPeeksize_eq positive.le, wrap32, Int.bmod_eq_emod] at positive
    split at positive <;> omega

/-- The SYN and FIN frames of a configuration are no larger than `max_frame_size`. -/
def Config.Bounded (config : Config) : Prop :=
  config.sessionKey.length + config.sessionIdLen ≤ (Kcp.maxFrameSize config.mtu).toNat

namespace Task

variable {ambient : Ambient} {config : Config} {t t' : Task}

theorem fits_handshake {id : Bytes} (bounded : config.Bounded)
    (length : id.length = config.sessionIdLen)
    (small : (config.sessionKey ++ id).length < 2 ^ 32 → (config.sessionKey ++ id).length < 2 ^ 31) :
    config.fits (config.sessionKey ++ id) := by
  have most := (Kcp.maxFrameSize config.mtu).isLt
  unfold Config.Bounded at bounded
  rw [List.length_append, length] at small
  simp only [Config.fits, Bool.and_eq_true, decide_eq_true_eq, List.length_append, length]
  exact ⟨bounded, small (by omega)⟩

/-- A client, and a server after its SYN handshake, has a handshake frame that `ikcp_send`
takes. -/
structure Sendable (config : Config) (t : Task) : Prop where
  cfg : t.cfg = config
  fits : t.client ∨ t.hs ≠ .syn ∧ t.hs ≠ .disconnected → config.fits t.handshakeFrame

theorem Move.sendable (move : Move ambient t t') (bounded : config.Bounded)
    (holds : t.Sendable config) : t'.Sendable config := by
  refine ⟨move.identity.1.trans holds.cfg, ?_⟩
  have fits := holds.fits
  cases move with
  | app event _ acted => obtain ⟨_, _, _, rfl | ⟨_, rfl⟩⟩ := app_eq acted <;> exact fits
  | replySyn server state popped valid sent =>
      intro _
      have length := length_of_synSessionId valid
      rw [holds.cfg] at length sent
      have frame := fits_handshake bounded length fun small => Kcp.lt_of_send small sent
      simp only [handshakeFrame, log]
      rwa [holds.cfg]
  | connect client => exact fun _ => fits (.inl client)
  | sendFin _ state | pend state | waitPeer state =>
      exact fun _ => fits (.inr (by simp [state]))
  | reset | abort | done | expire =>
      exact fun kept => fits (kept.imp_right fun both => absurd rfl both.2)
  | recv _ taken =>
      obtain ⟨kcp, ⟨_, _, rfl⟩ | ⟨_, _, ⟨_, _, rfl⟩ | ⟨_, _, rfl⟩⟩⟩ := kcpRecv_cases taken <;>
        exact fits
  | finish =>
      obtain ⟨_, _, _, equal⟩ := finish_eq t
      rw [equal]
      exact fits
  | _ => exact fits

/-! ## Functions that return -/

theorem handshakeSend_isSome (configured : t.kcp.cb.Configured config)
    (fits : config.fits t.handshakeFrame) (kind : FrameKind) : (t.handshakeSend kind).isSome := by
  unfold handshakeSend
  dsimp only
  obtain ⟨⟨result, kcp⟩, sent⟩ := Option.isSome_iff_exists.1 (Kcp.send_isSome t.kcp t.handshakeFrame)
  obtain ⟨size, rfl⟩ := Kcp.send_ok configured fits sent
  rw [show handshakeFrame { t with flush := true } = t.handshakeFrame from rfl, sent]
  rfl

/-- From `FinSent` on nothing is sent. -/
theorem finTransitLoop_isSome_of_late {fuel : Nat} (late : Handshake.finSent.rank ≤ t.hs.rank) :
    (finTransitLoop fuel t).isSome := by
  induction fuel generalizing t with
  | zero => rfl
  | succ fuel inductionHypothesis =>
      unfold finTransitLoop
      cases state : t.hs with
      | syn | connected | finPending => simp [state, Handshake.rank] at late
      | finSent | finWaitPeer =>
          dsimp only
          split
          · rfl
          · exact inductionHypothesis (by simp [Handshake.rank])
      | disconnected => rfl

theorem finTransitLoop_isSome {fuel : Nat} (configured : t.kcp.cb.Configured config)
    (sendable : t.Sendable config) : (finTransitLoop fuel t).isSome := by
  induction fuel generalizing t with
  | zero => rfl
  | succ fuel inductionHypothesis =>
      unfold finTransitLoop
      cases state : t.hs with
      | syn => exact finTransitLoop_isSome_of_late (by simp [Handshake.rank])
      | connected =>
          refine inductionHypothesis configured ⟨sendable.cfg, fun _ => ?_⟩
          exact sendable.fits (.inr (by simp [state]))
      | finPending =>
          dsimp only
          split
          · rfl
          · have fits := sendable.fits (.inr (by simp [state]))
            obtain ⟨sent, accepted⟩ :=
              Option.isSome_iff_exists.1 (handshakeSend_isSome configured fits .fin)
            rw [accepted]
            exact finTransitLoop_isSome_of_late (by simp [Handshake.rank])
      | finSent | finWaitPeer =>
          dsimp only
          split
          · rfl
          · exact finTransitLoop_isSome_of_late (by simp [Handshake.rank])
      | disconnected => rfl

theorem finInput_isSome (configured : t.kcp.cb.Configured config) (sendable : t.Sendable config)
    (packet : Bytes) (cmd : Byte) : (t.finInput packet cmd).isSome := by
  unfold finInput
  dsimp only
  obtain ⟨later, transit⟩ : ∃ later, (if t.finRecved then t else { t with
      finRecved := true, inputRx := { t.inputRx with rxClosed := true } }).finTransitState =
        some later := by
    rw [← Option.isSome_iff_exists]
    split
    · exact finTransitLoop_isSome configured sendable
    · exact finTransitLoop_isSome configured ⟨sendable.cfg, sendable.fits⟩
  rw [transit]
  dsimp only
  rw [Option.isSome_map]
  exact Kcp.input_isSome _ _

theorem synHandshakeInput_isSome (t : Task) (packet : Bytes) :
    (t.synHandshakeInput packet).isSome := by
  have total (conv : U32) : ((t.kcp.setConv conv).input packet).isSome := Kcp.input_isSome _ _
  unfold synHandshakeInput
  split
  · rfl
  · rename_i conv _
    obtain ⟨outcome, taken⟩ := Option.isSome_iff_exists.1 (total conv)
    repeat' split
    all_goals simp_all

theorem kcpInput_isSome (configured : t.kcp.cb.Configured config) (sendable : t.Sendable config)
    (packet : Bytes) : (t.kcpInput packet).isSome := by
  obtain ⟨⟨result, kcp⟩, taken⟩ := Option.isSome_iff_exists.1 (Kcp.input_isSome t.kcp packet)
  have configured' := (engineStable_configured config).kcpInput taken configured
  unfold kcpInput
  rw [taken]
  cases result with
  | ok => rfl
  | error error =>
      obtain rfl | ⟨rfl, length⟩ := Kcp.input_error taken
      · dsimp only
        rw [Option.isSome_map]
        exact synHandshakeInput_isSome _ _
      · dsimp only
        obtain ⟨cmd, read⟩ : ∃ cmd, readCmd packet = some cmd := by
          unfold readCmd
          simp only [ikcpOverhead] at length
          exact ⟨_, List.getElem?_eq_getElem (by omega)⟩
        rw [read]
        dsimp only
        split
        · rfl
        · split
          · exact finInput_isSome (t := { t with kcp }) configured' ⟨sendable.cfg, sendable.fits⟩ packet cmd
          · rfl

/-- `kcp_recv` returns exactly when the first message fits the buffer that is made for it. -/
theorem kcpRecv_isSome_iff (t : Task) : t.kcpRecv.isSome ↔ t.kcp.HeadShort := by
  rw [Kcp.headShort_iff, ← Kcp.recvBytes_isSome_iff]
  unfold kcpRecv
  cases t.kcp.recvBytes with
  | none => exact Iff.rfl
  | some received =>
      refine iff_of_true ?_ rfl
      dsimp only
      repeat' split
      all_goals rfl

theorem reply_isSome {id : Bytes} (configured : t.kcp.cb.Configured config)
    (fits : config.fits (config.sessionKey ++ id)) (cfg : t.cfg = config) :
    ({ t with sessionId := id }.kcpApplyNodelay.handshakeSend .syn).isSome := by
  refine handshakeSend_isSome ((engineStable_configured config).nodelay _ _ _ _ _ configured) ?_ .syn
  simp only [handshakeFrame, kcpApplyNodelay]
  rwa [cfg]

/-- The reply to a SYN frame is as long as the frame. -/
theorem synHandshakeRecv_isSome (bounded : config.Bounded) (configured : t.kcp.cb.Configured config)
    (sendable : t.Sendable config) (short : t.kcp.HeadShort) : t.synHandshakeRecv.isSome := by
  obtain ⟨⟨frame, later⟩, taken⟩ := Option.isSome_iff_exists.1 (t.kcpRecv_isSome_iff.2 short)
  have configured' := (engineStable_configured config).kcpRecv taken configured
  unfold synHandshakeRecv
  rw [taken]
  cases frame with
  | none => rfl
  | some syn =>
      obtain ⟨kcp, got, _, rfl⟩ := kcpRecv_some taken
      dsimp only
      split
      · rfl
      · rename_i id valid
        obtain rfl : t.cfg = config := sendable.cfg
        have equal : syn = t.cfg.sessionKey ++ id := eq_append_of_synSessionId valid
        have fits : t.cfg.fits (t.cfg.sessionKey ++ id) := by
          refine fits_handshake bounded (length_of_synSessionId valid) ?_
          rw [← equal]
          exact fun small => Kcp.lt_of_recvBytes small got
        split
        · split <;> rfl
        · obtain ⟨sent, accepted⟩ := Option.isSome_iff_exists.1 (reply_isSome configured' fits rfl)
          rw [accepted]
          rfl

/-- `syn_handshake_recv` calls `kcp_recv` first. -/
theorem headShort_of_synHandshakeRecv (returns : t.synHandshakeRecv.isSome) : t.kcp.HeadShort := by
  rw [← kcpRecv_isSome_iff]
  unfold synHandshakeRecv at returns
  split at returns
  · cases returns
  all_goals
    rename_i taken
    rw [taken]
    rfl

/-! ## Runs -/

/-- A task panics where a call does not return, and goes on with nothing else. -/
theorem step_panics {event : Event} (stepped : t.step event = some t')
    (panicked : t'.pc = .panicked) :
    t.pc = .panicked ∨ t.running ∧ t.Fails ∧ t'.hs = t.hs ∧ t'.trace = t.trace := by
  cases transition_of_step stepped with
  | app acted => obtain ⟨_, _, _, rfl | ⟨_, rfl⟩⟩ := app_eq acted <;> exact .inl panicked
  | more pc taken =>
      have same : _ = t.pc := congrArg Aside.pc (kcpRecv_aside taken)
      exact .inl (same.symm.trans panicked)
  | batchDone pc ended =>
      have inside : t.running := by simp [running, pc]
      cases ended with
      | panic fails => exact .inr ⟨inside, fails, rfl, rfl⟩
      | _ => cases panicked
  | thrown => exact .inl panicked
  | finish =>
      obtain ⟨_, _, _, equal⟩ := finish_eq t
      rw [equal] at panicked
      cases panicked
  | panic inside fails => exact .inr ⟨inside, fails, rfl, rfl⟩
  | _ => cases panicked

/-- Only the application acts on a task that has panicked. -/
theorem event_of_panicked {event : Event} (stepped : t.step event = some t')
    (panicked : t.pc = .panicked) : ∃ act, event = .app act := by
  cases transition_of_step stepped with
  | app => exact ⟨_, rfl⟩
  | frame takes | inputEnd takes => obtain ⟨_, pc, _⟩ | ⟨_, pc⟩ := takes <;> simp [pc] at panicked
  | packet takes => obtain ⟨pc, _⟩ | pc := takes <;> simp [pc] at panicked
  | panic inside => simp [running, panicked] at inside
  | _ => simp_all

/-- As long as the first message fits its buffer all of them return. -/
theorem not_fails (configured : t.kcp.cb.Configured config) (sendable : t.Sendable config)
    (bounded : config.Bounded) (short : t.kcp.HeadShort) : ¬ t.Fails := by
  have returns {α : Type} {call : Option α} (some : call.isSome) : call ≠ none :=
    Option.isSome_iff_ne_none.1 some
  rintro (⟨packet, failed⟩ | failed | failed | ⟨inputClosed, failed⟩)
  · exact returns (kcpInput_isSome configured sendable packet) failed
  · exact returns (t.kcpRecv_isSome_iff.2 short) failed
  · exact returns (synHandshakeRecv_isSome bounded configured sendable short) failed
  · exact returns (finTransitLoop_isSome (t := { t with inputClosed }) configured
      ⟨sendable.cfg, sendable.fits⟩) failed

/-- A client that has started has sent its handshake frame. -/
theorem start_sendable {id : Bytes} {clock : Nat → U32} (bounded : config.Bounded)
    (length : id.length = config.sessionIdLen)
    (started : start config Kcp.synConv id clock = some t) : t.Sendable config := by
  unfold start at started
  split at started
  · cases started
  · rename_i base configured
    obtain ⟨kcp, rfl⟩ := configure_eq configured
    dsimp only [getSystemTime] at started
    rw [if_pos rfl] at started
    have same := congrArg Kept.aside (kept_handshakeSend started)
    have cfg : t.cfg = config := congrArg Aside.cfg same
    have sessionId : t.sessionId = id := congrArg Aside.sessionId same
    refine ⟨cfg, fun _ => ?_⟩
    rw [handshakeFrame, cfg, sessionId]
    refine fits_handshake bounded length fun small => ?_
    obtain ⟨size, kcp', sent, _⟩ := handshakeSend_eq started
    exact Kcp.lt_of_send small sent

end Task

/-- In every reachable task the handshake frame can be sent. -/
theorem reach_sendable {config : Config} {allow : Task → Event → Prop} {t : Task}
    (bounded : config.Bounded) (reach : (taskMachine config).Reach allow t) :
    t.Sendable config := by
  refine reach.invariant (Task.Sendable config) (fun t initial => ?_)
    (fun t event next prior sendable _ stepped =>
      (Task.step_moves (reach_placed prior) stepped).invariant
        (fun _ _ move => move.sendable bounded) sendable)
  obtain ⟨id, clock, length, started⟩ | ⟨conv, valid, clock, started⟩ := initial
  · exact Task.start_sendable bounded length started
  · obtain ⟨fresh, isFresh, same, _, state⟩ := Task.start_aside started
    have server : t.client = false := by
      rw [show t.client = fresh.client from congrArg Task.Aside.client same, isFresh.client]
      have known := valid
      simp only [Kcp.isValidConv, Bool.and_eq_true, decide_eq_true_eq] at known
      exact decide_eq_false fun syn => absurd known.2 (by rw [syn]; decide)
    refine ⟨(congrArg Task.Aside.cfg same).trans isFresh.cfg, fun either => ?_⟩
    simp [server, state] at either

/-- Whatever packet comes, the task survives it: `kcp_input` returns for every packet, and
`syn_handshake_recv` and `kcp_recv` return; every result of the engine is one the wrapper
matches, and the errors of `Kcp::input` are `NotFound`, or `InvalidData` for a packet with a
whole header. -/
structure Task.Survives (t : Task) : Prop where
  kcpInput : ∀ packet, (t.kcpInput packet).isSome
  synHandshakeRecv : t.synHandshakeRecv.isSome
  kcpRecv : t.kcpRecv.isSome
  input : ∀ packet, (t.kcp.input packet).isSome
  send : ∀ data, (t.kcp.send data).isSome
  recv : ∀ len, (Kcp.recvResult (ikcpRecv t.kcp.cb len).1).isSome
  error : ∀ packet error kcp, t.kcp.input packet = some (.error error, kcp) →
    error = .notFound ∨ error = .invalidData ∧ ikcpOverhead ≤ packet.length

/-- A task whose SYN and FIN frames are no larger than `max_frame_size` survives every packet
exactly as long as the first message that it has received fits the buffer made for it. A run
in which that has always been so has not panicked, and none of its flushes has written past
the scratch buffer. -/
theorem no_packet_panics {config : Config} (bounded : config.Bounded)
    (moderate : config.mtu.toNat < 2 ^ 30) {allow : Task → Event → Prop}
    (short : ∀ t event, allow t event → t.kcp.HeadShort) {t : Task}
    (reach : (taskMachine config).Reach allow t) :
    (t.Survives ↔ t.kcp.HeadShort) ∧ t.pc ≠ .panicked ∧
      ∀ packet ∈ t.kcp.outputQueue, packet.length ≤ bufferSize config.mtu.toNat := by
  have configured := reach_configured reach
  have sendable := reach_sendable bounded reach
  refine ⟨⟨fun survives => t.kcpRecv_isSome_iff.1 survives.kcpRecv, fun fits => ?_⟩, ?_,
    fun packet waits => packets_buffered moderate reach waits⟩
  · exact {
      kcpInput := Task.kcpInput_isSome configured sendable
      synHandshakeRecv := Task.synHandshakeRecv_isSome bounded configured sendable fits
      kcpRecv := t.kcpRecv_isSome_iff.2 fits
      input := t.kcp.input_isSome
      send := t.kcp.send_isSome
      recv := Kcp.recvResult_isSome t.kcp
      error := fun packet error kcp refused => Kcp.input_error refused }
  · refine reach.invariant (fun t => t.pc ≠ .panicked) (fun t initial => ?_)
      (fun t event next prior before allowed stepped panicked => ?_)
    swap
    · obtain already | ⟨_, fails, _⟩ := Task.step_panics stepped panicked
      · exact before already
      · exact Task.not_fails (reach_configured prior) (reach_sendable bounded prior) bounded
          (short t event allowed) fails
    have pc : t.pc = .head := by
      obtain ⟨_, _, _, started⟩ | ⟨_, _, _, started⟩ := initial <;> exact Task.start_pc started
    simp [pc]

/-- A packet that the engine takes. -/
theorem Task.packet_taken {t : Task} {packet : Bytes} {kcp : Kcp} {room : Nat}
    (waits : t.pc = .select ∧ t.cfg.rcvWnd.toNat = room + 1 ∨ t.pc = .batch (room + 1))
    (taken : t.kcp.input packet = some (.ok (), kcp)) :
    ∃ t', t.step (.packet packet) = some t' ∧ t'.kcp = kcp ∧ t'.pc = .batch room := by
  have fed : t.kcpInput packet = some { t with kcp, flush := true } := by
    unfold kcpInput
    rw [taken]
  unfold step
  rcases waits with ⟨pc, window⟩ | pc
  · rw [pc]
    dsimp only
    rw [fed, window]
    exact ⟨_, rfl, rfl, rfl⟩
  · rw [pc]
    dsimp only
    rw [fed]
    exact ⟨_, rfl, rfl, rfl⟩

/-- Three packets are enough to queue a message that a client does not survive. -/
theorem no_packet_panics_overrun : ¬ ∀ config t, Config.Bounded config →
    (taskMachine config).Reachable t → t.Survives := by
  intro survive
  have bounded : sampleConfig.Bounded := by
    unfold Config.Bounded
    decide
  have run : (clientRun sampleConfig [7] (fun _ => 0) (fun _ _ => true) [.drain .sent, .tau]).map
      (fun t => (t.pc, t.kcp.cb.rcvBuf, t.kcp.cb.rcvQueue, t.kcp.cb.nrcvQue)) =
        some (.select, [], [], 0) := by
    decide +kernel
  obtain ⟨t, executed, view⟩ := Option.map_eq_some_iff.1 run
  simp only [Prod.mk.injEq] at view
  obtain ⟨pc, drained, empty, zero⟩ := view
  have reach : (taskMachine sampleConfig).Reachable t :=
    reach_of_clientRun (fun _ _ _ => trivial) rfl executed
  have window : t.cfg.rcvWnd.toNat = 255 + 1 := by
    rw [reach_cfg reach]
    rfl
  obtain ⟨packet1, packet2, packet3, k1, k2, k3, taken1, taken2, taken3, positive, long⟩ :=
    Kcp.inputs_wrap drained empty zero (reach_rcvWnd reach)
  obtain ⟨t1, step1, rfl, pc1⟩ := Task.packet_taken (.inl ⟨pc, window⟩) taken1
  obtain ⟨t2, step2, rfl, pc2⟩ := Task.packet_taken (.inr pc1) taken2
  obtain ⟨t3, step3, rfl, _⟩ := Task.packet_taken (.inr pc2) taken3
  have reach3 := ((reach.step trivial step1).step trivial step2).step trivial step3
  have fits := (Task.kcpRecv_isSome_iff t3).1 (survive _ t3 bounded reach3).kcpRecv
  exact absurd (Kcp.headShort_iff.1 fits positive) (Nat.not_lt.2 long)

/-- A client is connected, sends the frame `[9]` and closes; the frame is acknowledged. -/
def lingerEvents : List Event :=
  [.drain .sent, .tau, .packet (encodePacket [pushSeg 1 0 1 [7]]), .noPacket, .tau, .tau,
    .drain .sent, .tau, .app .reserve, .app (.startSend [9]), .app .closeSender, .recvInput, .tau,
    .tau, .drain .sent, .tau, .drain .sent, .tau,
    .packet (encodePacket [{ conv := 1, cmd := ikcpCmdAck, wnd := 128, sn := 1, una := 2 }])]

/-- A packet with the FIN flag, on which the client sends its own FIN frame. -/
theorem no_packet_panics_closing : sampleConfig.Bounded ∧ ∃ t,
    (taskMachine sampleConfig).Reach (fun t _ => t.kcp.HeadShort) t ∧ t.Survives ∧
      (t.kcpInput (Task.stamp .finSent (encodePacket [pushSeg 1 1 2 [7]]))).map Task.hs =
        some .finSent := by
  have bounded : sampleConfig.Bounded := by
    unfold Config.Bounded
    decide
  have run : (clientRun sampleConfig [7] (fun reading => if reading < 5 then 0 else 100)
      (fun t _ => decide t.kcp.HeadShort) lingerEvents).map (fun t => (decide t.kcp.HeadShort,
        (t.kcpInput (Task.stamp .finSent (encodePacket [pushSeg 1 1 2 [7]]))).map Task.hs)) =
          some (true, some .finSent) := by
    decide +kernel
  obtain ⟨t, executed, view⟩ := Option.map_eq_some_iff.1 run
  obtain ⟨short, sends⟩ := Prod.mk.inj view
  have reach : (taskMachine sampleConfig).Reach (fun t _ => t.kcp.HeadShort) t :=
    reach_of_clientRun (fun _ _ permitted => of_decide_eq_true permitted) rfl executed
  exact ⟨bounded, t, reach,
    (no_packet_panics bounded (by decide) (fun _ _ short => short) reach).1.2
      (of_decide_eq_true short), sends⟩

end KcpRs
