import KcpRs.Engine.Stable
import KcpRs.Engine.Window
import KcpRs.Stream.Start

/-!
# The engine inside a reachable task

A task uses its control block through the operations of the engine only
(`Move.engine`), so what every operation keeps holds of the block of every reachable
task: the counters agree with the queues, the timers stay in range and the sizes are
those of the configuration.
-/

namespace KcpRs

open Lib Relation

namespace EngineStable

variable {Invariant : Ikcpcb → Prop} (stable : EngineStable Invariant)

include stable

theorem kcpSend {kcp kcp' : Kcp} {data : Bytes} {result : Except ErrorKind Nat}
    (sent : kcp.send data = some (result, kcp')) (holds : Invariant kcp.cb) :
    Invariant kcp'.cb := by
  obtain ⟨_, rfl⟩ | ⟨_, _, rfl⟩ := Kcp.send_eq sent
  · exact holds
  · exact stable.send _ _ _ holds

/-- `ikcp_input`. -/
theorem kcpInput {kcp kcp' : Kcp} {packet : Bytes} {result : Except ErrorKind Unit}
    (taken : kcp.input packet = some (result, kcp')) (holds : Invariant kcp.cb) :
    Invariant kcp'.cb := by
  obtain ⟨_, rfl⟩ := Kcp.input_eq taken
  exact stable.input _ _ holds

/-- `kcp_recv`. -/
theorem kcpRecv {t t' : Task} {frame : Option Bytes} (taken : t.kcpRecv = some (frame, t'))
    (holds : Invariant t.kcp.cb) : Invariant t'.kcp.cb := by
  rcases Task.kcpRecv_engine taken with same | moved
  · rwa [same]
  · rw [moved]
    exact stable.recv _ holds

/-- `kcp_flush`. -/
theorem kcpFlush {t : Task} (holds : Invariant t.kcp.cb) : Invariant t.kcpFlush.kcp.cb := by
  unfold Task.kcpFlush
  split
  · exact stable.flush _ (stable.update _ _ holds)
  · exact holds

/-- A handshake frame. -/
theorem handshakeSend {t t' : Task} {kind : FrameKind} (sent : t.handshakeSend kind = some t')
    (holds : Invariant t.kcp.cb) : Invariant t'.kcp.cb := by
  obtain ⟨_, _, accepted, rfl⟩ := Task.handshakeSend_eq sent
  exact stable.kcpFlush (stable.kcpSend accepted holds)

/-- The FIN handshake. -/
theorem finTransitLoop {fuel : Nat} {t t' : Task} (moved : Task.finTransitLoop fuel t = some t')
    (holds : Invariant t.kcp.cb) : Invariant t'.kcp.cb := by
  refine Task.finTransitLoop_invariant (fun t => Invariant t.kcp.cb) moved
    (fun before after turn holds => ?_) holds
  cases turn with
  | send _ _ _ accepted =>
      have later := stable.handshakeSend accepted holds
      exact later
  | _ => exact holds

/-- Every move keeps what the engine keeps. -/
theorem move {ambient : Ambient} {t t' : Task} (move : Task.Move ambient t t')
    (holds : Invariant t.kcp.cb) : Invariant t'.kcp.cb := by
  cases move with
  | app event _ acted =>
      obtain ⟨_, _, _, rfl | ⟨_, rfl⟩⟩ := Task.app_eq acted <;> exact holds
  | nodelay nodelay interval resend nc => exact stable.nodelay _ _ _ _ _ holds
  | update now => exact stable.update _ _ holds
  | flush => exact stable.flush _ holds
  | sendSyn _ _ _ _ sent => exact stable.kcpSend sent holds
  | replySyn _ _ _ _ sent => exact stable.kcpSend sent holds
  | sendData _ _ _ sent => exact stable.kcpSend sent holds
  | refuse _ _ _ refused => exact stable.kcpSend refused holds
  | sendFin _ _ _ _ _ sent => exact stable.kcpSend sent holds
  | input _ _ taken => exact stable.kcpInput taken holds
  | inputAs back _ _ taken _ => exact stable.conv _ _ (stable.kcpInput taken (stable.conv _ _ holds))
  | inputFin _ _ _ _ _ taken => exact stable.kcpInput taken holds
  | recv _ taken => exact stable.kcpRecv taken holds
  | finish =>
      obtain ⟨_, _, _, equal⟩ := Task.finish_eq t
      rw [equal]
      exact holds
  | _ => exact holds

/-- What a fresh engine has and the operations keep, every reachable task has. -/
theorem reach {config : Config} {allow : Task → Event → Prop}
    (fresh : ∀ kcp : Ikcpcb, kcp.Empty → kcp.Timed → kcp.Configured config → Invariant kcp)
    {t : Task} (reach : (taskMachine config).Reach allow t) : Invariant t.kcp.cb :=
  reach_invariant (fun _ _ _ isFresh => fresh _ isFresh.empty isFresh.timed isFresh.configured)
    (fun _ _ _ move holds => stable.move move holds) reach

end EngineStable

/-- The counters of every reachable task agree with its queues. -/
theorem reach_counted {config : Config} {allow : Task → Event → Prop} {t : Task}
    (reach : (taskMachine config).Reach allow t) : t.kcp.cb.Counted :=
  engineStable_counted.reach (fun _ empty _ _ => empty.counted) reach

/-! ## Fresh engines -/

theorem Ikcpcb.Empty.pending {kcp : Ikcpcb} (empty : kcp.Empty) : kcp.pending = [] := by
  simp [Ikcpcb.pending, empty.sndBuf, empty.sndQueue]

theorem Ikcpcb.Empty.sound {kcp : Ikcpcb} (empty : kcp.Empty) : kcp.Sound :=
  ⟨by simp [empty.sndBuf], by simp [empty.pending]⟩

/-- The sizes and the mode are those of the configuration. -/
theorem engineStable_configured (config : Config) : EngineStable (Ikcpcb.Configured config) := by
  refine engineStable_of_settings (fun kcp kcp' same sized => ?_) fun kcp _ _ _ _ sized => ?_
  · simp only [Ikcpcb.settings, Ikcpcb.Settings.mk.injEq] at same
    obtain ⟨mtu, mss, sndWnd, rcvWnd, _, _, _, _, _, stream⟩ := same
    exact ⟨mtu.trans sized.mtu, mss.trans sized.mss, sized.least, sized.most,
      stream.trans sized.stream, sized.rcvWnd.trans_eq rcvWnd.symm, sndWnd.trans sized.sndWnd⟩
  · exact ⟨sized.mtu, sized.mss, sized.least, sized.most, sized.stream, sized.rcvWnd, sized.sndWnd⟩

/-- The settings of the KCP are those of the configuration in every run. -/
theorem reach_configured {config : Config} {allow : Task → Event → Prop} {t : Task}
    (reach : (taskMachine config).Reach allow t) : t.kcp.cb.Configured config :=
  (engineStable_configured config).reach (fun _ _ _ configured => configured) reach

/-! ## The receive window -/

/-- The receive window that `ikcp_wndsize` leaves a new block with. -/
def Config.receiveWindow (config : Config) : Nat :=
  if 0 < config.rcvWnd.toInt then max config.rcvWnd.toInt.toNat ikcpWndRcv else ikcpWndRcv

/-- It is a C integer. -/
theorem receiveWindow_lt (config : Config) : config.receiveWindow < 2 ^ 31 := by
  have bound : config.rcvWnd.toInt < 2 ^ 31 := config.rcvWnd.toInt_lt
  unfold Config.receiveWindow
  split <;> simp only [ikcpWndRcv] <;> omega

/-- Only `ikcp_wndsize` sets the receive window. -/
theorem engineStable_rcvWnd (window : Nat) : EngineStable fun kcp => kcp.rcvWnd = window :=
  engineStable_of_settings
    (fun _ _ same sized => (congrArg Ikcpcb.Settings.rcvWnd same).trans sized)
    fun _ _ _ _ _ sized => sized

theorem Task.configure_rcvWnd {config : Config} {conv : U32} {clock : Nat → U32} {t : Task}
    (configured : configure config conv clock = some t) :
    t.kcp.cb.rcvWnd = config.receiveWindow := by
  unfold configure kcpApplyConfig at configured
  simp only [getSystemTime, Kcp.new, Kcp.update, Kcp.emit, ikcpUpdate_ikcpCreate] at configured
  split at configured
  · rename_i kcp set
    cases configured
    obtain ⟨rfl, _⟩ | ⟨_, _, rfl⟩ := Kcp.setMtu_eq set <;> rfl
  · cases configured

/-- The receive window of a new task. -/
theorem Task.start_rcvWnd {config : Config} {conv : U32} {id : Bytes} {clock : Nat → U32} {t : Task}
    (started : start config conv id clock = some t) : t.kcp.cb.rcvWnd = config.receiveWindow := by
  unfold start at started
  split at started
  · cases started
  · rename_i base configured
    have window := configure_rcvWnd configured
    dsimp only [getSystemTime] at started
    split at started
    · have same := congrArg Kept.settings (kept_handshakeSend started)
      exact (congrArg Ikcpcb.Settings.rcvWnd same).trans window
    · cases started
      exact window

/-- The receive window of a task is that of its configuration. -/
theorem reach_rcvWnd {config : Config} {allow : Task → Event → Prop} {t : Task}
    (reach : (taskMachine config).Reach allow t) : t.kcp.cb.rcvWnd = config.receiveWindow := by
  refine reach.invariant (fun t => t.kcp.cb.rcvWnd = config.receiveWindow) (fun t initial => ?_)
    fun t event next prior sized _ stepped => (Task.step_moves (reach_placed prior) stepped).invariant
      (fun _ _ move => (engineStable_rcvWnd config.receiveWindow).move move) sized
  obtain ⟨_, _, _, started⟩ | ⟨_, _, _, started⟩ := initial <;> exact Task.start_rcvWnd started

/-! ## The send window -/

/-- The segments in flight of every reachable engine lie in the send window. -/
theorem engineStable_flying : EngineStable (Ikcpcb.Flying fun _ _ => True) where
  update _ now flying := flying.ikcpUpdate (fun _ _ _ => trivial) now
  flush _ flying := flying.ikcpFlush fun _ _ _ => trivial
  send kcp data len flying := by
    obtain ⟨queue, count, equal⟩ := ikcpSend_queue kcp data len
    rw [equal]
    exact flying.fewer rfl rfl rfl (List.Sublist.refl _)
  input _ data flying := flying.ikcpInput data
  recv kcp flying := by
    obtain ⟨probe, equal⟩ := recvMoved_eq kcp false
    rw [equal]
    exact flying.fewer rfl rfl rfl (List.Sublist.refl _)
  nodelay _ _ _ _ _ flying := flying.fewer rfl rfl rfl (List.Sublist.refl _)
  conv _ _ flying := flying.fewer rfl rfl rfl (List.Sublist.refl _)

theorem Config.sendWindow_bounds (config : Config) :
    0 < config.sendWindow ∧ config.sendWindow < 2 ^ 31 := by
  have most : config.sndWnd.toInt < 2 ^ 31 := by
    have bound := config.sndWnd.toInt_lt
    simpa using bound
  unfold Config.sendWindow
  split
  · omega
  · decide

theorem Ikcpcb.Empty.flying {Sent : Nat → Payload → Prop} {config : Config} {kcp : Ikcpcb}
    (empty : kcp.Empty) (configured : kcp.Configured config) : kcp.Flying Sent := by
  refine ⟨0, empty.sndUna, Nat.zero_le _, ?_, ?_, ?_⟩
  · rw [empty.sndNxt]
    exact Nat.zero_le _
  · rw [configured.sndWnd]
    exact config.sendWindow_bounds.2
  · rw [empty.sndBuf]
    exact Window.nil _ _ _

/-- What a task has in flight lies in its send window. -/
theorem reach_flying {config : Config} {allow : Task → Event → Prop} {t : Task}
    (reach : (taskMachine config).Reach allow t) : t.kcp.cb.Flying fun _ _ => True :=
  reach_invariant (fun _ _ _ fresh => fresh.empty.flying fresh.configured)
    (fun _ _ _ move flying => engineStable_flying.move move flying) reach

/-! ## What waits for an acknowledgement -/

namespace Task

variable {ambient : Ambient} {t t' : Task}

/-- Only the frames of the handshakes and of an application add to what waits. -/
theorem Move.pending (move : Move ambient t t') :
    t'.kcp.cb.pending.Sublist t.kcp.cb.pending ∨
      t.hs = .syn ∧ (t.client → t.kcp.cb.conv = Kcp.synConv) ∧
        (t.client ∧ t'.trace ≠ [] ∨ t'.hs ≠ .syn) ∨
      t.inputRx.queue ≠ [] ∧ t.running ∨ t.hs = .finPending ∧ t.running ∧ t'.hs = .finSent := by
  have input {kcp kcp' : Kcp} {packet : Bytes} {result : Except ErrorKind Unit}
      (taken : kcp.input packet = some (result, kcp')) :
      kcp'.cb.pending.Sublist kcp.cb.pending := by
    obtain ⟨_, rfl⟩ := Kcp.input_eq taken
    exact pending_ikcpInput kcp.cb packet
  have same {payloads payloads' : List Payload} (equal : payloads = payloads') :
      payloads.Sublist payloads' := equal ▸ List.Sublist.refl payloads
  cases move with
  | app event _ acted =>
      obtain ⟨_, _, _, rfl | ⟨_, rfl⟩⟩ := app_eq acted <;> exact .inl (List.Sublist.refl _)
  | update now => exact .inl (same (pending_ikcpUpdate t.kcp.cb now))
  | flush => exact .inl (same (pending_ikcpFlush t.kcp.cb))
  | sendSyn client state searching =>
      exact .inr (.inl ⟨state, fun _ => searching, .inl ⟨client, by simp [log]⟩⟩)
  | replySyn server state => exact .inr (.inl ⟨state, by simp [server], .inr (by simp [log])⟩)
  | sendData queued _ running => exact .inr (.inr (.inl ⟨by simp [queued], running⟩))
  | refuse queued _ running => exact .inr (.inr (.inl ⟨by simp [queued], running⟩))
  | sendFin running state => exact .inr (.inr (.inr ⟨state, running, rfl⟩))
  | input _ _ taken => exact .inl (input taken)
  | inputAs back _ _ taken _ =>
      have shorter := input taken
      exact .inl shorter
  | inputFin _ _ _ _ _ taken => exact .inl (input taken)
  | recv _ taken =>
      obtain ⟨_, _, engine⟩ := kcpRecv_kcp taken
      exact .inl (same (by rw [engine]; rfl))
  | finish =>
      obtain ⟨_, _, _, equal⟩ := finish_eq t
      rw [equal]
      exact .inl (List.Sublist.refl _)
  | _ => exact .inl (List.Sublist.refl _)

end Task
end KcpRs
