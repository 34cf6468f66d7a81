import KcpRs.Engine.Window
import KcpRs.Stream.Conv

/-!
# The memory of the send side

What is in flight is bounded by the send window, whatever the peer acknowledges
(`Flying.length_le`). What is queued is bounded because the input branch takes a frame only
while the queue is shorter than the window, and because the handshake frames, which no guard
holds back, are sent when the queue is empty.
-/

namespace KcpRs

open Lib Relation

/-! ## The send queue -/

/-- A flush only takes segments out of the send queue. -/
theorem nsndQue_ikcpFlush_le (kcp : Ikcpcb) : (ikcpFlush kcp).1.nsndQue ≤ kcp.nsndQue := by
  cases updated : kcp.updated with
  | false => rw [ikcpFlush, if_pos updated]
  | true =>
      have probed : (flushProbed kcp).nsndQue = kcp.nsndQue :=
        congrArg Ikcpcb.Sender.nsndQue (sender_flushProbed kcp)
      have moved : (flushMoved kcp).nsndQue ≤ kcp.nsndQue := by
        refine flushMove_induct (fun block => block.nsndQue ≤ kcp.nsndQue) ?_ _ _ probed.le
        intro block newseg rest _ fewer
        exact (Nat.sub_le _ _).trans fewer
      exact (congrArg Ikcpcb.Sender.nsndQue (sender_ikcpFlush updated)).trans_le moved

theorem nsndQue_ikcpUpdate_le (kcp : Ikcpcb) (current : U32) :
    (ikcpUpdate kcp current).1.nsndQue ≤ kcp.nsndQue :=
  ikcpUpdate_induct (fun block => block.nsndQue ≤ kcp.nsndQue) (fun _ _ _ fewer => fewer)
    (fun block fewer => (nsndQue_ikcpFlush_le block).trans fewer) (le_refl _) current

theorem Kcp.nsndQue_of_input {kcp kcp' : Kcp} {packet : Bytes} {result : Except ErrorKind Unit}
    (taken : kcp.input packet = some (result, kcp')) : kcp'.cb.nsndQue = kcp.cb.nsndQue := by
  obtain ⟨_, rfl⟩ := Kcp.input_eq taken
  exact congrArg InputKept.nsndQue (inputKept_ikcpInput kcp.cb packet)

/-- A frame that is taken queues at most 255 segments. -/
theorem Kcp.nsndQue_of_send {kcp kcp' : Kcp} {data : Bytes} {result : Except ErrorKind Nat}
    (sent : kcp.send data = some (result, kcp')) : kcp'.cb.nsndQue ≤ kcp.cb.nsndQue + 255 := by
  obtain ⟨_, rfl⟩ | ⟨_, _, rfl⟩ := Kcp.send_eq sent
  · exact Nat.le_add_right _ _
  · obtain same | ⟨_, more⟩ :=
      nsndQue_ikcpSend kcp.cb data (BitVec.ofNat 32 data.length).toInt
    · exact same.trans_le (Nat.le_add_right _ _)
    · exact more

/-- A frame that is refused queues nothing. -/
theorem Kcp.nsndQue_of_refused {kcp kcp' : Kcp} {data : Bytes} {error : ErrorKind}
    (refused : kcp.send data = some (.error error, kcp')) : kcp'.cb.nsndQue = kcp.cb.nsndQue := by
  obtain ⟨_, rfl⟩ | ⟨_, result, rfl⟩ := Kcp.send_eq refused
  · rfl
  · obtain same | ⟨accepted, _⟩ :=
      nsndQue_ikcpSend kcp.cb data (BitVec.ofNat 32 data.length).toInt
    · exact same
    · rw [accepted] at result
      cases result

namespace Task

variable {ambient : Ambient} {config : Config} {t t' : Task}

/-- The queue grows only while it is shorter than the window, or when nothing waits. -/
theorem Move.nsndQue (move : Move ambient t t') (owned : t.Owned)
    (unsent : t.hs = .syn → (t.client = false ∨ t.trace = []) → t.kcp.cb.pending = []) :
    t'.kcp.cb.nsndQue ≤ t.kcp.cb.nsndQue ∨ t'.kcp.cb.nsndQue ≤ t.kcp.cb.nsndQue + 255 ∧
      (t.kcp.cb.nsndQue = 0 ∨ t.kcp.cb.nsndQue < t.kcp.cb.sndWnd) := by
  have nothing (empty : t.kcp.cb.pending = []) : t.kcp.cb.nsndQue = 0 := by
    rw [Ikcpcb.pending, List.map_eq_nil_iff, List.append_eq_nil_iff] at empty
    rw [owned.counted.sndQueue, empty.2, List.length_nil]
  cases move with
  | app event _ acted =>
      obtain ⟨_, _, _, rfl | ⟨_, rfl⟩⟩ := app_eq acted <;> exact .inl (le_refl _)
  | update now => exact .inl (nsndQue_ikcpUpdate_le t.kcp.cb now)
  | flush => exact .inl (nsndQue_ikcpFlush_le t.kcp.cb)
  | sendSyn client state searching fresh sent =>
      exact .inr ⟨Kcp.nsndQue_of_send sent, .inl (nothing (unsent state (.inr fresh)))⟩
  | replySyn server state _ _ sent =>
      exact .inr ⟨Kcp.nsndQue_of_send sent, .inl (nothing (unsent state (.inl server)))⟩
  | sendData _ _ _ sent room =>
      refine .inr ⟨Kcp.nsndQue_of_send sent, .inr ?_⟩
      simpa [Kcp.isSendQueueFull] using room
  | refuse _ _ _ refused => exact .inl (Kcp.nsndQue_of_refused refused).le
  | sendFin _ _ _ settled _ sent =>
      refine .inr ⟨Kcp.nsndQue_of_send sent, .inl ?_⟩
      rw [Kcp.getWaitsnd, ikcpWaitsnd] at settled
      omega
  | input _ _ taken => exact .inl (Kcp.nsndQue_of_input taken).le
  | inputAs back _ _ taken _ => exact .inl (Kcp.nsndQue_of_input taken).le
  | inputFin _ _ _ _ _ taken => exact .inl (Kcp.nsndQue_of_input taken).le
  | recv _ taken =>
      obtain ⟨_, _, engine⟩ := kcpRecv_kcp taken
      exact .inl (by rw [engine]; rfl)
  | finish =>
      obtain ⟨_, _, _, equal⟩ := finish_eq t
      rw [equal]
      exact .inl (le_refl _)
  | _ => exact .inl (le_refl _)

/-- The send side of a task and its bounds. -/
structure Capped (config : Config) (t : Task) : Prop extends Owned t where
  configured : t.kcp.cb.Configured config
  flying : t.kcp.cb.Flying fun _ _ => True
  unsent : t.hs = .syn → (t.client = false ∨ t.trace = []) → t.kcp.cb.pending = []
  room : t.kcp.cb.nsndQue ≤ config.sendWindow + 254

theorem Move.unsent (move : Move ambient t t') (owned : t.Owned)
    (unsent : t.hs = .syn → (t.client = false ∨ t.trace = []) → t.kcp.cb.pending = [])
    (state : t'.hs = .syn) (early : t'.client = false ∨ t'.trace = []) :
    t'.kcp.cb.pending = [] := by
  have syn := move.syn state
  have before : t.client = false ∨ t.trace = [] := by
    refine early.imp (fun server => move.conv.1 ▸ server) fun silent => ?_
    obtain ⟨extra, trace, _⟩ := move.channel
    rw [silent] at trace
    exact (List.append_eq_nil_iff.1 trace.symm).1
  rcases move.pending with shorter | ⟨_, _, ⟨client, spoken⟩ | left⟩ | ⟨queued, _⟩ | ⟨pending, _⟩
  · rw [unsent syn before] at shorter
    exact List.sublist_nil.1 shorter
  · rcases early with server | silent
    · rw [move.conv.1, client] at server
      cases server
    · exact absurd silent spoken
  · exact absurd state left
  · exact absurd (owned.unheld (owned.unannounced syn)).1 queued
  · rw [syn] at pending
    cases pending

theorem Move.capped (move : Move ambient t t') (capped : t.Capped config) : t'.Capped config where
  toOwned := move.owned capped.toOwned
  configured := (engineStable_configured config).move move capped.configured
  flying := engineStable_flying.move move capped.flying
  unsent := move.unsent capped.toOwned capped.unsent
  room := by
    have bound := capped.room
    have positive := config.sendWindow_bounds.1
    rcases move.nsndQue capped.toOwned capped.unsent with fewer | ⟨more, empty | room⟩
    · exact fewer.trans bound
    · omega
    · rw [capped.configured.sndWnd] at room
      omega

theorem Fresh.capped {conv : U32} {id : Bytes} (fresh : Fresh config conv id t) :
    t.Capped config where
  toOwned := fresh.disciplined.toOwned
  configured := fresh.configured
  flying := fresh.empty.flying fresh.configured
  unsent _ _ := fresh.empty.pending
  room := by
    rw [fresh.empty.counted.sndQueue, fresh.empty.sndQueue]
    exact Nat.zero_le _

end Task

theorem reach_capped {config : Config} {allow : Task → Event → Prop} {t : Task}
    (reach : (taskMachine config).Reach allow t) : t.Capped config :=
  reach_invariant (fun _ _ _ fresh => fresh.capped) (fun _ _ _ move => move.capped) reach

/-- Send-side memory is bounded. In every reachable task both counters are the lengths of their
queues, the segments in flight fit into the send window and those that wait exceed it by
the fragments of one frame at most. -/
theorem send_side_bounded (config : Config) {t : Task} (reach : (taskMachine config).Reachable t) :
    let kcp := t.kcp.cb
    kcp.sndWnd = config.sendWindow ∧ kcp.nsndQue = kcp.sndQueue.length ∧
      kcp.nsndBuf = kcp.sndBuf.length ∧ kcp.nsndQue ≤ kcp.sndWnd + 254 ∧
      kcp.nsndBuf ≤ kcp.sndWnd ∧ t.kcp.getWaitsnd ≤ 2 * kcp.sndWnd + 254 := by
  intro kcp
  have capped := reach_capped reach
  have window : kcp.sndWnd = config.sendWindow := capped.configured.sndWnd
  have queue : kcp.nsndQue ≤ kcp.sndWnd + 254 := by
    rw [window]
    exact capped.room
  have flight : kcp.nsndBuf ≤ kcp.sndWnd := by
    rw [show kcp.nsndBuf = kcp.sndBuf.length from capped.counted.sndBuf]
    exact capped.flying.length_le
  refine ⟨window, capped.counted.sndQueue, capped.counted.sndBuf, queue, flight, ?_⟩
  have sum : t.kcp.getWaitsnd = kcp.nsndBuf + kcp.nsndQue := rfl
  omega

/-- A client with two segments in flight and one queued. -/
theorem send_side_bounded_busy : ∃ t, (taskMachine messageConfig).Reachable t ∧
    t.kcp.cb.nsndBuf = 2 ∧ t.kcp.cb.nsndQue = 1 ∧ t.kcp.getWaitsnd ≤ 2 * t.kcp.cb.sndWnd + 254 := by
  have run : (clientRun messageConfig [7] (fun _ => 0) (fun _ _ => true) busyEvents).map
      (fun t => (t.kcp.cb.nsndBuf, t.kcp.cb.nsndQue)) = some (2, 1) := by decide +kernel
  obtain ⟨t, executed, view⟩ := Option.map_eq_some_iff.1 run
  obtain ⟨inFlight, queued⟩ := Prod.mk.inj view
  have reach : (taskMachine messageConfig).Reachable t :=
    reach_of_clientRun (fun _ _ _ => trivial) rfl executed
  obtain ⟨_, _, _, _, _, total⟩ := send_side_bounded messageConfig reach
  exact ⟨t, reach, inFlight, queued, total⟩

end KcpRs
