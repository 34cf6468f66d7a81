import KcpRs.Calls
import KcpRs.Engine.Packing
import KcpRs.Stream.Conv
import KcpRs.Stream.Handshake

/-!
# The flushes of a task

In a reachable task the packets of a flush fit the scratch buffer (`packets_buffered`) and are well
formed, so who reads them reads exactly what the flush had to send (`flush_sends_what_is_due`).
-/

namespace KcpRs

open Lib

/-- Packets of a task that is configured with a moderate `mtu` are no larger than that. -/
theorem le_mtu_of_emitted {config : Config} {kcp : Ikcpcb} {packet : Bytes}
    (configured : kcp.Configured config) (sound : kcp.Sound) (moderate : config.mtu.toNat < 2 ^ 30)
    (flushed : packet ∈ (ikcpFlush kcp).2 ∨ ∃ now, packet ∈ (ikcpUpdate kcp now).2) :
    packet.length ≤ config.mtu.toNat := by
  have mtu := configured.mtu
  have mss := configured.mss
  have least := configured.least
  have header : ikcpOverhead ≤ kcp.mtu ∧ kcp.mtu + ikcpOverhead < 2 ^ 31 := by
    simp only [ikcpOverhead]
    omega
  have small : ∀ seg ∈ kcp.sndBuf ++ kcp.sndQueue, seg.Fits kcp.mtu := by
    intro seg member
    have size := sound.sized seg.payload (List.mem_map_of_mem member)
    simp only [Seg.payload, ikcpOverhead] at size mss
    simp only [Seg.Fits, ikcpOverhead]
    omega
  rw [← mtu]
  rcases flushed with flushed | ⟨now, flushed⟩
  · exact (fits_ikcpFlush header small flushed).2
  · exact (fits_ikcpUpdate header small flushed).2

theorem length_of_emitted {config : Config} {kcp : Ikcpcb} {packet : Bytes}
    (configured : kcp.Configured config) (sound : kcp.Sound) (moderate : config.mtu.toNat < 2 ^ 30)
    (flushed : packet ∈ (ikcpFlush kcp).2 ∨ ∃ now, packet ∈ (ikcpUpdate kcp now).2) :
    packet.length < 2 ^ 31 := by
  have bound := le_mtu_of_emitted configured sound moderate flushed
  omega

/-! ## The scratch buffer -/

namespace Task

variable {ambient : Ambient} {config : Config} {t t' : Task}

/-- What a move does to the engine as far as the segments in flight go: nothing, a flush or an
update, or a packet. -/
theorem Move.flight (move : Move ambient t t') :
    (t'.kcp.cb.sndNxt = t.kcp.cb.sndNxt ∧ t'.kcp.cb.sndBuf = t.kcp.cb.sndBuf ∧
        t'.kcp.outputQueue ⊆ t.kcp.outputQueue) ∨
      (t'.kcp = t.kcp.flush ∨ ∃ now, t'.kcp = t.kcp.update now) ∨
      ∃ packet conv back data result kcp, ambient.Delivered packet ∧
        (t.kcp.setConv conv).input data = some (result, kcp) ∧ t'.kcp = kcp.setConv back ∧
        (data = packet ∨ ∃ cmd, readCmd packet = some cmd ∧ cmd &&& kcpFin ≠ 0) := by
  have sent {frame : Bytes} {result : Except ErrorKind Nat} {kcp : Kcp}
      (taken : t.kcp.send frame = some (result, kcp)) : kcp.cb.sndNxt = t.kcp.cb.sndNxt ∧
        kcp.cb.sndBuf = t.kcp.cb.sndBuf ∧ kcp.outputQueue ⊆ t.kcp.outputQueue := by
    rcases Kcp.send_eq taken with ⟨_, rfl⟩ | ⟨_, _, rfl⟩
    · exact ⟨rfl, rfl, List.Subset.refl _⟩
    · obtain ⟨queue, count, equal⟩ :=
        ikcpSend_queue t.kcp.cb frame (BitVec.ofNat 32 frame.length).toInt
      rw [equal]
      exact ⟨rfl, rfl, List.Subset.refl _⟩
  cases move with
  | update now => exact .inr (.inl (.inr ⟨now, rfl⟩))
  | flush => exact .inr (.inl (.inl rfl))
  | sendSyn _ _ _ _ taken => exact .inl (sent taken)
  | replySyn _ _ _ _ taken => exact .inl (sent taken)
  | sendData _ _ _ taken _ => exact .inl (sent taken)
  | refuse _ _ _ taken => exact .inl (sent taken)
  | sendFin _ _ _ _ _ taken => exact .inl (sent taken)
  | input arrived _ taken =>
      rw [← Kcp.setConv_self (rfl : t.kcp.cb.conv = _)] at taken
      exact .inr (.inr ⟨_, _, _, _, _, _, arrived, taken,
        (Kcp.setConv_self (Kcp.conv_of_input taken)).symm, .inl rfl⟩)
  | inputAs back arrived _ taken _ =>
      exact .inr (.inr ⟨_, _, back, _, _, _, arrived, taken, rfl, .inl rfl⟩)
  | inputFin arrived _ command flagged _ taken =>
      rw [← Kcp.setConv_self (rfl : t.kcp.cb.conv = _)] at taken
      exact .inr (.inr ⟨_, _, _, _, _, _, arrived, taken,
        (Kcp.setConv_self (Kcp.conv_of_input taken)).symm, .inr ⟨_, command, flagged⟩⟩)
  | recv _ taken =>
      obtain ⟨receiver, probe, engine⟩ := kcpRecv_kcp taken
      rw [engine]
      exact .inl ⟨rfl, rfl, List.Subset.refl _⟩
  | app event _ acted =>
      obtain ⟨_, _, _, rfl | ⟨_, rfl⟩⟩ := app_eq acted <;>
        exact .inl ⟨rfl, rfl, List.Subset.refl _⟩
  | finish =>
      obtain ⟨_, _, _, equal⟩ := finish_eq t
      rw [equal]
      exact .inl ⟨rfl, rfl, List.Subset.refl _⟩
  | feed => exact .inl ⟨rfl, rfl, List.nil_subset _⟩
  | _ => exact .inl ⟨rfl, rfl, List.Subset.refl _⟩

/-- What waits in the output queue has been written to a scratch buffer of this size. -/
structure Buffered (config : Config) (t : Task) : Prop where
  configured : t.kcp.cb.Configured config
  sound : t.kcp.cb.Sound
  packets : ∀ packet ∈ t.kcp.outputQueue, packet.length ≤ config.mtu.toNat

theorem Move.buffered (move : Move ambient t t') (moderate : config.mtu.toNat < 2 ^ 30)
    (holds : t.Buffered config) : t'.Buffered config := by
  refine ⟨(engineStable_configured config).move move holds.configured,
    engineStable_sound.move move holds.sound, fun packet member => ?_⟩
  obtain ⟨_, _, fewer⟩ | engine | ⟨_, _, _, _, _, kcp, _, taken, engine, _⟩ := move.flight
  · exact holds.packets packet (fewer member)
  · rcases engine with engine | ⟨now, engine⟩
    · rw [engine] at member
      rcases List.mem_append.1 member with earlier | fresh
      · exact holds.packets packet earlier
      · exact le_mtu_of_emitted holds.configured holds.sound moderate (.inl fresh)
    · rw [engine] at member
      rcases List.mem_append.1 member with earlier | fresh
      · exact holds.packets packet earlier
      · exact le_mtu_of_emitted holds.configured holds.sound moderate (.inr ⟨now, fresh⟩)
  · obtain ⟨_, rfl⟩ := Kcp.input_eq taken
    rw [engine] at member
    exact holds.packets packet member

end Task

/-- A moderate `mtu` is one that the scratch buffer has room for. -/
theorem le_bufferSize {mtu : Nat} (moderate : mtu < 2 ^ 30) : mtu ≤ bufferSize mtu := by
  have small : (mtu + ikcpOverhead) * 3 < 2 ^ 32 := by
    simp only [ikcpOverhead]
    omega
  rw [bufferSize, Nat.mod_eq_of_lt small]
  omega

/-- No flush of a task that is configured with a moderate `mtu` writes past its scratch buffer. -/
theorem packets_buffered {config : Config} {allow : Task → Event → Prop} {t : Task}
    (moderate : config.mtu.toNat < 2 ^ 30) (reach : (taskMachine config).Reach allow t)
    {packet : Bytes} (waits : packet ∈ t.kcp.outputQueue) :
    packet.length ≤ bufferSize config.mtu.toNat := by
  have buffered : t.Buffered config := by
    refine reach_invariant (fun conv id t fresh => ?_)
      (fun _ _ _ move holds => move.buffered moderate holds) reach
    exact ⟨fresh.configured, fresh.empty.sound, by simp [fresh.outputQueue]⟩
  exact (buffered.packets packet waits).trans (le_bufferSize moderate)

/-! ## What a flush gives the peer -/

/-- What a flush has to send carries the conv of its block and a known command. -/
theorem wellFormed_sentSegs {kcp : Ikcpcb} (own : (ikcpFlush kcp).1.Own)
    (sound : (ikcpFlush kcp).1.Sound) (updated : kcp.updated) :
    ∀ seg ∈ sentSegs kcp, seg.conv = kcp.conv ∧ isCommand seg.cmd := by
  intro seg member
  rcases List.mem_append.1 member with head | due
  · obtain ⟨_, _, _, known, rfl⟩ := mem_heads head
    exact ⟨rfl, known⟩
  · have inside : seg ∈ (ikcpFlush kcp).1.sndBuf := by
      rw [sndBuf_ikcpFlush updated]
      exact List.map_subset _ (List.filter_subset_self _) due
    rw [own seg inside, conv_ikcpFlush, sound.push seg inside]
    exact ⟨rfl, rfl⟩

/-- A flush of a task at any time gives its peer exactly what is due: who reads the packets one
after the other reads the acknowledgements, the window commands and the segments that are due, in
order, each once. Afterwards every segment in flight has been sent by this flush, or it was in
flight before and its timer runs. -/
theorem flush_sends_what_is_due {config : Config} (moderate : config.mtu.toNat < 2 ^ 30)
    {allow : Task → Event → Prop} {t : Task} (reach : (taskMachine config).Reach allow t)
    (current tsFlush : U32) :
    let kcp := { t.kcp.cb with current, updated := true, tsFlush }
    ((ikcpFlush kcp).2.flatMap fun packet => accepted kcp.conv packet.length packet) =
        (sentSegs kcp).map (fun seg => (seg.head, seg.data)) ∧
      ∀ seg ∈ (ikcpFlush kcp).1.sndBuf, seg ∈ sentSegs kcp ∨
        seg ∈ t.kcp.cb.sndBuf ∧ seg.xmit ≠ 0 ∧ itimediff current seg.resendts < 0 := by
  intro kcp
  have inv := reach_disciplined reach
  have cfg : t.cfg = config := reach_cfg reach
  have configured : kcp.Configured config := by
    have configured := inv.configured
    rw [cfg] at configured
    exact ⟨configured.mtu, configured.mss, configured.least, configured.most, configured.stream,
      configured.rcvWnd, configured.sndWnd⟩
  have own : kcp.Own := inv.own
  have sound : kcp.Sound := ⟨inv.sound.push, inv.sound.sized⟩
  obtain ⟨groups, all, _, packets⟩ := @ikcpFlush_groups kcp rfl
  have wellFormed := @wellFormed_sentSegs kcp own.ikcpFlush sound.ikcpFlush rfl
  constructor
  · rw [packets, ← all]
    refine accepted_packets (fun group member seg inside => wellFormed seg ?_) fun group member => ?_
    · rw [← all]
      exact List.mem_flatten_of_mem member inside
    · refine length_of_emitted configured sound moderate (.inl ?_)
      rw [packets]
      exact List.mem_map_of_mem member
  · intro seg member
    exact (sent_or_running rfl member).imp_left (List.mem_append_right _)

/-- A client that owes two acknowledgements and has two segments in flight that are overdue. -/
theorem flush_sends_what_is_due_busy : ∃ t, (taskMachine messageConfig).Reachable t ∧
    let kcp := { t.kcp.cb with current := 5000, updated := true, tsFlush := 5000 }
    (sentSegs kcp).length = 4 ∧
      ((ikcpFlush kcp).2.flatMap fun packet => accepted kcp.conv packet.length packet) =
        (sentSegs kcp).map (fun seg => (seg.head, seg.data)) := by
  have run : (clientRun messageConfig [7] (fun _ => 0) (fun _ _ => true) busyEvents).map (fun t =>
      (sentSegs { t.kcp.cb with current := 5000, updated := true, tsFlush := 5000 }).length == 4) =
        some true := by decide +kernel
  obtain ⟨t, executed, four⟩ := Option.map_eq_some_iff.1 run
  have reach : (taskMachine messageConfig).Reachable t :=
    reach_of_clientRun (fun _ _ _ => trivial) rfl executed
  exact ⟨t, reach, eq_of_beq four, (flush_sends_what_is_due (by decide) reach 5000 5000).1⟩

end KcpRs
