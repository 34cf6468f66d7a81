import KcpRs.Engine.Packet
import KcpRs.Stream.Moves

/-!
# The conv of a candidate packet

A client that waits for the SYN frame of its server tries the conv of every packet by feeding the
packet to its engine under that conv. When the packet is not adopted the conv of the SYN handshake
is put back; the segments that `ikcp_input` has processed by then stay processed
(`candidate_rejected`).
-/

namespace KcpRs

open Lib

namespace Task

/-- `syn_handshake_input` of a client adopts the conv of the packet: `Kcp::input` takes the packet
under it and leaves nothing to acknowledge. -/
def adopts (t : Task) (packet : Bytes) : Bool :=
  match readConv packet with
  | none => false
  | some conv =>
      conv ≠ Kcp.synConv &&
        match (t.kcp.setConv conv).input packet with
        | some (.ok _, kcp) => kcp.getWaitsnd = 0
        | _ => false

variable {t t' : Task} {packet : Bytes} {ok : Bool}

/-- A packet that a client does not adopt is not processed at all, or its first segments are
processed under its conv. -/
theorem synHandshakeInput_rejected (client : t.client) (rejected : t.adopts packet = false)
    (moved : t.synHandshakeInput packet = some (ok, t')) :
    t' = t ∨ ∃ conv, readConv packet = some conv ∧
      t' = { t with kcp := { t.kcp with
        cb := { (ikcpInput { t.kcp.cb with conv } packet).2 with conv := Kcp.synConv } } } := by
  obtain rfl | ⟨conv, back, result, kcp, read, taken, rfl, side⟩ := synHandshakeInput_cases moved
  · exact .inl rfl
  · obtain ⟨_, _, other, rfl⟩ | ⟨server, _⟩ := side
    · have failed : result ≠ .ok () ∨ 0 < kcp.getWaitsnd := by
        by_contra adopted
        rw [not_or, not_not] at adopted
        simp [adopts, read, other, taken, adopted.1, Nat.eq_zero_of_not_pos adopted.2] at rejected
      obtain ⟨_, rfl⟩ := Kcp.input_eq taken
      rw [if_pos failed]
      exact .inr ⟨conv, read, rfl⟩
    · rw [client] at server
      cases server

end Task

/-- A client that rejects a packet has its settings, timers, send queue and numbers as before and
nothing of the task outside the engine changed, and the conv of the SYN handshake is in force again
where it was. When the first segment is refused nothing but the conv can have changed; otherwise the
engine has processed the segments before the one that was refused, under the conv of the packet. -/
theorem candidate_rejected {t t' : Task} {packet : Bytes} {ok : Bool} (client : t.client)
    (state : t.hs = .syn) (rejected : t.adopts packet = false)
    (moved : t.synHandshakeInput packet = some (ok, t')) :
    t' = { t with kcp := { t.kcp with cb := t'.kcp.cb } } ∧
      inputKept { t'.kcp.cb with conv := t.kcp.cb.conv } = inputKept t.kcp.cb ∧
      (t.kcp.cb.conv = Kcp.synConv → t'.kcp.cb.conv = t.kcp.cb.conv) ∧
      ({ t'.kcp.cb with conv := t.kcp.cb.conv } = t.kcp.cb ∨
        ∃ conv, readConv packet = some conv ∧ accepted conv packet.length packet ≠ [] ∧
          t'.kcp.cb = { (ikcpInput { t.kcp.cb with conv } packet).2 with conv := t'.kcp.cb.conv }) := by
  obtain rfl | ⟨conv, read, rfl⟩ := Task.synHandshakeInput_rejected client rejected moved
  · exact ⟨rfl, rfl, fun _ => rfl, .inl rfl⟩
  · have kept := inputKept_ikcpInput { t.kcp.cb with conv } packet
    refine ⟨rfl, ?_, Eq.symm, ?_⟩
    · simp only [inputKept, InputKept.mk.injEq] at kept ⊢
      exact ⟨kept.1, trivial, kept.2.2⟩
    · by_cases none : accepted conv packet.length packet = []
      · have same := @ikcpInput_of_accepted_nil { t.kcp.cb with conv } packet none
        rw [same]
        exact .inl rfl
      · exact .inr ⟨conv, read, none, rfl⟩

/-- A packet with a data segment that acknowledges nothing. -/
def earlyPacket : Bytes := encodePacket [pushSeg 5 0 0 [1]]

/-- A client that has queued its SYN frame rejects the packet, and acknowledges it all the same. -/
theorem earlyPacket_rejected : ∃ t t', (taskMachine sampleConfig).Reachable t ∧ t.client = true ∧
    t.hs = .syn ∧ t.kcp.cb.conv = Kcp.synConv ∧ t.adopts earlyPacket = false ∧
    t.synHandshakeInput earlyPacket = some (true, t') ∧ t.kcp.cb.acklist = [] ∧
    t'.kcp.cb.acklist = [(0, 0)] := by
  have run : (clientRun sampleConfig [7] (fun _ => 0) (fun _ _ => true) []).map (fun t =>
      (t.client && !t.adopts earlyPacket && decide (t.hs = .syn), t.kcp.cb.conv, t.kcp.cb.acklist,
        (t.synHandshakeInput earlyPacket).map fun moved =>
          moved.1 && decide (moved.2.kcp.cb.acklist = [(0, 0)]))) =
      some (true, Kcp.synConv, [], some true) := by decide +kernel
  obtain ⟨t, executed, view⟩ := Option.map_eq_some_iff.1 run
  simp only [Prod.mk.injEq, Bool.and_eq_true, Bool.not_eq_true', decide_eq_true_eq] at view
  obtain ⟨⟨⟨client, rejected⟩, state⟩, conv, none, moved⟩ := view
  obtain ⟨⟨ok, t'⟩, moved, result⟩ := Option.map_eq_some_iff.1 moved
  obtain ⟨rfl, acks⟩ := Bool.and_eq_true_iff.1 result
  exact ⟨t, t', reach_of_clientRun (fun _ _ _ => trivial) rfl executed, client, state, conv, rejected,
    moved, none, of_decide_eq_true acks⟩

theorem candidate_rejected_shown : ∃ t t', (taskMachine sampleConfig).Reachable t ∧
    t.synHandshakeInput earlyPacket = some (true, t') ∧
    t'.kcp.cb.conv = Kcp.synConv ∧
    inputKept { t'.kcp.cb with conv := t.kcp.cb.conv } = inputKept t.kcp.cb := by
  obtain ⟨t, t', reach, client, state, conv, rejected, moved, _, _⟩ := earlyPacket_rejected
  obtain ⟨_, kept, restored, _⟩ := candidate_rejected client state rejected moved
  exact ⟨t, t', reach, moved, (restored conv).trans conv, kept⟩

/-- A packet that is rejected leaves an acknowledgement to be sent. -/
theorem candidate_leaves : ¬ ∀ (t t' : Task) (packet : Bytes) (ok : Bool),
    (taskMachine sampleConfig).Reachable t → t.client → t.hs = .syn → t.adopts packet = false →
    t.synHandshakeInput packet = some (ok, t') → t'.kcp = t.kcp := by
  intro unchanged
  obtain ⟨t, t', reach, client, state, _, rejected, moved, none, acks⟩ := earlyPacket_rejected
  have same := unchanged t t' earlyPacket true reach client state rejected moved
  rw [same, none] at acks
  cases acks

end KcpRs
