import KcpRs.Engine.Packet
import KcpRs.Stream.Placed

/-!
# The FIN flag of a packet

A packet with the FIN flag is fed to the engine twice: with the flag it is refused and nothing
changes, and without it, it is what was sent (`finFlag_transparent`).
-/

namespace KcpRs

open Lib

/-- No command has the FIN bit. -/
theorem isCommand_and_kcpFin {cmd : Byte} (command : isCommand cmd) : cmd &&& kcpFin = 0 := by
  simp only [isCommand, Bool.or_eq_true, decide_eq_true_eq] at command
  rcases command with ((rfl | rfl) | rfl) | rfl <;> decide

/-- Setting the FIN bit sets it. -/
theorem isCommand_or_kcpFin {cmd : Byte} (command : isCommand cmd) :
    (cmd ||| kcpFin) &&& kcpFin ≠ 0 := by
  simp only [isCommand, Bool.or_eq_true, decide_eq_true_eq] at command
  rcases command with ((rfl | rfl) | rfl) | rfl <;> decide

/-- Taking off the FIN bit undoes setting it. -/
theorem isCommand_xor_kcpFin {cmd : Byte} (command : isCommand cmd) :
    (cmd ||| kcpFin) ^^^ kcpFin = cmd := by
  simp only [isCommand, Bool.or_eq_true, decide_eq_true_eq] at command
  rcases command with ((rfl | rfl) | rfl) | rfl <;> decide

/-- No command has the RESET bit, with or without the FIN bit. -/
theorem isCommand_and_kcpReset {cmd : Byte} (command : isCommand cmd) :
    cmd &&& kcpReset = 0 ∧ (cmd ||| kcpFin) &&& kcpReset = 0 := by
  simp only [isCommand, Bool.or_eq_true, decide_eq_true_eq] at command
  rcases command with ((rfl | rfl) | rfl) | rfl <;> decide

/-- No command is one any more with the FIN bit set. -/
theorem not_isCommand_or_kcpFin {cmd : Byte} (command : isCommand cmd) :
    isCommand (cmd ||| kcpFin) = false := by
  simp only [isCommand, Bool.or_eq_true, decide_eq_true_eq] at command
  rcases command with ((rfl | rfl) | rfl) | rfl <;> decide

/-- `kcp_output` sets the FIN flag of a packet. -/
def setFin (packet : Bytes) : Bytes := writeCmd packet (packet.getD 4 0 ||| kcpFin)

theorem setFin_encodePacket (seg : Seg) (rest : List Seg) :
    setFin (encodePacket (seg :: rest)) =
      encodePacket ({ seg with cmd := seg.cmd ||| kcpFin } :: rest) := by
  rw [setFin, getD_encodePacket, writeCmd_encodePacket]

namespace Task

variable {t t' : Task}

/-- Sending a handshake frame is recorded. -/
theorem length_trace_handshakeSend {kind : FrameKind} (sent : t.handshakeSend kind = some t') :
    t'.trace.length = t.trace.length + 1 := by
  obtain ⟨_, _, _, rfl⟩ := handshakeSend_eq sent
  rw [trace_kcpFlush]
  simp [log]

/-- `fin_transit_state` touches the engine only to send the FIN frame. -/
theorem kcp_finTransitLoop {fuel : Nat} (moved : finTransitLoop fuel t = some t') :
    t.trace.length ≤ t'.trace.length ∧ (t'.trace.length = t.trace.length → t'.kcp = t.kcp) := by
  refine finTransitLoop_invariant (fun later => t.trace.length ≤ later.trace.length ∧
    (later.trace.length = t.trace.length → later.kcp = t.kcp)) moved
    (fun before after turn held => ?_) ⟨le_rfl, fun _ => rfl⟩
  cases turn with
  | send _ _ _ accepted =>
      have more := length_trace_handshakeSend accepted
      exact ⟨held.1.trans (by simp only [more]; omega), fun same => by simp only [more] at same; omega⟩
  | _ => exact held

end Task

/-- A well-formed packet with the FIN flag is refused and leaves the engine as it is; taking off the
flag gives back the packet; and unless the FIN frame is sent in between, the engine is left as
the packet without the flag leaves it. -/
theorem finFlag_transparent {t : Task} {segs : List Seg} (wellFormed : WellFormed t.kcp.cb.conv segs) :
    t.kcp.input (setFin (encodePacket segs)) = some (.error .invalidData, t.kcp) ∧
      (∀ cmd, readCmd (setFin (encodePacket segs)) = some cmd →
        writeCmd (setFin (encodePacket segs)) (cmd ^^^ kcpFin) = encodePacket segs) ∧
      ∃ kcp, t.kcp.input (encodePacket segs) = some (.ok (), kcp) ∧
        ∀ t', t.noticeFin.finTransitState = some t' → t'.trace = t.trace →
          t.kcpInput (setFin (encodePacket segs)) = some { t' with kcp } := by
  obtain ⟨seg, rest, rfl⟩ := List.exists_cons_of_ne_nil wellFormed.nonempty
  have command := wellFormed.command seg List.mem_cons_self
  have unknown := wellFormed.ikcpInput_unknown (not_isCommand_or_kcpFin command)
  have refused : t.kcp.input (setFin (encodePacket (seg :: rest))) =
      some (.error .invalidData, t.kcp) := by
    rw [setFin_encodePacket, Kcp.input, unknown]
    rfl
  have read : readCmd (setFin (encodePacket (seg :: rest))) = some (seg.cmd ||| kcpFin) := by
    rw [setFin_encodePacket, readCmd_encodePacket]
  have restored : writeCmd (setFin (encodePacket (seg :: rest))) ((seg.cmd ||| kcpFin) ^^^ kcpFin) =
      encodePacket (seg :: rest) := by
    rw [isCommand_xor_kcpFin command, setFin_encodePacket, writeCmd_encodePacket]
  obtain ⟨kcp, taken⟩ : ∃ kcp, t.kcp.input (encodePacket (seg :: rest)) = some (.ok (), kcp) := by
    rw [Kcp.input, wellFormed.ikcpInput]
    exact ⟨_, rfl⟩
  refine ⟨refused, fun cmd same => ?_, kcp, taken, fun t' moved silent => ?_⟩
  · rw [read] at same
    cases same
    exact restored
  · have engine : t'.kcp = t.kcp := by
      have still := (Task.kcp_finTransitLoop moved).2 (by rw [silent, Task.trace_noticeFin])
      rw [still, Task.kcp_noticeFin]
    have flagged : (seg.cmd ||| kcpFin) &&& kcpFin ≠ 0 := isCommand_or_kcpFin command
    have alive : ¬ (seg.cmd ||| kcpFin) &&& kcpReset ≠ 0 :=
      not_not.2 (isCommand_and_kcpReset command).2
    unfold Task.kcpInput
    rw [refused]
    dsimp only
    rw [read]
    dsimp only
    rw [if_neg alive, if_pos flagged]
    unfold Task.finInput
    rw [restored]
    have noticed : (if t.finRecved = true then t
        else { t with finRecved := true, inputRx := { t.inputRx with rxClosed := true } }) =
        t.noticeFin := rfl
    dsimp only
    rw [noticed, moved]
    dsimp only
    rw [engine, taken]
    rfl

/-- A server for conv 1 that has been sent a frame by a peer that is in `FinSent`. -/
theorem finFlag_transparent_shown : ∃ t t' : Task, (taskMachine sampleConfig).Reachable t ∧
    t.kcp.input (setFin (encodePacket [pushSeg 1 0 0 [9]])) = some (.error .invalidData, t.kcp) ∧
    t.kcpInput (setFin (encodePacket [pushSeg 1 0 0 [9]])) = some t' ∧
    t'.kcp.cb.rcvQueue.map Seg.data = [[9]] := by
  have run : (Task.start sampleConfig 1 [] (fun _ => 0)).map (fun t => (t.kcp.cb.conv,
      t.noticeFin.finTransitState.map fun t' => decide (t'.trace = t.trace),
      (t.kcp.input (encodePacket [pushSeg 1 0 0 [9]])).map fun taken =>
        taken.2.cb.rcvQueue.map Seg.data)) = some (1, some true, some [[9]]) := by decide +kernel
  obtain ⟨t, started, view⟩ := Option.map_eq_some_iff.1 run
  simp only [Prod.mk.injEq] at view
  obtain ⟨conv, transit, received⟩ := view
  have wellFormed : WellFormed t.kcp.cb.conv [pushSeg 1 0 0 [9]] := by
    rw [conv]
    exact ⟨List.cons_ne_nil _ _, by simp [pushSeg], by simp [pushSeg, isCommand], by decide⟩
  obtain ⟨refused, _, kcp, taken, moved⟩ := finFlag_transparent wellFormed
  obtain ⟨t', transited, silent⟩ := Option.map_eq_some_iff.1 transit
  rw [taken, Option.map_some, Option.some.injEq] at received
  exact ⟨t, _, .initial (.inr ⟨1, by decide, _, started⟩), refused,
    moved t' transited (of_decide_eq_true silent), received⟩

end KcpRs
