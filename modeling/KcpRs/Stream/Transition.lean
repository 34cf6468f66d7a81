import KcpRs.Stream.Moves

/-!
# The transitions of `run`

A step of a task is a way through one part of `run`. `Transition` has a constructor for each of them,
with the tests that the source makes on it, and every step is a transition (`transition_of_step`). The
functions of the loop are taken apart here once: what is proved of every step is proved of every
transition.
-/

namespace KcpRs

open Lib

namespace Task

variable {t t' : Task}

/-- A call of a step that does not return. -/
inductive Fails (t : Task) : Prop where
  | input (packet : Bytes) (failed : t.kcpInput packet = none)
  | recv (failed : t.kcpRecv = none)
  | syn (failed : t.synHandshakeRecv = none)
  | transit (inputClosed : Bool) (failed : { t with inputClosed }.finTransitState = none)

/-- The time of a handshake is over. -/
def late (t : Task) : Prop := t.hs ≠ .connected ∧ (t.hsEndTime - t.clock t.ticks).toInt ≤ 0

/-- The input channel is looked at, at the first turn of its branch or at a further one. -/
def TakesInput (t : Task) (event : Event) : Prop :=
  event = .recvInput ∧ t.pc = .select ∧ t.inputClosed = false ∨ event = .tau ∧ t.pc = .inputMore

/-- A packet can be taken, and `room` more of the batch. -/
def TakesPacket (t : Task) (room : Nat) : Prop :=
  t.pc = .select ∧ room = t.cfg.rcvWnd.toNat - 1 ∨ t.pc = .batch (room + 1)

/-- The ways through the handshake step after a batch of packets. -/
inductive BatchEnd (t : Task) : Task → Prop
  /-- The SYN handshake goes on, or connects the task. -/
  | greeted {later : Task} (early : t.hs = .syn) (received : t.synHandshakeRecv = some (true, later)) :
      BatchEnd t { later with pc := .fetch }
  /-- The SYN handshake fails. -/
  | refused {later : Task} (early : t.hs = .syn)
      (received : t.synHandshakeRecv = some (false, later)) :
      BatchEnd t { later with hs := .disconnected, pc := .fetch }
  /-- The FIN handshake goes on. -/
  | closing {later : Task} (started : t.hs ≠ .syn) (finishing : t.isFinHandshake)
      (transit : t.finTransitState = some later) : BatchEnd t { later with pc := .fetch }
  | passed (started : t.hs ≠ .syn) (going : t.isFinHandshake = false) :
      BatchEnd t { t with pc := .fetch }
  | panic (fails : t.Fails) : BatchEnd t t.panic

/-- The ways through the parts of `run`. -/
inductive Transition (t : Task) : Event → Task → Prop
  | app {event : AppEvent} {later : Task} (acted : t.app event = some later) :
      Transition t (.app event) later
  /-- The output queue is drained. -/
  | fed {outcome : SinkOutcome} {packets : List Bytes} (pc : t.pc = .head)
      (part : packets <+: t.kcp.outputQueue) (goes : outcome.ends = false) :
      Transition t (.drain outcome)
        ({ t with kcp := { t.kcp with outputQueue := [] }, pc := .check }.feed packets)
  /-- The transport or the token ends the drain. -/
  | broken {outcome : SinkOutcome} {packets : List Bytes} (pc : t.pc = .head)
      (part : packets <+: t.kcp.outputQueue) (ends : outcome.ends) :
      Transition t (.drain outcome)
        ({ t with kcp := { t.kcp with outputQueue := [] }, pc := .check }.feed packets).leave
  /-- The conversation is over, or its link is dead or idle. -/
  | lapse (pc : t.pc = .check) (reason : t.hs = .disconnected ∨ t.lapsed) : Transition t .tau t.leave
  /-- A handshake has run out of time. -/
  | timeout (pc : t.pc = .check) (alive : t.hs ≠ .disconnected) (late : t.late) :
      Transition t .tau { t with ticks := t.ticks + 1, hs := .disconnected, pc := .head }
  | update (pc : t.pc = .check) (alive : t.hs ≠ .disconnected) (going : t.lapsed = false)
      (due : t.interval (t.clock t.ticks) = 0) :
      Transition t .tau
        { t with ticks := t.ticks + 1, kcp := t.kcp.update (t.clock t.ticks), pc := .head }
  | wait (pc : t.pc = .check) (alive : t.hs ≠ .disconnected) (going : t.lapsed = false)
      (early : t.interval (t.clock t.ticks) ≠ 0) :
      Transition t .tau { t with ticks := t.ticks + 1, pc := .select }
  /-- A frame of the input channel is queued. -/
  | frame {event : Event} {frame : Bytes} {rest : List Bytes} {later : Task}
      (takes : t.TakesInput event) (room : t.kcp.isSendQueueFull = false)
      (queued : t.inputRx.queue = frame :: rest)
      (sent : { t with inputRx := { t.inputRx with queue := rest } }.processInput frame = some later) :
      Transition t event { later with pc := .inputMore }
  /-- The send queue is full, or no frame is there. -/
  | inputEnd {event : Event} {closed : Bool} (takes : t.TakesInput event)
      (ended : closed → t.inputRx.exhausted) : Transition t event { t with pc := .inputDone closed }
  /-- The input channel is closed. -/
  | inputClosed {later : Task} (pc : t.pc = .inputDone true)
      (transit : { t with inputClosed := true }.finTransitState = some later) :
      Transition t .tau { later.kcpFlush with pc := .head }
  | inputFlush (pc : t.pc = .inputDone false) : Transition t .tau { t.kcpFlush with pc := .head }
  /-- The stashed frame is sent to the output channel. -/
  | permit {frame : Bytes} (pc : t.pc = .select) (stash : t.txFrame = some frame)
      (opened : t.outputOpen) :
      Transition t (.reserve true)
        ({ t with txFrame := none, pc := .permitLoop }.log (.output (.frame frame)))
  /-- The application has closed its end of that channel. -/
  | unread (pc : t.pc = .select) (stash : t.txFrame.isSome) (closed : t.outputOpen = false) :
      Transition t (.reserve false) t.leave
  /-- A further frame is sent to the output channel. -/
  | more {frame : Bytes} {later : Task} (pc : t.pc = .permitLoop)
      (taken : t.kcpRecv = some (some frame, later)) (opened : later.outputOpen) :
      Transition t (.tryReserve true) (later.log (.output (.frame frame)))
  /-- That channel is full, and the frame is stashed. -/
  | stash {frame : Bytes} {later : Task} (pc : t.pc = .permitLoop)
      (taken : t.kcpRecv = some (some frame, later)) :
      Transition t (.tryReserve false) { later with txFrame := some frame, pc := .head }
  /-- No frame is left. -/
  | emptied {ok : Bool} {later : Task} (pc : t.pc = .permitLoop)
      (taken : t.kcpRecv = some (none, later)) : Transition t (.tryReserve ok) { later with pc := .head }
  | packet {packet : Bytes} {room : Nat} {later : Task} (takes : t.TakesPacket room)
      (taken : t.kcpInput packet = some later) :
      Transition t (.packet packet) { later with pc := .batch room }
  | noPacket {room : Nat} (pc : t.pc = .batch room) : Transition t .noPacket { t with pc := .batchDone }
  | batchDone {later : Task} (pc : t.pc = .batchDone) (ended : t.BatchEnd later)
      (equal : later = t.batchDone) : Transition t .tau later
  /-- The batch ends while a frame is stashed. -/
  | held (pc : t.pc = .fetch) (stash : t.txFrame.isSome) : Transition t .tau { t.kcpFlush with pc := .head }
  /-- The batch ends with the fetch of a frame. -/
  | fetched {frame : Option Bytes} {later : Task} (pc : t.pc = .fetch) (unstashed : t.txFrame = none)
      (taken : t.kcpRecv = some (frame, later)) :
      Transition t .tau { { later with txFrame := frame }.kcpFlush with pc := .head }
  | transportEnd (pc : t.pc = .select) : Transition t .transportEnd t.leave
  | sleep (pc : t.pc = .select) : Transition t .sleep { t with pc := .head }
  | cancelled (pc : t.pc = .select) (token : t.token) : Transition t .cancelled t.leave
  /-- A frame of the input channel is thrown away after the loop. -/
  | thrown {frame : Bytes} {rest : List Bytes} (pc : t.pc = .draining)
      (queued : t.inputRx.queue = frame :: rest) :
      Transition t .tau ({ t with inputRx := { t.inputRx with queue := rest } }.log (.drained frame))
  | finish (pc : t.pc = .draining) : Transition t .tau t.finish
  /-- A call does not return. -/
  | panic {event : Event} (running : t.running) (fails : t.Fails) (stays : t.quits event = false) :
      Transition t event t.panic

/-- `Kcp::send` always returns. -/
theorem processInput_isSome (t : Task) (frame : Bytes) : (t.processInput frame).isSome := by
  obtain ⟨⟨result, kcp⟩, sent⟩ := Option.isSome_iff_exists.1 (Kcp.send_isSome t.kcp frame)
  unfold processInput
  rw [sent]
  cases result <;> rfl

/-- A frame of the application is taken while the send queue has room. -/
theorem transition_frame {event : Event} {frame : Bytes} {rest : List Bytes} (takes : t.TakesInput event)
    (room : t.kcp.isSendQueueFull = false) (queued : t.inputRx.queue = frame :: rest) :
    let popped := { t with inputRx := { t.inputRx with queue := rest } }
    t.Transition event (popped.goto .inputMore (popped.processInput frame)) := by
  intro popped
  obtain ⟨later, sent⟩ := Option.isSome_iff_exists.1 (popped.processInput_isSome frame)
  rw [sent]
  exact .frame takes room queued sent

/-- The branch of `select!` that reads the input queue. -/
theorem transition_recvInput (pc : t.pc = .select) (moved : t.recvInput = some t') :
    t.Transition .recvInput t' := by
  unfold recvInput at moved
  split at moved
  · cases moved
  · rename_i ready
    obtain ⟨opened, room⟩ := not_or.1 ready
    have takes : t.TakesInput .recvInput := .inl ⟨rfl, pc, by simpa using opened⟩
    split at moved
    · rename_i queued
      cases moved
      exact transition_frame takes (by simpa using room) queued
    · split at moved
      · rename_i exhausted
        cases moved
        exact .inputEnd takes fun _ => exhausted
      · cases moved

/-- The loop over further frames of the application. -/
theorem transition_inputMore (pc : t.pc = .inputMore) : t.Transition .tau t.inputMore := by
  have takes : t.TakesInput .tau := .inr ⟨rfl, pc⟩
  unfold inputMore
  split
  · exact .inputEnd takes fun closed => by cases closed
  · rename_i room
    split
    · rename_i queued
      exact transition_frame takes (by simpa using room) queued
    · exact .inputEnd takes id

theorem transition_inputDone {closed : Bool} (pc : t.pc = .inputDone closed) :
    t.Transition .tau (t.inputDone closed) := by
  unfold inputDone
  cases closed with
  | false => exact .inputFlush pc
  | true =>
      rw [if_pos rfl]
      split
      · rename_i later transit
        exact .inputClosed pc transit
      · rename_i failed
        exact .panic (by simp [running, pc]) (.transit true failed) (by simp [quits, pc])

/-- The tests at the bottom of the loop, in the order of `run`. -/
theorem lapsed_iff : t.lapsed ↔
    (t.kcp.isDeadLink ∨ t.expireMillis ≤ t.kcp.durationSince t.lastIoTime) ∨ t.late := by
  simp only [lapsed, late, Bool.or_eq_true, Bool.and_eq_true, decide_eq_true_eq]

/-- The end of a turn. -/
theorem transition_check (pc : t.pc = .check) : t.Transition .tau t.check := by
  unfold Task.check
  split
  · rename_i disconnected
    exact .lapse pc (.inl disconnected)
  · rename_i alive
    split
    · rename_i gone
      exact .lapse pc (.inr (lapsed_iff.2 (.inl gone)))
    · rename_i linked
      dsimp only [getSystemTime]
      split
      · rename_i late
        exact .timeout pc alive late
      · rename_i early
        have going : t.lapsed = false := by
          rw [← Bool.not_eq_true, lapsed_iff]
          exact not_or.2 ⟨linked, early⟩
        split
        · rename_i due
          exact .update pc alive going due
        · rename_i waits
          exact .wait pc alive going waits

/-- The branch of `select!` that waits for room in the output queue. -/
theorem transition_permit {ok : Bool} (pc : t.pc = .select) (moved : t.permit ok = some t') :
    t.Transition (.reserve ok) t' := by
  unfold Task.permit at moved
  split at moved
  · cases moved
  · rename_i frame stash
    cases ok with
    | true =>
        rw [if_pos rfl] at moved
        split at moved
        · rename_i opened
          cases moved
          exact .permit pc stash opened
        · cases moved
    | false =>
        rw [if_neg (by simp)] at moved
        split at moved
        · cases moved
        · rename_i closed
          cases moved
          exact .unread pc (by rw [stash]; rfl) (by simpa using closed)

/-- The loop that fills the output queue. -/
theorem transition_permitMore {ok : Bool} (pc : t.pc = .permitLoop) (moved : t.permitMore ok = some t') :
    t.Transition (.tryReserve ok) t' := by
  unfold permitMore at moved
  split at moved
  · rename_i failed
    cases moved
    exact .panic (by simp [running, pc]) (.recv failed) (by simp [quits])
  · rename_i later taken
    cases moved
    exact .emptied pc taken
  · rename_i frame later taken
    cases ok with
    | true =>
        rw [if_pos rfl] at moved
        split at moved
        · rename_i opened
          cases moved
          exact .more pc taken opened
        · cases moved
    | false =>
        cases moved
        exact .stash pc taken

/-- A packet is given to the KCP. -/
theorem transition_packet {packet : Bytes} {room : Nat} (takes : t.TakesPacket room) :
    t.Transition (.packet packet) (t.goto (.batch room) (t.kcpInput packet)) := by
  unfold goto
  split
  · rename_i later taken
    exact .packet takes taken
  · rename_i failed
    refine .panic ?_ (.input packet failed) (by simp [quits])
    rcases takes with ⟨pc, _⟩ | pc <;> simp [running, pc]

/-- The next frame of the peer is fetched. -/
theorem transition_fetch (pc : t.pc = .fetch) : t.Transition .tau t.fetch := by
  unfold fetch
  split
  · rename_i stash
    exact .held pc (by rw [stash]; rfl)
  · rename_i unstashed
    split
    · rename_i frame later taken
      exact .fetched pc unstashed taken
    · rename_i failed
      exact .panic (by simp [running, pc]) (.recv failed) (by simp [quits, pc])

/-- The end of a batch of packets, by the state of the handshake. -/
theorem batchEnd (t : Task) : t.BatchEnd t.batchDone := by
  unfold batchDone
  split
  · rename_i early
    split
    · rename_i received
      exact .greeted early received
    · rename_i received
      exact .refused early received
    · rename_i failed
      exact .panic (.syn failed)
  · rename_i started
    split
    · rename_i finishing
      unfold goto
      split
      · rename_i transit
        exact .closing started finishing transit
      · rename_i failed
        exact .panic (.transit t.inputClosed failed)
    · rename_i going
      exact .passed started (by simpa using going)

/-- Every step of a task is a transition. -/
theorem transition_of_step {event : Event} (stepped : t.step event = some t') : t.Transition event t' := by
  unfold step at stepped
  split at stepped
  · exact .app stepped
  · rename_i pc
    obtain ⟨packets, part, ⟨goes, rfl⟩ | ⟨ends, rfl⟩⟩ := drain_cases stepped
    · exact .fed pc part goes
    · exact .broken pc part ends
  · rename_i pc
    cases stepped
    exact transition_check pc
  · rename_i pc
    exact transition_recvInput pc stepped
  · rename_i pc
    cases stepped
    exact transition_inputMore pc
  · rename_i pc
    cases stepped
    exact transition_inputDone pc
  · rename_i pc
    exact transition_permit pc stepped
  · rename_i pc
    exact transition_permitMore pc stepped
  · rename_i pc
    cases stepped
    exact transition_packet (.inl ⟨pc, rfl⟩)
  · rename_i pc
    cases stepped
    exact transition_packet (.inr pc)
  · rename_i pc
    cases stepped
    exact .noPacket pc
  · rename_i pc
    cases stepped
    exact .batchDone pc (batchEnd t) rfl
  · rename_i pc
    cases stepped
    exact transition_fetch pc
  · rename_i pc
    cases stepped
    exact .transportEnd pc
  · rename_i pc
    cases stepped
    exact .sleep pc
  · rename_i pc
    split at stepped
    · rename_i token
      cases stepped
      exact .cancelled pc token
    · cases stepped
  · rename_i pc
    unfold drainInput at stepped
    split at stepped
    · rename_i queued
      cases stepped
      exact .thrown pc queued
    · split at stepped
      · cases stepped
        exact .finish pc
      · cases stepped
  · cases stepped

/-- How the loop is given up although no handshake has ended it. -/
theorem transition_of_quits {event : Event} (stepped : t.step event = some t')
    (gone : t.quits event) :
    (∃ packets, t.pc = .head ∧ packets <+: t.kcp.outputQueue ∧
      t' = ({ t with kcp := { t.kcp with outputQueue := [] }, pc := .check }.feed packets).leave) ∨
    (t.pc = .check ∨ t.pc = .select) ∧ t' = t.leave ∨
    t.pc = .check ∧ t.late ∧ t' = { t with ticks := t.ticks + 1, hs := .disconnected, pc := .head } := by
  cases transition_of_step stepped with
  | broken pc part => exact .inl ⟨_, pc, part, rfl⟩
  | lapse pc => exact .inr (.inl ⟨.inl pc, rfl⟩)
  | timeout pc _ late => exact .inr (.inr ⟨pc, late, rfl⟩)
  | unread pc | transportEnd pc | cancelled pc => exact .inr (.inl ⟨.inr pc, rfl⟩)
  | fed pc _ goes => simp [quits, pc, goes] at gone
  | update pc _ going | wait pc _ going => simp [quits, pc, going] at gone
  | frame takes | inputEnd takes => obtain ⟨rfl, pc, _⟩ | ⟨rfl, pc⟩ := takes <;> simp [quits, pc] at gone
  | panic _ _ stays => exact absurd (stays.symm.trans gone) (by simp)
  | _ => simp_all [quits]

end Task
end KcpRs
