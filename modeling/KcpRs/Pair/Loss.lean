import KcpRs.Pair.LastFrame
import KcpRs.Stream.Settled

/-!
# Losing a frame

A task loses a frame of the other one in three places: it takes a RESET packet while the frame is
stashed or waits in the receive queues, `fin_transit_state` goes through to `Disconnected` while the
frame is stashed, or `kcp_recv` takes the frame for the FIN frame. `Task.loses` says so on the packet
and the state before the step; a task with a stream is disconnected in no other way, unless its loop
is given up (`step_disconnects`).
-/

namespace KcpRs

open Lib Relation

namespace Task

instance (t : Task) : Decidable t.discards := inferInstanceAs (Decidable (_ ∧ _ ∧ _))

/-- The step calls `kcp_recv`. -/
def fetches (t : Task) (event : Event) : Bool :=
  match event, t.pc with
  | .tau, .fetch => t.txFrame = none
  | .tryReserve _, .permitLoop => true
  | .tau, .batchDone => t.hs = .syn
  | _, _ => false

/-- The state in which `fin_transit_state` goes through to `Disconnected`: the FIN flag has been seen,
the receive queues are empty, and the FIN frame of the task has been acknowledged. -/
def finishes (t : Task) : Bool :=
  t.finRecved && t.kcp.cb.nrcvQue + t.kcp.cb.nrcvBuf = 0 &&
    (t.hs = .finWaitPeer || t.hs = .finSent && t.kcp.getWaitsnd = 0)

/-- The step takes a packet of the conv with the RESET flag. -/
def takesReset (t : Task) : Event → Bool
  | .packet packet => resetFlagged packet && readConv packet = some t.kcp.cb.conv
  | _ => false

/-- The step calls `fin_transit_state` in such a state; a packet of the conv with the FIN flag is one
that makes the flag seen. -/
def takesFin (t : Task) (event : Event) : Bool :=
  match event, t.pc with
  | .packet packet, _ =>
      finFlagged packet && readConv packet = some t.kcp.cb.conv && { t with finRecved := true }.finishes
  | .tau, .batchDone => t.isFinHandshake && t.finishes
  | .tau, .inputDone closed => closed && t.finishes
  | _, _ => false

/-- A frame of `peer` is stashed. -/
def stashes (t peer : Task) : Bool := t.txFrame.isSome && t.kcp.cb.taken ≤ peer.framesEnd

/-- A frame of `peer` waits in the receive queues. -/
def buffers (t peer : Task) : Bool :=
  0 < t.kcp.cb.nrcvQue + t.kcp.cb.nrcvBuf && t.kcp.cb.taken < peer.framesEnd

/-- The step drops a frame of `peer`. -/
def loses (t peer : Task) (event : Event) : Bool :=
  t.hs ≠ .disconnected &&
    (t.hasStream && (t.takesReset event && (t.stashes peer || t.buffers peer) ||
        t.takesFin event && t.stashes peer) ||
      t.fetches event && t.discards && t.kcp.cb.taken < peer.framesEnd)

variable {ambient : Ambient} {config : Config} {t t' u : Task}

/-! ## The end of the FIN handshake -/

/-- A frame that is queued when nothing waits has to be acknowledged. -/
theorem waits_of_send {kcp kcp' : Kcp} {frame : Bytes} {size : Nat} (counted : kcp.cb.Counted)
    (positive : 0 < kcp.cb.mss) (nonempty : frame ≠ []) (short : frame.length < 2 ^ 32)
    (settled : kcp.getWaitsnd = 0) (sent : kcp.send frame = some (.ok size, kcp')) :
    0 < kcp'.getWaitsnd := by
  have idle : kcp.cb.sndQueue = [] := by
    have nothing := pending_of_getWaitsnd counted settled
    simp only [Ikcpcb.pending, List.map_eq_nil_iff, List.append_eq_nil_iff] at nothing
    exact nothing.2
  obtain ⟨empty, _⟩ | ⟨_, result, rfl⟩ := Kcp.send_eq sent
  · exact absurd empty nonempty
  · have code : (ikcpSend kcp.cb frame (BitVec.ofNat 32 frame.length).toInt).1 = 0 := by
      rcases ikcpSend_code kcp.cb frame (BitVec.ofNat 32 frame.length).toInt with code | code | code
      · exact code
      · rw [code] at result
        cases result
      · rw [code] at result
        cases result
    have whole : (BitVec.ofNat 32 frame.length).toInt ≠ 0 := by
      have length := List.length_pos_iff.2 nonempty
      have size : (BitVec.ofNat 32 frame.length).toNat = frame.length := by
        rw [BitVec.toNat_ofNat, Nat.mod_eq_of_lt short]
      rw [BitVec.toInt_eq_toNat_cond, size]
      split <;> omega
    have least : 0 < (BitVec.ofNat 32 frame.length).toInt := by
      by_contra small
      rw [ikcpSend, if_pos (by omega)] at code
      cases code
    rw [ikcpSend_of_empty idle least] at code
    have count := @fragmentCount_pos _ (BitVec.ofNat 32 frame.length).toInt.toNat positive
    unfold Kcp.getWaitsnd ikcpWaitsnd
    dsimp only
    rw [ikcpSend_of_empty idle least]
    unfold sendRest at code ⊢
    dsimp only at code ⊢
    split
    · rename_i many
      rw [if_pos many] at code
      cases code
    · simp only
      omega

/-- A task whose FIN frame is not empty and can be queued. -/
structure Closable (t : Task) : Prop where
  counted : t.kcp.cb.Counted
  positive : 0 < t.kcp.cb.mss
  nonempty : t.handshakeFrame ≠ []
  short : t.handshakeFrame.length < 2 ^ 32

/-- In `FinWaitPeer`. -/
theorem finTransitLoop_of_waiting {fuel : Nat} (state : t.hs = .finWaitPeer)
    (moved : finTransitLoop fuel t = some t') (gone : t'.hs = .disconnected) :
    t.finRecved ∧ t.kcp.cb.nrcvQue + t.kcp.cb.nrcvBuf = 0 := by
  cases fuel with
  | zero =>
      cases moved
      rw [state] at gone
      cases gone
  | succ fuel =>
      unfold finTransitLoop at moved
      rw [state] at moved
      dsimp only at moved
      split at moved
      · cases moved
        rw [state] at gone
        cases gone
      · rename_i ready
        simpa [not_or] using ready

/-- In `FinSent`. -/
theorem finTransitLoop_of_sent {fuel : Nat} (state : t.hs = .finSent)
    (moved : finTransitLoop fuel t = some t') (gone : t'.hs = .disconnected) :
    t.kcp.getWaitsnd = 0 ∧ t.finRecved ∧ t.kcp.cb.nrcvQue + t.kcp.cb.nrcvBuf = 0 := by
  cases fuel with
  | zero =>
      cases moved
      rw [state] at gone
      cases gone
  | succ fuel =>
      unfold finTransitLoop at moved
      rw [state] at moved
      dsimp only at moved
      split at moved
      · cases moved
        rw [state] at gone
        cases gone
      · rename_i settled
        have ready := finTransitLoop_of_waiting rfl moved gone
        exact ⟨by omega, ready⟩

/-- In `FinPending` the FIN frame has to be acknowledged first. -/
theorem finTransitLoop_of_pending {fuel : Nat} (closable : t.Closable) (state : t.hs = .finPending)
    (moved : finTransitLoop fuel t = some t') : t'.hs ≠ .disconnected := by
  intro gone
  cases fuel with
  | zero =>
      cases moved
      rw [state] at gone
      cases gone
  | succ fuel =>
      unfold finTransitLoop at moved
      rw [state] at moved
      dsimp only at moved
      split at moved
      · cases moved
        rw [state] at gone
        cases gone
      · rename_i ready
        split at moved
        · rename_i sent accepted
          obtain ⟨size, kcp, queued, rfl⟩ := handshakeSend_eq accepted
          have settled := (finTransitLoop_of_sent rfl moved gone).1
          have waits := waits_of_send closable.counted closable.positive closable.nonempty
            closable.short (by omega) queued
          have counted' : kcp.cb.Counted := by
            obtain ⟨_, rfl⟩ | ⟨_, _, rfl⟩ := Kcp.send_eq queued
            · exact closable.counted
            · exact closable.counted.ikcpSend _ _
          have flushed := @getWaitsnd_kcpFlush ({ t with flush := true, kcp }.log
            (t.sentRecord .fin t.handshakeFrame kcp)) counted'
          exact waits.ne' (flushed.symm.trans settled)
        · cases moved

/-- `fin_transit_state` goes through to `Disconnected` in no other state. -/
theorem finishes_of_finTransitState (closable : t.Closable) (later : t.hs ≠ .syn)
    (alive : t.hs ≠ .disconnected) (moved : t.finTransitState = some t')
    (gone : t'.hs = .disconnected) : t.finishes := by
  unfold finTransitState at moved
  cases state : t.hs with
  | syn => exact absurd state later
  | disconnected => exact absurd state alive
  | connected =>
      unfold finTransitLoop at moved
      rw [state] at moved
      let pending := { t with
        ticks := t.ticks + 1, hsEndTime := hsDeadline (t.clock t.ticks) t.cfg.shutdownTimeout,
        hs := .finPending }
      exact absurd gone
        (@finTransitLoop_of_pending pending _ _ ⟨closable.counted, closable.positive, closable.nonempty,
          closable.short⟩ rfl moved)
  | finPending =>
      exact absurd gone (finTransitLoop_of_pending closable state moved)
  | finSent =>
      have ready := finTransitLoop_of_sent state moved gone
      simp [finishes, state, ready]
  | finWaitPeer =>
      have ready := finTransitLoop_of_waiting state moved gone
      simp [finishes, state, ready]

/-! ## The end of a task -/

theorem finishes_noticeFin (t : Task) : t.noticeFin.finishes = { t with finRecved := true }.finishes := by
  unfold noticeFin
  split
  · rename_i noticed
    rw [show ({ t with finRecved := true } : Task) = t from by rw [← noticed]]
  · rfl

/-- Seeing the FIN flag does not change the frame. -/
theorem Closable.noticeFin (closable : t.Closable) : t.noticeFin.Closable := by
  have frame : t.noticeFin.handshakeFrame = t.handshakeFrame :=
    congrArg Front.handshakeFrame (front_of_aside t.aside_noticeFin)
  exact ⟨by rw [kcp_noticeFin]; exact closable.counted, by rw [kcp_noticeFin]; exact closable.positive,
    by rw [frame]; exact closable.nonempty, by rw [frame]; exact closable.short⟩

/-- How a packet disconnects a task. -/
theorem kcpInput_disconnects {packet : Bytes} (closable : t.Closable) (later : t.hs ≠ .syn)
    (alive : t.hs ≠ .disconnected) (moved : t.kcpInput packet = some t') (gone : t'.hs = .disconnected) :
    t.takesReset (.packet packet) ∨ t.takesFin (.packet packet) := by
  obtain ⟨_, kcp, taken, ⟨_, rfl⟩ | ⟨_, _, stray⟩ | ⟨rfl, cmd, command, flags⟩⟩ := kcpInput_cases moved
  · exact absurd gone alive
  · obtain rfl | ⟨_, _, _, _, _, _, rfl, _⟩ := synHandshakeInput_cases stray <;> exact absurd gone alive
  · have conv := readConv_of_invalidData taken
    obtain ⟨flagged, rfl⟩ | ⟨_, flagged, noticed⟩ | ⟨_, _, rfl⟩ := flags
    · refine .inl ?_
      simpa [takesReset, resetFlagged, command, conv] using flagged
    · -- Nothing of the packet has been processed so far.
      obtain ⟨_, rfl⟩ := Kcp.input_eq taken
      have set := (unflagged_eq command flagged).1
      have untouched : (ikcpInput t.kcp.cb packet).2 = t.kcp.cb :=
        ikcpInput_of_accepted_nil (accepted_of_finFlagged set _ _)
      rw [untouched] at noticed
      obtain ⟨after, _, _, transit, _, rfl⟩ := finInput_eq noticed
      have finishes : t.noticeFin.finishes :=
        finishes_of_finTransitState closable.noticeFin (by rwa [hs_noticeFin]) (by rwa [hs_noticeFin])
          transit gone
      rw [finishes_noticeFin] at finishes
      exact .inr (by simp [takesFin, set, conv, finishes])
    · exact absurd gone alive

/-- A task that has left `Syn` is disconnected by a RESET packet or at the end of the FIN handshake,
unless its loop is given up. -/
theorem step_disconnects {event : Event} (closable : t.Closable) (later : t.hs ≠ .syn)
    (alive : t.hs ≠ .disconnected) (stays : t.quits event = false) (stepped : t.step event = some t')
    (gone : t'.hs = .disconnected) : t.takesReset event ∨ t.takesFin event := by
  cases transition_of_step stepped with
  | app acted => obtain ⟨_, _, _, rfl | ⟨_, rfl⟩⟩ := app_eq acted <;> exact absurd gone alive
  | timeout pc _ late => simp [quits, pc, alive, lapsed_iff.2 (.inr late)] at stays
  | frame _ _ _ sent => exact absurd ((processInput_hs sent).symm.trans gone) alive
  | inputClosed pc transit =>
      have finishes : t.finishes := finishes_of_finTransitState (t := { t with inputClosed := true })
        ⟨closable.counted, closable.positive, closable.nonempty, closable.short⟩ later alive transit
        ((hs_kcpFlush _).symm.trans gone)
      exact .inr (by simp [takesFin, pc, finishes])
  | inputFlush | held => exact absurd ((hs_kcpFlush t).symm.trans gone) alive
  | more _ taken | stash _ taken | emptied _ taken =>
      exact absurd ((kcpRecv_hs taken).symm.trans gone) alive
  | packet _ taken => exact kcpInput_disconnects closable later alive taken gone
  | batchDone pc ended =>
      cases ended with
      | greeted early | refused early => exact absurd early later
      | closing _ finishing transit =>
          have finishes := finishes_of_finTransitState closable later alive transit gone
          exact .inr (by simp [takesFin, pc, finishing, finishes])
      | passed | panic => exact absurd gone alive
  | @fetched frame later _ _ taken =>
      have flushed := (hs_kcpFlush { later with txFrame := frame }).symm.trans gone
      exact absurd ((kcpRecv_hs taken).symm.trans flushed) alive
  | finish => exact absurd ((hs_finish t).symm.trans gone) alive
  | _ => exact absurd gone alive

/-! ## What a step takes -/

/-- Nothing is taken out of the receive queue. -/
structure Stays (t t' : Task) : Prop where
  taken : t'.kcp.cb.taken = t.kcp.cb.taken
  received : t'.received = t.received
  stash : t'.txFrame.isSome → t.txFrame.isSome

theorem Stays.trans (stays : t.Stays t') (stays' : t'.Stays u) : t.Stays u where
  taken := stays'.taken.trans stays.taken
  received := stays'.received.trans stays.received
  stash held := stays.stash (stays'.stash held)

/-- A step that keeps the stash and takes nothing. -/
theorem Stays.of_front (taken : t'.kcp.cb.taken = t.kcp.cb.taken) (same : t'.front = t.front) :
    t.Stays t' where
  taken := taken
  received := congrArg Front.received same
  stash held := by
    rw [show t.txFrame = t'.txFrame from (congrArg Front.txFrame same).symm]
    exact held

/-- What flushing and the FIN handshake leave alone includes the receive queue. -/
theorem Stays.of_kept (same : t'.kept = t.kept) : t.Stays t' :=
  .of_front (Ikcpcb.taken_congr (congrArg Kept.receiver same)) (front_of_kept same)

/-- Taking a packet takes nothing out of the receive queue. -/
theorem kcpInput_stays {packet : Bytes} (moved : t.kcpInput packet = some t') : t.Stays t' := by
  refine .of_front ?_ (front_of_aside (kcpInput_aside moved))
  have input {kcp kcp' : Kcp} {data : Bytes} {result : Except ErrorKind Unit}
      (taken : kcp.input data = some (result, kcp')) : kcp'.cb.taken = kcp.cb.taken := by
    obtain ⟨_, rfl⟩ := Kcp.input_eq taken
    exact Ikcpcb.taken_ikcpInput kcp.cb data
  obtain ⟨result, kcp, taken, outcome⟩ := kcpInput_cases moved
  have first := input taken
  obtain ⟨_, rfl⟩ | ⟨_, ok, stray⟩ | ⟨_, cmd, command, flags⟩ := outcome
  · exact first
  · obtain rfl | ⟨conv, back, result, kcp', _, entered, rfl, _⟩ := synHandshakeInput_cases stray
    · exact first
    · have second := input entered
      exact second.trans first
  · obtain ⟨flagged, rfl⟩ | ⟨_, flagged, noticed⟩ | ⟨_, _, rfl⟩ := flags
    · exact first
    · obtain ⟨later, result, kcp', transit, entered, rfl⟩ := finInput_eq noticed
      have receiver : later.kcp.cb.receiver = kcp.cb.receiver := by
        refine (congrArg Kept.receiver (kept_finTransitLoop transit)).trans ?_
        rw [kept, kcp_noticeFin]
      exact (input entered).trans ((Ikcpcb.taken_congr receiver).trans first)
    · exact first

/-- Packets that are handed to the transport. -/
theorem fed_stays (t : Task) (packets : List Bytes) :
    t.Stays ({ t with kcp := { t.kcp with outputQueue := [] }, pc := .check }.feed packets) :=
  .of_front rfl (front_feed _ packets)

/-- A flush. -/
theorem flush_stays (t : Task) : t.Stays { t.kcpFlush with pc := .head } := by
  have same := Stays.of_kept (kept_kcpFlush t)
  exact ⟨same.taken, same.received, same.stash⟩

/-- The end of the task. -/
theorem received_finish (t : Task) : t.finish.received = t.received := by
  obtain ⟨ticks, resets, only, equal⟩ := finish_eq t
  have silent : resets.filterMap Obs.popped = [] := by
    refine List.filterMap_eq_nil_iff.2 fun obs member => ?_
    obtain ⟨now, rfl⟩ := only obs member
    rfl
  rw [equal]
  simp [received, silent, Obs.popped]

/-- What the SYN handshake takes is what its call of `kcp_recv` takes. -/
theorem synHandshakeRecv_fetches {ok : Bool} (received : t.synHandshakeRecv = some (ok, t')) :
    ∃ frame later, t.kcpRecv = some (frame, later) ∧ later.Stays t' := by
  obtain ⟨_, taken⟩ | ⟨syn, later, taken, outcome⟩ := synHandshakeRecv_cases received
  · exact ⟨none, t', taken, ⟨rfl, rfl, id⟩⟩
  · have joined {before : Task} (connected : before.connect = (ok, t')) : before.Stays t' := by
      obtain ⟨_, rfl⟩ | ⟨_, _, rfl⟩ := connect_cases connected
      · exact ⟨rfl, by simp [Task.received, log, Obs.popped], id⟩
      · exact ⟨rfl, rfl, id⟩
    have tuned (before : Task) : before.Stays before.kcpApplyNodelay := ⟨rfl, rfl, id⟩
    refine ⟨some syn, later, taken, ?_⟩
    obtain ⟨_, _, rfl⟩ | ⟨_, _, connected⟩ | ⟨_, id', sent, _, accepted, connected⟩ := outcome
    · exact ⟨rfl, rfl, id⟩
    · exact (tuned later).trans (joined connected)
    · have named : later.Stays { later with sessionId := id' } := ⟨rfl, rfl, id⟩
      exact (named.trans (tuned _)).trans
        ((Stays.of_kept (kept_handshakeSend accepted)).trans (joined connected))

/-- What a step takes out of the receive queue: nothing, or what a call of `kcp_recv` takes. -/
def Fetches (t t' : Task) : Prop := ∃ frame later, t.kcpRecv = some (frame, later) ∧
  { later with txFrame := frame }.Stays t'

/-- After a batch of packets the SYN handshake may read one frame. -/
theorem BatchEnd.fetches (ended : t.BatchEnd t') (unstashed : t.hs = .syn → t.txFrame = none) :
    t.Stays t' ∨ t.hs = .syn ∧ t.Fetches t' := by
  have syn {ok : Bool} {later next : Task} (early : t.hs = .syn)
      (received : t.synHandshakeRecv = some (ok, later)) (stays : later.Stays next) : t.Fetches next := by
    obtain ⟨frame, before, taken, same⟩ := synHandshakeRecv_fetches received
    have stash : before.txFrame = none :=
      (congrArg Aside.txFrame (kcpRecv_aside taken)).trans (unstashed early)
    have all := same.trans stays
    exact ⟨frame, before, taken, ⟨all.taken, all.received, fun held => by
      have none := all.stash held
      rw [stash] at none
      cases none⟩⟩
  cases ended with
  | greeted early received | refused early received =>
      exact .inr ⟨early, syn early received ⟨rfl, rfl, id⟩⟩
  | closing _ _ transit =>
      have same := Stays.of_kept (kept_finTransitLoop transit)
      exact .inl ⟨same.taken, same.received, same.stash⟩
  | passed | panic => exact .inl ⟨rfl, rfl, id⟩

/-- A step takes frames out of the receive queue only by a call of `kcp_recv`. -/
theorem step_fetches {event : Event} (handing : t.Handing) (alive : t.hs ≠ .disconnected)
    (stepped : t.step event = some t') : t.Stays t' ∨ t.fetches event ∧ t.Fetches t' := by
  cases transition_of_step stepped with
  | app acted =>
      obtain ⟨inputRx, token, outputOpen, rfl | ⟨frame, rfl⟩⟩ := app_eq acted
      · exact .inl ⟨rfl, rfl, id⟩
      · exact .inl (.of_front rfl (front_log rfl))
  | fed => exact .inl (fed_stays t _)
  | broken => exact .inl ((fed_stays t _).trans ⟨rfl, rfl, by simp [leave]⟩)
  | lapse | unread | transportEnd | cancelled => exact .inl ⟨rfl, rfl, by simp [leave]⟩
  | update => exact .inl (.of_front (Ikcpcb.taken_congr (receiver_ikcpUpdate _ _)) rfl)
  | frame _ _ _ sent =>
      obtain ⟨receiver, aside⟩ := receiver_processInput sent
      have front := (front_of_aside aside).trans rfl
      exact .inl (.of_front (Ikcpcb.taken_congr receiver) front)
  | inputClosed _ transit =>
      have noted : t.Stays { t with inputClosed := true } := ⟨rfl, rfl, id⟩
      exact .inl ((noted.trans (.of_kept (kept_finTransitLoop transit))).trans (flush_stays _))
  | inputFlush | held => exact .inl (flush_stays t)
  | permit => exact .inl ⟨rfl, by simp [received, log, Obs.popped], by simp [log]⟩
  | more pc taken =>
      exact .inr ⟨by simp [fetches, pc], _, _, taken,
        ⟨rfl, by simp [received, log, Obs.popped], by simp⟩⟩
  | stash pc taken => exact .inr ⟨by simp [fetches, pc], _, _, taken, ⟨rfl, rfl, id⟩⟩
  | @emptied _ later pc taken =>
      have stash : later.txFrame = none :=
        (congrArg Aside.txFrame (kcpRecv_aside taken)).trans (handing.looping pc).2
      exact .inr ⟨by simp [fetches, pc], none, _, taken, ⟨rfl, rfl, by simp [stash]⟩⟩
  | packet _ taken =>
      have stays := kcpInput_stays taken
      exact .inl ⟨stays.taken, stays.received, stays.stash⟩
  | batchDone pc ended =>
      have running : t.running := by simp [Task.running, pc]
      refine (ended.fetches fun early => ?_).imp_right fun found =>
        ⟨by simp [fetches, pc, found.1], found.2⟩
      exact ((handing.ordered running alive).stash_of_syn early).2
  | fetched pc unstashed taken =>
      exact .inr ⟨by simp [fetches, pc, unstashed], _, _, taken, flush_stays _⟩
  | thrown => exact .inl (.of_front rfl (front_log rfl))
  | finish =>
      obtain ⟨_, _, _, equal⟩ := finish_eq t
      exact .inl ⟨by rw [equal], received_finish t, by rw [equal]; exact id⟩
  | _ => exact .inl ⟨rfl, rfl, id⟩

/-! ## A step that loses nothing -/

/-- A task with a stream that is disconnected without losing a frame holds none. -/
theorem step_spares {peer : Task} {event : Event} (closable : t.Closable) (later : t.hs ≠ .syn)
    (alive : t.hs ≠ .disconnected) (stream : t.hasStream) (stays : t.quits event = false)
    (kept : t.loses peer event = false) (stepped : t.step event = some t')
    (gone : t'.hs = .disconnected) : t.stashes peer = false ∧ t.buffers peer = false := by
  simp only [loses, alive, stream, ne_eq, not_false_eq_true, decide_true, Bool.true_and,
    Bool.or_eq_false_iff] at kept
  obtain ⟨⟨reset, fin⟩, _⟩ := kept
  rcases step_disconnects closable later alive stays stepped gone with taken | taken
  · rw [taken, Bool.true_and, Bool.or_eq_false_iff] at reset
    exact reset
  · rw [taken, Bool.true_and] at fin
    have empty : t.kcp.cb.nrcvQue + t.kcp.cb.nrcvBuf = 0 := by
      unfold takesFin finishes at taken
      split at taken <;> simp only [Bool.and_eq_true, decide_eq_true_eq, Bool.false_eq_true] at taken
      · exact taken.2.1.2
      · exact taken.2.1.2
      · exact taken.2.1.2
    exact ⟨fin, by simp [buffers, empty]⟩

/-- What `kcp_recv` takes for the FIN frame without losing a frame comes after the others. -/
theorem step_discards {peer : Task} {event : Event} (alive : t.hs ≠ .disconnected)
    (called : t.fetches event) (discards : t.discards) (kept : t.loses peer event = false) :
    peer.framesEnd ≤ t.kcp.cb.taken := by
  simp only [loses, alive, called, discards, ne_eq, not_false_eq_true, decide_true, Bool.true_and,
    Bool.or_eq_false_iff, decide_eq_false_iff_not, Nat.not_lt] at kept
  exact kept.2

/-- A frame that `kcp_recv` returns is not empty. -/
theorem ne_nil_of_kcpRecv {bytes : Bytes} (taken : t.kcpRecv = some (some bytes, t')) : bytes ≠ [] := by
  obtain ⟨kcp, received, _, _⟩ := kcpRecv_some taken
  obtain ⟨none, _⟩ | ⟨_, positive, same, _⟩ := Kcp.recvBytes_eq received
  · cases none
  · cases same
    have size := (Ikcpcb.ikcpPeeksize_positive_iff.1 positive).2.1
    rintro empty
    rw [Ikcpcb.headLength, empty] at size
    cases size

/-- Each move reads at most one frame. -/
theorem Move.fetched (move : Move ambient t t') :
    t'.received = t.received ∨ ∃ frame, t.kcpRecv = some (frame, t') := by
  cases move with
  | recv _ taken => exact .inr ⟨_, taken⟩
  | app event _ acted =>
      obtain ⟨_, _, _, rfl | ⟨_, rfl⟩⟩ := app_eq acted
      · exact .inl rfl
      · exact .inl (by simp [Task.received, log, Obs.popped])
  | finish => exact .inl (received_finish t)
  | leave => exact .inl rfl
  | feed => exact .inl (congrArg Front.received (front_feed _ _))
  | _ => exact .inl (by simp [Task.received, log, sentRecord, Obs.popped])

end Task

/-- The frames that `kcp_recv` has returned are not empty. -/
theorem reach_received {config : Config} {allow : Task → Event → Prop} {t : Task}
    (reach : (taskMachine config).Reach allow t) : ∀ frame ∈ t.received, frame ≠ [] := by
  refine @reach_invariant _ _ (fun t => ∀ frame ∈ t.received, frame ≠ [])
    (fun _ _ _ fresh frame member => ?_) (fun _ _ _ move holds => ?_) _ reach
  · simp [Task.received, fresh.trace] at member
  · rcases move.fetched with same | ⟨frame, taken⟩
    · rwa [same]
    · have more : _ = _ ++ frame.toList := congrArg Task.Aside.received (Task.kcpRecv_aside taken)
      intro bytes member
      rw [show Task.received _ = _ from more, List.mem_append, Option.mem_toList] at member
      rcases member with earlier | rfl
      · exact holds bytes earlier
      · exact Task.ne_nil_of_kcpRecv taken

end KcpRs
