import KcpRs.Pair.Flow
import KcpRs.Stream.Agreement

/-!
# What becomes of the FIN frame of the peer

`kcp_recv` drops a frame when the FIN flag has been seen, one segment is queued and none is
buffered, whatever the frame is. `meetsFin` is the condition on a packet under which this is the
FIN frame of the peer and nothing else: the frame is one segment, the last one of the peer, and
the flag is first seen on a packet that brings it into the receive window, or when there is nothing
else to take.
-/

namespace KcpRs

open Lib

/-- The bytes that `kcp_input` gives to the engine in the end: a packet without its FIN flag. -/
def unflagged (packet : Bytes) : Bytes :=
  if finFlagged packet then writeCmd packet (packet.getD 4 0 ^^^ kcpFin) else packet

/-- The data segments that `Kcp::input` takes from a packet when it accepts its conv. -/
def pushed (packet : Bytes) : List (Head × Bytes) :=
  match readConv packet with
  | some conv =>
      (accepted conv packet.length packet).filter fun segment => segment.1.cmd = ikcpCmdPush
  | none => []

/-- A data segment of a peer whose last segment has the number `last` and is its FIN frame `fin`:
the segment before it ends a message. -/
def upToFin (fin : Bytes) (last : Nat) (segment : Head × Bytes) : Bool :=
  segment.1.sn.toNat ≤ last && (segment.1.sn.toNat + 1 ≠ last || segment.1.frg = 0) &&
    (segment.1.sn.toNat ≠ last || segment.1.frg = 0 && segment.2 = fin)

namespace Task

/-- A packet of such a peer. One that carries the FIN frame has the FIN flag, or comes after one
that had it; the first one with the FIN flag carries the FIN frame and brings it into the receive
window, or comes when everything before the FIN frame has been taken, and the FIN frame is the key and
the id that the task knows. -/
def meetsFin (fin : Bytes) (last : Nat) (t : Task) (packet : Bytes) : Bool :=
  let segments := pushed (unflagged packet)
  let carries := segments.any fun segment => segment.1.sn.toNat = last
  segments.all (upToFin fin last) &&
    (t.finRecved ||
      if finFlagged packet then
        readConv packet ≠ some t.kcp.cb.conv || t.handshakeFrame = fin &&
          (carries && last < t.kcp.cb.rcvNxt + t.kcp.cb.rcvWnd || last ≤ t.kcp.cb.taken)
      else !carries)

/-- Every packet that arrives is of such a peer. -/
def hearsFin (fin : Bytes) (last : Nat) (t : Task) : Event → Bool
  | .packet packet => t.meetsFin fin last packet
  | _ => true

end Task

/-- A packet of which the first command is unknown is not processed. -/
theorem accepted_of_readCmd {packet : Bytes} {cmd : Byte} (command : readCmd packet = some cmd)
    (unknown : isCommand cmd = false) (conv : U32) (fuel : Nat) : accepted conv fuel packet = [] := by
  cases fuel with
  | zero => rfl
  | succ fuel =>
      unfold accepted
      dsimp only
      have same : (Head.decode packet).1.cmd = cmd := by
        rcases packet with _ | ⟨_, _ | ⟨_, _ | ⟨_, _ | ⟨_, _ | ⟨_, _⟩⟩⟩⟩⟩ <;> cases command
        rfl
      rw [same, unknown, if_pos rfl]
      simp

theorem readConv_writeCmd (packet : Bytes) (cmd : Byte) :
    readConv (writeCmd packet cmd) = readConv packet := by
  unfold readConv writeCmd
  simp

theorem finFlagged_of_readCmd {packet : Bytes} {cmd : Byte} (command : readCmd packet = some cmd) :
    finFlagged packet = decide (cmd &&& kcpFin ≠ 0) ∧ packet.getD 4 0 = cmd := by
  have first : packet[4]? = some cmd := command
  rw [finFlagged, List.getD_eq_getElem?_getD, first]
  exact ⟨rfl, rfl⟩

/-- A packet with the FIN flag is not processed. -/
theorem accepted_of_finFlagged {packet : Bytes} (flagged : finFlagged packet) (conv : U32) (fuel : Nat) :
    accepted conv fuel packet = [] := by
  cases command : readCmd packet with
  | none =>
      have short : packet.length ≤ 4 := List.getElem?_eq_none_iff.1 command
      cases fuel with
      | zero => rfl
      | succ fuel =>
          unfold accepted
          rw [if_pos (by rw [ikcpOverhead]; omega)]
  | some cmd =>
      obtain ⟨same, _⟩ := finFlagged_of_readCmd command
      rw [same, decide_eq_true_eq] at flagged
      refine accepted_of_readCmd command ?_ conv fuel
      by_contra known
      exact flagged (isCommand_and_kcpFin (by simpa using known))

/-- The data segments that the engine processes are those of the packet. -/
theorem mem_pushed {conv : U32} {packet : Bytes} {segment : Head × Bytes}
    (member : segment ∈ accepted conv packet.length packet) (push : segment.1.cmd = ikcpCmdPush) :
    segment ∈ pushed packet := by
  rw [pushed, Task.readConv_of_mem_accepted member]
  exact List.mem_filter.2 ⟨member, decide_eq_true push⟩

/-- The payloads of such a peer. -/
def OfPeer (fin : Bytes) (last : Nat) (number : Nat) (payload : Payload) : Prop :=
  (number = last → payload = ⟨0, fin⟩) ∧ (number + 1 = last → payload.frg = 0)

/-- What such a peer sends is sent under numbers up to that of its FIN frame. -/
theorem stands_of_upToFin {fin : Bytes} {last : Nat} {segment : Head × Bytes}
    (fits : upToFin fin last segment) : segment.1.sn.toNat < last + 1 ∧
      Stands (OfPeer fin last) (segment.1.segment segment.2).view segment.1.sn.toNat := by
  simp only [upToFin, Bool.and_eq_true, Bool.or_eq_true, decide_eq_true_eq] at fits
  obtain ⟨⟨most, before⟩, fin⟩ := fits
  refine ⟨Nat.lt_succ_of_le most, ?_, fun same => ?_, fun same => ?_⟩
  · exact BitVec.eq_of_toNat_eq (by simp [Seg.view, Head.segment])
  · obtain ⟨whole, data⟩ := fin.resolve_left fun other => other same
    show (⟨segment.1.frg, segment.2⟩ : Payload) = _
    rw [whole, data]
  · exact before.resolve_left fun other => other same

namespace Task

variable {ambient : Ambient} {fin : Bytes} {last : Nat} {t t' : Task}

/-- What the engine is given of a packet with the FIN flag. -/
theorem unflagged_eq {packet : Bytes} {cmd : Byte} (command : readCmd packet = some cmd)
    (flagged : cmd &&& kcpFin ≠ 0) :
    finFlagged packet ∧ unflagged packet = writeCmd packet (cmd ^^^ kcpFin) := by
  obtain ⟨same, first⟩ := finFlagged_of_readCmd command
  have set : finFlagged packet := same.trans (decide_eq_true flagged)
  exact ⟨set, by rw [unflagged, if_pos set, first]⟩

/-- The receive side holds what such a peer has sent, and the FIN frame only when the FIN flag has
been seen. -/
structure Expects (fin : Bytes) (last : Nat) (t : Task) : Prop where
  arrived : t.kcp.cb.Arrived (OfPeer fin last) (last + 1)
  noticed : t.kcp.cb.Has last → t.finRecved

/-- What arrives is of such a peer, with the FIN flag seen in time. -/
def Heeding (fin : Bytes) (last : Nat) (t : Task) (ambient : Ambient) : Prop :=
  ∀ packet, ambient.Delivered packet → (∀ segment ∈ pushed (unflagged packet), upToFin fin last segment) ∧
    (t.finRecved ∨ finFlagged packet ∨ ∀ segment ∈ pushed packet, segment.1.sn.toNat ≠ last)

/-- What the engine is given is of such a peer. -/
theorem Heeding.allSent {packet data : Bytes} (heeding : t.Heeding fin last ambient)
    (delivered : ambient.Delivered packet)
    (given : data = packet ∨ t.finRecved ∧ ∃ cmd, readCmd packet = some cmd ∧ cmd &&& kcpFin ≠ 0 ∧
      data = writeCmd packet (cmd ^^^ kcpFin)) (conv : U32) :
    Ikcpcb.AllSent (OfPeer fin last) (last + 1) (accepted conv data.length data) := by
  intro segment member push
  obtain ⟨fits, _⟩ := heeding packet delivered
  suffices same : unflagged packet = data from
    ⟨_, stands_of_upToFin (fits segment (by rw [same]; exact mem_pushed member push))⟩
  rcases given with rfl | ⟨_, cmd, command, flagged, rfl⟩
  · refine if_neg fun flagged => ?_
    rw [accepted_of_finFlagged flagged] at member
    cases member
  · exact (unflagged_eq command flagged).2

/-- Every move keeps what the task knows of the FIN frame. -/
theorem Move.expects (move : Move ambient t t') (expects : t.Expects fin last) (near : last + 1 < 2 ^ 31)
    (heeding : t.Heeding fin last ambient) :
    t'.Expects fin last ∧ (∀ number < 2 ^ 31, t.kcp.cb.Has number → t'.kcp.cb.Has number) ∧
      t.kcp.cb.taken ≤ t'.kcp.cb.taken := by
  have stays (noticed : t.finRecved) : t'.finRecved := by
    rcases move.finRecved with same | ⟨later, _⟩
    · exact same.trans noticed
    · exact later
  obtain same | ⟨packet, conv, back, data, result, kcp, delivered, taken, engine, given⟩ |
    ⟨frame, _, taken⟩ := move.receives
  · refine ⟨⟨expects.arrived.congr same, fun has => ?_⟩,
      fun number _ => (Ikcpcb.has_congr same number).2, (Ikcpcb.taken_congr same).ge⟩
    exact stays (expects.noticed ((Ikcpcb.has_congr same last).1 has))
  · obtain ⟨_, rfl⟩ := Kcp.input_eq taken
    have before : ({ t.kcp.cb with conv } : Ikcpcb).Arrived (OfPeer fin last) (last + 1) :=
      expects.arrived.congr rfl
    obtain ⟨arrived, grows⟩ := before.ikcpInput near (heeding.allSent delivered given conv)
    have receiver : t'.kcp.cb.receiver = (ikcpInput { t.kcp.cb with conv } data).2.receiver := by
      rw [engine]
      rfl
    have taken : t'.kcp.cb.taken = t.kcp.cb.taken :=
      (Ikcpcb.taken_congr receiver).trans (Ikcpcb.taken_ikcpInput { t.kcp.cb with conv } data)
    refine ⟨⟨arrived.congr receiver, fun has => stays ?_⟩,
      fun number near has => (Ikcpcb.has_congr receiver number).2 (grows number near has), taken.ge⟩
    rw [Ikcpcb.has_congr receiver] at has
    rcases Ikcpcb.has_of_ikcpInput has with earlier | ⟨segment, member, push, sn⟩
    · exact expects.noticed earlier
    · rcases given with rfl | ⟨noticed, _⟩
      · rcases (heeding _ delivered).2 with noticed | flagged | other
        · exact noticed
        · rw [accepted_of_finFlagged flagged] at member
          cases member
        · refine absurd ?_ (other segment (mem_pushed member push))
          rw [sn, BitVec.toNat_ofNat, Nat.mod_eq_of_lt (by omega)]
      · exact noticed
  · have received : t'.kcp.cb.Arrived (OfPeer fin last) (last + 1) ∧
        (∀ number < 2 ^ 31, t'.kcp.cb.Has number ↔ t.kcp.cb.Has number) ∧
          t.kcp.cb.taken ≤ t'.kcp.cb.taken := by
      rcases kcpRecv_engine taken with same | moved
      · rw [same]
        exact ⟨expects.arrived, fun _ _ => Iff.rfl, le_rfl⟩
      · obtain ⟨arrived, more, has⟩ := expects.arrived.recvMoved near
        rw [moved]
        exact ⟨arrived, has, more ▸ Nat.le_add_right _ _⟩
    obtain ⟨arrived, has, more⟩ := received
    exact ⟨⟨arrived, fun there => stays (expects.noticed ((has last (by omega)).1 there))⟩,
      fun number near => (has number near).2, more⟩

/-! ## Taking frames -/

/-- A message ends with the first segment that has the fragment number zero. -/
theorem length_takeMessage_le_of_frg {segs : List Seg} {index : Nat} {seg : Seg}
    (there : segs[index]? = some seg) (ends : seg.frg = 0) :
    (takeMessage segs).1.length ≤ index + 1 := by
  induction segs generalizing index with
  | nil => cases there
  | cons first rest inductionHypothesis =>
      unfold takeMessage
      split
      · exact Nat.succ_le_succ (Nat.zero_le _)
      · rename_i several
        cases index with
        | zero =>
            cases there
            exact absurd ends several
        | succ index => exact Nat.succ_le_succ (inductionHypothesis there)

/-- What a task knows of the FIN frame between its steps. -/
structure Knows (fin : Bytes) (last : Nat) (t : Task) : Prop extends Expects fin last t where
  known : t.finRecved → t.kcp.cb.Has last ∨ last ≤ t.kcp.cb.taken
  agreed : t.finRecved → t.handshakeFrame = fin ∧ t.hs ≠ .syn

/-- `kcp_recv` takes nothing, or it returns a frame of the segments before the FIN frame, or it
takes and drops the FIN frame, which is the key followed by the id. -/
def Swallows (fin : Bytes) (last : Nat) (t : Task) : Prop :=
  ∀ result t', t.kcpRecv = some (result, t') →
    result = none ∧ t'.trace = t.trace ∧ t'.kcp.cb.taken = t.kcp.cb.taken ∨
    (∃ frame, result = some frame ∧ t'.trace = t.trace ++ [.recv frame] ∧ t'.kcp.cb.taken ≤ last) ∨
    result = none ∧ t'.trace = t.trace ++ [.discard (t.cfg.sessionKey ++ t.sessionId)] ∧
      t.cfg.sessionKey ++ t.sessionId = fin ∧ t.kcp.cb.taken = last ∧ t'.kcp.cb.taken = last + 1

theorem Knows.swallows (knows : t.Knows fin last) (near : last + 1 < 2 ^ 31)
    (counted : t.kcp.cb.Counted) : t.Swallows fin last := by
  intro result t' taken
  have arrived := knows.arrived
  have next := arrived.rcvNxt_eq
  have most := arrived.most
  obtain ⟨kcp, ⟨got, none, rfl⟩ | ⟨bytes, got, ⟨fin, none, rfl⟩ | ⟨notFin, some, rfl⟩⟩⟩ :=
    kcpRecv_cases taken
  · rcases Kcp.recvBytes_eq got with ⟨_, rfl⟩ | ⟨_, _, other, _⟩
    · exact .inl ⟨none, rfl, rfl⟩
    · cases other
  · -- The one segment in the queue is the FIN frame.
    rcases Kcp.recvBytes_eq got with ⟨other, _⟩ | ⟨queued, _, same, rfl⟩
    · cases other
    · obtain ⟨noticed, single, nothing⟩ := fin
      rw [counted.rcvQueue] at single
      rw [counted.rcvBuf] at nothing
      have past : last < t.kcp.cb.rcvNxt := by
        rcases knows.known noticed with (below | ⟨seg, member, _⟩) | taken
        · exact below
        · rw [List.eq_nil_of_length_eq_zero nothing] at member
          cases member
        · omega
      have position : t.kcp.cb.taken = last := by omega
      obtain ⟨seg, queue⟩ := List.length_eq_one_iff.1 single
      have payload := (arrived.queue 0 seg (by rw [queue]; rfl)).1 (by omega)
      have whole : seg.frg = 0 := congrArg Payload.frg payload
      have message : takeMessage t.kcp.cb.rcvQueue = ([seg], []) := by
        rw [queue, takeMessage, if_pos whole]
      have data : bytes = t.cfg.sessionKey ++ t.sessionId := by
        rw [show t.cfg.sessionKey ++ t.sessionId = _ from (knows.agreed noticed).1]
        have bytesOf : bytes = seg.data := by
          rw [message] at same
          simpa [payloadOf] using same
        exact bytesOf.trans (congrArg Payload.data payload)
      obtain ⟨_, moved, _⟩ := arrived.recvMoved near
      rw [message] at moved
      refine .inr (.inr ⟨none, by rw [data]; rfl, (knows.agreed noticed).1, position, ?_⟩)
      show (recvMoved t.kcp.cb false).taken = last + 1
      rw [moved, position]
      rfl
  · rcases Kcp.recvBytes_eq got with ⟨other, _⟩ | ⟨queued, _, _, rfl⟩
    · cases other
    · obtain ⟨_, moved, _⟩ := arrived.recvMoved near
      refine .inr (.inl ⟨bytes, some, rfl, ?_⟩)
      show (recvMoved t.kcp.cb false).taken ≤ last
      rw [moved]
      by_contra beyond
      have split := length_takeMessage t.kcp.cb.rcvQueue
      have past : t.kcp.cb.rcvNxt = last + 1 := by omega
      -- Nothing is buffered behind the FIN frame, so something is queued before it.
      have buffered := arrived.buffer.length_le
      rw [List.length_map, past, Nat.sub_self, Nat.le_zero] at buffered
      have several : 2 ≤ t.kcp.cb.rcvQueue.length := by
        by_contra few
        have occupied := List.length_pos_iff.2 queued
        refine notFin ⟨knows.noticed (.inl (by omega)), ?_, ?_⟩
        · rw [counted.rcvQueue]
          omega
        · rw [counted.rcvBuf, buffered]
      obtain ⟨seg, there⟩ : ∃ seg, t.kcp.cb.rcvQueue[t.kcp.cb.rcvQueue.length - 2]? = .some seg :=
        ⟨_, List.getElem?_eq_getElem (by omega)⟩
      have ends := (arrived.queue _ seg there).2 (by omega)
      have short := length_takeMessage_le_of_frg there ends
      omega

/-! ## Steps -/

/-- A move for which no packet has to be noticed. -/
theorem Move.knows (move : Move ambient t t') (knows : t.Knows fin last) (near : last + 1 < 2 ^ 31)
    (heeding : t.Heeding fin last ambient) (clear : t'.finRecved = t.finRecved) :
    t'.Knows fin last := by
  obtain ⟨expects, grows, more⟩ := move.expects knows.toExpects near heeding
  refine ⟨expects, fun noticed => ?_, fun noticed => ?_⟩
  · exact (knows.known (clear ▸ noticed)).imp (grows last (by omega)) fun taken => taken.trans more
  · obtain ⟨fin, state⟩ := knows.agreed (clear ▸ noticed)
    obtain ⟨cfg, rest⟩ := move.identity
    obtain ⟨id, state'⟩ := rest state
    exact ⟨by rwa [handshakeFrame, cfg, id], state'⟩

theorem Move.finRecved_stays (move : Move ambient t t') (noticed : t.finRecved) : t'.finRecved := by
  rcases move.finRecved with same | ⟨later, _⟩
  · exact same.trans noticed
  · exact later

theorem Heeding.mono (heeding : t.Heeding fin last ambient) (stays : t.finRecved → t'.finRecved) :
    t'.Heeding fin last ambient :=
  fun packet delivered => ⟨(heeding packet delivered).1, (heeding packet delivered).2.imp_left stays⟩

/-- Moves keep what the task knows of the FIN frame, whether or not the FIN flag is noticed. -/
theorem Moves.expects (moves : Moves ambient t t') (expects : t.Expects fin last)
    (near : last + 1 < 2 ^ 31) (heeding : t.Heeding fin last ambient) : t'.Expects fin last := by
  suffices both : t'.Expects fin last ∧ t'.Heeding fin last ambient from both.1
  refine @Moves.invariant _ (fun u => u.Expects fin last ∧ u.Heeding fin last ambient) _ _ moves
    (fun u u' move both => ?_) ⟨expects, heeding⟩
  obtain ⟨expects, heeding⟩ := both
  exact ⟨(move.expects expects near heeding).1, heeding.mono move.finRecved_stays⟩

/-- Moves for which no packet has to be noticed. -/
theorem Moves.knows (moves : Moves ambient t t') (knows : t.Knows fin last)
    (near : last + 1 < 2 ^ 31) (heeding : t.Heeding fin last ambient)
    (clear : t.finRecved ∨ ∀ packet, ¬ ambient.Delivered packet) : t'.Knows fin last := by
  suffices both : t'.Knows fin last ∧ t'.Heeding fin last ambient ∧ (t.finRecved → t'.finRecved) from
    both.1
  refine @Moves.invariant _ (fun u => u.Knows fin last ∧ u.Heeding fin last ambient ∧
    (t.finRecved → u.finRecved)) _ _ moves (fun u u' move both => ?_) ⟨knows, heeding, id⟩
  obtain ⟨knows, heeding, stays⟩ := both
  refine ⟨move.knows knows near heeding ?_, heeding.mono move.finRecved_stays,
    fun noticed => move.finRecved_stays (stays noticed)⟩
  rcases move.finRecved with same | ⟨later, packet, _, delivered, _⟩
  · exact same
  · rcases clear with noticed | none
    · exact later.trans (stays noticed).symm
    · exact absurd delivered (none packet)

/-- A packet that is refused as invalid is of the conv. -/
theorem readConv_of_invalidData {kcp kcp' : Kcp} {packet : Bytes}
    (refused : kcp.input packet = some (.error .invalidData, kcp')) :
    readConv packet = some kcp.cb.conv := by
  obtain ⟨result, _⟩ := Kcp.input_eq refused
  have long : ikcpOverhead ≤ packet.length := by
    rcases Kcp.input_error refused with other | ⟨_, long⟩
    · cases other
    · exact long
  cases read : readConv packet with
  | none =>
      rw [readConv, if_pos long] at read
      cases read
  | some conv =>
      by_contra other
      rw [ikcpInput_other read fun same => other (congrArg some same)] at result
      cases result

/-- How `kcp_input` notices the FIN flag. -/
theorem kcpInput_notices {packet : Bytes} (moved : t.kcpInput packet = some t')
    (before : t.finRecved = false) (noticed : t'.finRecved) :
    t'.hs ≠ .syn ∧ t'.handshakeFrame = t.handshakeFrame ∧ inputCode t.kcp.cb.conv packet ≠ -1 ∧
      readConv packet = some t.kcp.cb.conv ∧ ∃ cmd block, readCmd packet = some cmd ∧ cmd &&& kcpFin ≠ 0 ∧
        block.receiver = t.kcp.cb.receiver ∧ block.settings = t.kcp.cb.settings ∧
        block.conv = t.kcp.cb.conv ∧
        t'.kcp.cb = (ikcpInput block (writeCmd packet (cmd ^^^ kcpFin))).2 := by
  have unnoticed {later : Task} (same : later.finRecved = t.finRecved) :
      ¬ later.finRecved := by simp [same, before]
  obtain ⟨_, kcp, taken, ⟨_, rfl⟩ | ⟨_, _, stray⟩ | ⟨rfl, cmd, command, flags⟩⟩ := kcpInput_cases moved
  · exact absurd noticed (unnoticed rfl)
  · obtain rfl | ⟨_, _, _, _, _, _, rfl, _⟩ := synHandshakeInput_cases stray <;>
      exact absurd noticed (unnoticed rfl)
  · have read := readConv_of_invalidData taken
    obtain ⟨result, rfl⟩ := Kcp.input_eq taken
    obtain ⟨_, rfl⟩ | ⟨_, flagged, marked⟩ | ⟨_, _, rfl⟩ := flags
    · exact absurd noticed (unnoticed rfl)
    · -- Nothing of the packet has been processed so far.
      have untouched : (ikcpInput t.kcp.cb packet).2 = t.kcp.cb :=
        ikcpInput_of_accepted_nil (accepted_of_finFlagged (unflagged_eq command flagged).1 _ _)
      rw [untouched] at marked
      obtain ⟨later, _, kcp, transit, again, rfl⟩ := finInput_eq marked
      obtain ⟨_, rfl⟩ := Kcp.input_eq again
      have same := kept_finTransitLoop transit
      have aside : later.aside = t.aside := (congrArg Kept.aside same).trans (aside_noticeFin t)
      have engine : later.kcp.cb.receiver = t.kcp.cb.receiver ∧
          later.kcp.cb.settings = t.kcp.cb.settings ∧ later.kcp.cb.conv = t.kcp.cb.conv := by
        rw [← kcp_noticeFin t]
        exact ⟨congrArg Kept.receiver same, congrArg Kept.settings same, congrArg Kept.conv same⟩
      have awake : later.hs ≠ .syn := finTransitState_not_syn transit
      refine ⟨awake, ?_, fun code => ?_, read, cmd, later.kcp.cb, command, flagged,
        engine.1, engine.2.1, engine.2.2, rfl⟩
      · have cfg : later.cfg = t.cfg := congrArg Aside.cfg aside
        have id : later.sessionId = t.sessionId := congrArg Aside.sessionId aside
        show later.cfg.sessionKey ++ later.sessionId = _
        rw [cfg, id, handshakeFrame]
      · rw [ikcpInput_fst, code] at result
        cases result
    · exact absurd noticed (unnoticed rfl)

/-- The FIN frame arrives with the packet that makes the task notice the FIN flag. -/
theorem kcpInput_has {packet : Bytes} (moved : t.kcpInput packet = some t')
    (before : t.finRecved = false) (noticed : t'.finRecved) (near : last + 1 < 2 ^ 31)
    (expects : t.Expects fin last) (width : t.kcp.cb.rcvWnd < 2 ^ 31)
    (meets : t.meetsFin fin last packet) :
    (t'.kcp.cb.Has last ∨ last ≤ t'.kcp.cb.taken) ∧ t'.handshakeFrame = fin ∧ t'.hs ≠ .syn := by
  obtain ⟨state, frame, code, read, cmd, block, command, flagged, receiver, settings, conv, engine⟩ :=
    kcpInput_notices moved before noticed
  obtain ⟨set, same⟩ := unflagged_eq command flagged
  have long : ¬ (BitVec.ofNat 32 packet.length).toInt < ikcpOverhead := fun short =>
    code (if_pos short)
  simp only [meetsFin, before, set, read, Bool.false_or, if_true, same, Bool.and_eq_true,
    Bool.or_eq_true, List.all_eq_true, List.any_eq_true, decide_eq_true_eq, ne_eq, not_true_eq_false,
    decide_false] at meets
  obtain ⟨fits, agreed, brings⟩ := meets
  refine ⟨brings.imp ?_ fun taken => ?_, frame.trans agreed, state⟩
  · rintro ⟨⟨segment, member, number⟩, inside⟩
    have length : (writeCmd packet (cmd ^^^ kcpFin)).length = packet.length := List.length_set
    rw [pushed, readConv_writeCmd, read, ← conv] at member
    obtain ⟨processed, push⟩ := List.mem_filter.1 member
    have arrived : block.Arrived (OfPeer fin last) (last + 1) := expects.arrived.congr receiver
    have window : block.rcvWnd = t.kcp.cb.rcvWnd := congrArg Ikcpcb.Settings.rcvWnd settings
    have next : block.rcvNxt = t.kcp.cb.rcvNxt := congrArg Ikcpcb.Receiver.rcvNxt receiver
    rw [engine]
    refine arrived.has_ikcpInput near (by omega) (fun other member push => ?_) processed
      (of_decide_eq_true push) ?_ (Nat.lt_succ_self _) (by omega) (by rwa [length])
    · exact ⟨_, stands_of_upToFin (fits other (mem_pushed member push))⟩
    · rw [← number]
      exact BitVec.eq_of_toNat_eq (by simp)
  · rw [engine, Ikcpcb.taken_ikcpInput, Ikcpcb.taken_congr receiver]
    exact taken

theorem meetsFin_of_delivered {event : Event} {packet : Bytes} (hears : t.hearsFin fin last event)
    (delivered : (t.ambient event).Delivered packet) : t.meetsFin fin last packet := by
  rw [show event = .packet packet from delivered] at hears
  exact hears

/-- A packet that the task may meet. -/
theorem heeding_of_meetsFin {event : Event} (hears : t.hearsFin fin last event) :
    t.Heeding fin last (t.ambient event) := by
  intro packet delivered
  have meets := meetsFin_of_delivered hears delivered
  simp only [meetsFin, Bool.and_eq_true, Bool.or_eq_true, List.all_eq_true] at meets
  refine ⟨meets.1, meets.2.imp_right fun rest => ?_⟩
  by_cases flagged : finFlagged packet
  · exact .inl flagged
  · rw [if_neg flagged, unflagged, if_neg flagged, Bool.not_eq_true', List.any_eq_false] at rest
    exact .inr fun segment member => by simpa using rest segment member

/-- A step keeps what the task knows of the FIN frame. -/
theorem step_knows {event : Event} (placed : t.Placed) (knows : t.Knows fin last)
    (near : last + 1 < 2 ^ 31) (width : t.kcp.cb.rcvWnd < 2 ^ 31) (hears : t.hearsFin fin last event)
    (stepped : t.step event = some t') : t'.Knows fin last := by
  have moves := step_moves placed stepped
  have heeding := heeding_of_meetsFin hears
  by_cases clear : t.finRecved ∨ ∀ packet, ¬ (t.ambient event).Delivered packet
  · exact moves.knows knows near heeding clear
  · rw [not_or, not_forall] at clear
    obtain ⟨before, packet, delivered⟩ := clear
    rw [not_not] at delivered
    have meets := meetsFin_of_delivered hears delivered
    rw [Bool.not_eq_true] at before
    have expects := moves.expects knows.toExpects near heeding
    rw [show event = .packet packet from delivered] at stepped
    obtain ⟨pc, rfl⟩ := step_packet stepped
    cases moved : t.kcpInput packet with
    | none => exact ⟨⟨knows.arrived, knows.noticed⟩, knows.known, knows.agreed⟩
    | some later =>
        rw [moved] at expects
        have has (noticed : later.finRecved) := kcpInput_has moved before noticed near knows.toExpects width meets
        exact ⟨expects, fun noticed => (has noticed).1, fun noticed => (has noticed).2⟩

/-- A new engine has received nothing. -/
theorem Fresh.knows {config : Config} {conv : U32} {id : Bytes} (fresh : Fresh config conv id t) :
    t.Knows fin last where
  arrived := by
    refine ⟨?_, ?_, fun index seg queued => ?_, ?_⟩
    · rw [fresh.empty.rcvQueue]
      exact Nat.zero_le _
    · rw [fresh.empty.rcvNxt]
      exact Nat.zero_le _
    · rw [fresh.empty.rcvQueue] at queued
      cases queued
    · rw [fresh.empty.rcvBuf]
      exact .nil _ _ _
  noticed has := by
    rcases has with below | ⟨seg, member, _⟩
    · rw [fresh.empty.rcvNxt] at below
      cases below
    · rw [fresh.empty.rcvBuf] at member
      cases member
  known noticed := by simp [fresh.finRecved] at noticed
  agreed noticed := by simp [fresh.finRecved] at noticed

end Task

theorem reach_knows {config : Config} {fin : Bytes} {last : Nat} (near : last + 1 < 2 ^ 31) {t : Task}
    (reach : (taskMachine config).Reach (fun t event => t.hearsFin fin last event) t) :
    t.Knows fin last := by
  refine reach.invariant (fun t => t.Knows fin last) (fun t initial => ?_)
    fun t event next prior knows hears stepped =>
      Task.step_knows (reach_placed prior) knows near
        ((reach_rcvWnd prior).trans_lt (receiveWindow_lt config)) hears stepped
  have started {conv : U32} {id : Bytes} {clock : Nat → U32}
      (started : Task.start config conv id clock = some t) : t.Knows fin last := by
    obtain ⟨fresh, isFresh, moves⟩ := @Task.start_moves .idle _ _ _ _ _ started
    exact moves.knows isFresh.knows near nofun (.inr nofun)
  obtain ⟨_, _, _, start⟩ | ⟨_, _, _, start⟩ := initial
  · exact started start
  · exact started start

/-- In every run in which the packets that arrive are those of a peer whose FIN frame is the key
followed by the id in one segment, the last one, every call of `kcp_recv` swallows the FIN frame
and nothing else. -/
theorem finFrame_swallowed {config : Config} {fin : Bytes} {last : Nat} (near : last + 1 < 2 ^ 31)
    {t : Task} (reach : (taskMachine config).Reach (fun t event => t.hearsFin fin last event) t) :
    t.Swallows fin last :=
  (reach_knows near reach).swallows near (reach_counted reach)

/-- The server for conv 1 has been sent a SYN frame with the id `[7]`, and then `frame` with the FIN
flag; it is about to fetch what has arrived. -/
def finishingRun (frame : Bytes) (permits : Task → Event → Bool) : Option Task :=
  (Task.start sampleConfig 1 [] fun _ => 0).bind fun t => (taskMachine sampleConfig).exec permits t
    [.drain .sent, .tau, .packet (encodePacket [pushSeg Kcp.synConv 0 0 [7]]), .noPacket, .tau, .tau,
      .drain .sent, .tau, .packet (setFin (encodePacket [pushSeg 1 1 1 frame])), .noPacket, .tau]

theorem reach_of_finishingRun {frame : Bytes} {allow : Task → Event → Prop}
    {permits : Task → Event → Bool} {t : Task} (permitted : ∀ t event, permits t event → allow t event)
    (executed : finishingRun frame permits = some t) : (taskMachine sampleConfig).Reach allow t := by
  obtain ⟨first, started, executed⟩ := Option.bind_eq_some_iff.1 executed
  exact Machine.reach_of_exec permitted (.initial (.inr ⟨1, by decide, _, started⟩)) executed

/-- The FIN frame is dropped. -/
theorem finFrame_swallowed_dropped : ∃ t t',
    (taskMachine sampleConfig).Reach (fun t event => t.hearsFin [7] 1 event) t ∧
    t.kcpRecv = some (none, t') ∧ .discard [7] ∈ t'.trace ∧ t.Swallows [7] 1 := by
  have run : (finishingRun [7] fun t event => t.hearsFin [7] 1 event).map (fun t => t.kcpRecv.map fun taken =>
      (taken.1, decide (.discard [7] ∈ taken.2.trace))) = some (some (none, true)) := by
    decide +kernel
  obtain ⟨t, executed, view⟩ := Option.map_eq_some_iff.1 run
  obtain ⟨⟨result, t'⟩, taken, shown⟩ := Option.map_eq_some_iff.1 view
  obtain ⟨rfl, dropped⟩ := Prod.mk.inj shown
  have reach : (taskMachine sampleConfig).Reach (fun t event => t.hearsFin [7] 1 event) t :=
    reach_of_finishingRun (fun _ _ permitted => permitted) executed
  exact ⟨t, t', reach, taken, of_decide_eq_true dropped, finFrame_swallowed (by decide) reach⟩

/-- In message mode, an id that is longer than a segment. -/
def longConfig : Config :=
  { mtu := 50, nodelay := { nodelay := true, interval := 10, resend := 0, nc := true }, stream := false
    sessionIdLen := 27 }

/-- The output queue is drained and the task waits. -/
def turnEvents : List Event := [.drain .sent, .tau]

/-- The timer fires. -/
def wakeEvents : List Event := .sleep :: turnEvents

/-- A packet is taken as a batch of its own. -/
def takeEvents (packet : Bytes) : List Event := [.packet packet, .noPacket, .tau, .tau] ++ turnEvents

/-- The input channel is closed, and the task notices it. -/
def shutdownEvents : List Event := [.app .closeSender, .recvInput, .tau]

/-- The two fragments of the id, under the numbers from `sn` on. -/
def idSegs (conv sn una : U32) (ts : U32) : Seg × Seg :=
  ({ pushSeg conv sn una (List.replicate 26 7) with wnd := 256, frg := 1, ts },
    { pushSeg conv (sn + 1) una [7] with wnd := 256, ts })

/-- The acknowledgement of a segment. -/
def ackSeg (sn una : U32) (wnd : BitVec 16) (ts : U32) : Seg :=
  { conv := 1, cmd := ikcpCmdAck, wnd, ts, sn, una }

/-- The SYN frames and their acknowledgements are exchanged, the client shuts down its input channel
and its FIN frame is delivered and taken. -/
def longEvents : List PairEvent :=
  let syn := idSegs Kcp.synConv 0 0
  let reply := idSegs 1 0 2 200
  let fin := idSegs 1 2 2 400
  (turnEvents ++ wakeEvents ++ turnEvents ++ wakeEvents ++ wakeEvents).map .client ++
  (turnEvents ++ takeEvents (encodePacket [(syn 0).1]) ++ wakeEvents ++ turnEvents ++ wakeEvents ++
    wakeEvents).map .server ++
  (takeEvents (encodePacket [ackSeg 0 1 255 0]) ++ turnEvents ++ wakeEvents).map .client ++
  (takeEvents (encodePacket [(syn 200).2]) ++ wakeEvents ++ wakeEvents ++ wakeEvents ++
    turnEvents).map .server ++
  (takeEvents (encodePacket [ackSeg 1 2 256 200]) ++ takeEvents (encodePacket [reply.1]) ++
    takeEvents (encodePacket [reply.2]) ++ shutdownEvents ++ turnEvents ++ wakeEvents ++ wakeEvents ++
    turnEvents ++ wakeEvents ++ wakeEvents).map .client ++
  (takeEvents (encodePacket [ackSeg 0 1 255 200]) ++ takeEvents (encodePacket [ackSeg 1 2 256 200]) ++
    takeEvents (setFin (encodePacket [fin.1])) ++ takeEvents (setFin (encodePacket [fin.2])) ++
    turnEvents).map .server ++ [.server (.reserve true)]

/-- A FIN frame of two segments is shown to an application, although the other one has sent nothing;
and a frame that is not the FIN frame is dropped when it has the FIN flag. -/
theorem finFrame_not_swallowed : (∃ p, (pairMachine longConfig).Reachable p ∧ p.server.hs ≠ .syn ∧
      p.client.finQueued ∧ p.client.offered = [] ∧ p.server.shown = [p.client.handshakeFrame] ∧
      p.client.handshakeFrame = p.server.cfg.sessionKey ++ p.server.sessionId) ∧
    ∃ t t', (taskMachine sampleConfig).Reachable t ∧ t.hs ≠ .syn ∧ t.kcpRecv = some (none, t') ∧
      .discard [9] ∈ t'.trace ∧ [9] ≠ t.cfg.sessionKey ++ t.sessionId := by
  constructor
  · have run : (pairRun longConfig 1 (List.replicate 27 7) (fun reading => 100 * BitVec.ofNat 32 (reading / 4))
        (fun reading => 100 * BitVec.ofNat 32 (reading / 4)) longEvents).map (fun p =>
          decide (p.server.hs ≠ .syn ∧ p.client.offered = [] ∧
            p.server.shown = [p.client.handshakeFrame]) &&
          decide (p.client.handshakeFrame = p.server.cfg.sessionKey ++ p.server.sessionId) &&
          p.client.sends.any fun sent => sent.kind = .fin) = some true := by
      decide +kernel
    obtain ⟨p, executed, view⟩ := Option.map_eq_some_iff.1 run
    rw [Bool.and_eq_true, Bool.and_eq_true, decide_eq_true_eq, decide_eq_true_eq, List.any_eq_true] at view
    obtain ⟨⟨⟨awake, offered, shown⟩, frame⟩, sent, member, kind⟩ := view
    exact ⟨p, reach_of_pairRun rfl (by decide) executed, awake,
      ⟨sent, member, of_decide_eq_true kind⟩, offered, shown, frame⟩
  · have run : (finishingRun [9] fun _ _ => true).map (fun t =>
        (t.hs ≠ .syn && t.cfg.sessionKey ++ t.sessionId = [7], t.kcpRecv.map fun taken =>
          (taken.1, decide (.discard [9] ∈ taken.2.trace)))) = some (true, some (none, true)) := by
      decide +kernel
    obtain ⟨t, executed, view⟩ := Option.map_eq_some_iff.1 run
    obtain ⟨state, view⟩ := Prod.mk.inj view
    rw [Bool.and_eq_true, decide_eq_true_eq, decide_eq_true_eq] at state
    obtain ⟨awake, frame⟩ := state
    obtain ⟨⟨result, t'⟩, taken, view⟩ := Option.map_eq_some_iff.1 view
    obtain ⟨rfl, dropped⟩ := Prod.mk.inj view
    refine ⟨t, t', reach_of_finishingRun (fun _ _ _ => trivial) executed, awake, taken,
      of_decide_eq_true dropped, ?_⟩
    rw [frame]
    decide

end KcpRs
