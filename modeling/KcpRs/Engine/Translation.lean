import KcpRs.Engine.Packet
import KcpRs.Engine.Run

/-!
# Clocks and sequence numbers that wrap around

The engine compares times with times and numbers with numbers, and each only by the sign of a
difference. So nothing depends on where the clocks of the two sides and the two sequence numbers
start: a block that is moved by an `Offset` answers every call, with the times and numbers in it
moved too, as the block itself does, up to the offset (`translated_run`). In particular nothing
happens when a time or a number passes `2 ^ 32`.
-/

namespace KcpRs

open Lib

/-- How far the clock, the clock of the peer, the numbers of what is sent and the numbers of what is
received are moved. -/
structure Offset where
  time : U32
  peer : U32
  sent : Nat
  heard : Nat

namespace Offset

def sent32 (offset : Offset) : U32 := BitVec.ofNat 32 offset.sent

def heard32 (offset : Offset) : U32 := BitVec.ofNat 32 offset.heard

/-- The offset that the peer sees. -/
def flip (offset : Offset) : Offset :=
  { time := offset.peer, peer := offset.time, sent := offset.heard, heard := offset.sent }

/-- A segment of `snd_buf`. -/
def outward (offset : Offset) (seg : Seg) : Seg :=
  { seg with
    ts := seg.ts + offset.time
    sn := seg.sn + offset.sent32
    una := seg.una + offset.heard32
    resendts := seg.resendts + offset.time }

/-- A segment of `rcv_buf` or `rcv_queue`. -/
def inward (offset : Offset) (seg : Seg) : Seg :=
  { seg with
    ts := seg.ts + offset.peer
    sn := seg.sn + offset.heard32
    una := seg.una + offset.sent32 }

/-- An entry of the acklist. -/
def ack (offset : Offset) (ack : U32 × U32) : U32 × U32 :=
  (ack.1 + offset.heard32, ack.2 + offset.peer)

/-- A block. `ts_probe` means nothing while no probe is scheduled, so it is given. -/
def block (offset : Offset) (tsProbe : U32) (kcp : Ikcpcb) : Ikcpcb :=
  { kcp with
    sndUna := kcp.sndUna + offset.sent32
    sndNxt := kcp.sndNxt + offset.sent
    rcvNxt := kcp.rcvNxt + offset.heard
    current := kcp.current + offset.time
    tsFlush := kcp.tsFlush + offset.time
    tsProbe
    sndBuf := kcp.sndBuf.map offset.outward
    rcvQueue := kcp.rcvQueue.map offset.inward
    rcvBuf := kcp.rcvBuf.map offset.inward
    acklist := kcp.acklist.map offset.ack }

end Offset

/-- Moved by an offset, `kcp` is `kcp'`. -/
def Translated (offset : Offset) (kcp kcp' : Ikcpcb) : Prop :=
  ∃ tsProbe, (kcp.probeWait ≠ 0 → tsProbe = kcp.tsProbe + offset.time) ∧
    kcp' = offset.block tsProbe kcp

/-! ## Differences -/

/-- Two times that are moved together are as far apart as before. -/
@[simp] theorem itimediff_shift (a b c : U32) : itimediff (a + c) (b + c) = itimediff a b := by
  unfold itimediff serialDiff
  rw [add_sub_add_right_eq_sub]

@[simp] theorem itimediff_shift_add (a b c d : U32) :
    itimediff (a + c) (b + c + d) = itimediff a (b + d) := by
  rw [add_right_comm, itimediff_shift]

variable {offset : Offset} {tsProbe : U32} {kcp kcp' : Ikcpcb}

namespace Offset

@[simp] theorem sndNxt32_block : (offset.block tsProbe kcp).sndNxt32 = kcp.sndNxt32 + offset.sent32 :=
  BitVec.ofNat_add _ _

@[simp] theorem rcvNxt32_block : (offset.block tsProbe kcp).rcvNxt32 = kcp.rcvNxt32 + offset.heard32 :=
  BitVec.ofNat_add _ _

/-- The data stays where it is. -/
@[simp] theorem payloadOf_inward (segs : List Seg) :
    payloadOf (segs.map offset.inward) = payloadOf segs := by
  simp [payloadOf, List.flatMap_map, inward]

/-! ## Sending and receiving -/

/-- `ikcp_send` only appends to the send queue, which has no times and numbers yet. -/
theorem ikcpSend_block (buffer : Bytes) (len : Int) :
    ikcpSend (offset.block tsProbe kcp) buffer len =
      ((ikcpSend kcp buffer len).1, offset.block tsProbe (ikcpSend kcp buffer len).2) := by
  have rest (kcp : Ikcpcb) (buffer : Bytes) (len : Nat) :
      sendRest (offset.block tsProbe kcp) buffer len =
        ((sendRest kcp buffer len).1, offset.block tsProbe (sendRest kcp buffer len).2) := by
    unfold sendRest
    dsimp only [block]
    split <;> rfl
  have extend : sendExtend (offset.block tsProbe kcp) buffer len.toNat =
      (offset.block tsProbe (sendExtend kcp buffer len.toNat).1,
        (sendExtend kcp buffer len.toNat).2) := by
    unfold sendExtend
    rw [show (offset.block tsProbe kcp).sndQueue = kcp.sndQueue from rfl,
      show (offset.block tsProbe kcp).mss = kcp.mss from rfl]
    cases kcp.sndQueue.getLast? with
    | none => rfl
    | some old =>
        dsimp only
        by_cases room : old.data.length < kcp.mss
        · rw [if_pos room, if_pos room]
          rfl
        · rw [if_neg room, if_neg room]
  unfold ikcpSend
  split
  · rfl
  · rw [extend, rest, show (offset.block tsProbe kcp).stream = kcp.stream from rfl]
    split
    · dsimp only
      split
      · rfl
      · rw [rest]
    · rfl

theorem moveTake_block (seg : Seg) (rest : List Seg) :
    moveTake (offset.block tsProbe kcp) (offset.inward seg) (rest.map offset.inward) =
      offset.block tsProbe (moveTake kcp seg rest) := by
  simp only [moveTake, block, List.map_append, List.map_singleton, Nat.add_right_comm]

/-- The head of the receive buffer is in order for the moved block when it is for the block. -/
theorem moveReady_block (fuel : Nat) :
    moveReady fuel (offset.block tsProbe kcp) = offset.block tsProbe (moveReady fuel kcp) := by
  induction fuel generalizing kcp with
  | zero => rfl
  | succ fuel inductionHypothesis =>
      unfold moveReady
      cases buffered : kcp.rcvBuf with
      | nil => simp [block, buffered]
      | cons seg rest =>
          rw [show (offset.block tsProbe kcp).rcvBuf = offset.inward seg :: rest.map offset.inward by
            simp [block, buffered]]
          refine (if_congr (and_congr ?_ Iff.rfl) ?_ rfl).trans (apply_ite _ _ _ _).symm
          · rw [rcvNxt32_block]
            exact add_left_inj _
          · rw [moveTake_block, inductionHypothesis]

theorem moveAvailable_block :
    moveAvailable (offset.block tsProbe kcp) = offset.block tsProbe (moveAvailable kcp) := by
  unfold moveAvailable
  rw [moveReady_block, show (offset.block tsProbe kcp).rcvBuf.length = kcp.rcvBuf.length from
    List.length_map _]

/-- A message ends where it did: `frg` is not moved. -/
theorem takeMessage_inward (segs : List Seg) : takeMessage (segs.map offset.inward) =
    ((takeMessage segs).1.map offset.inward, (takeMessage segs).2.map offset.inward) := by
  induction segs with
  | nil => rfl
  | cons seg rest inductionHypothesis =>
      rw [List.map_cons, takeMessage, takeMessage, inductionHypothesis]
      rw [show (offset.inward seg).frg = seg.frg from rfl]
      split <;> rfl

theorem recvMoved_block (ispeek : Bool) : recvMoved (offset.block tsProbe kcp) ispeek =
    offset.block tsProbe (recvMoved kcp ispeek) := by
  have merged : recvMerged (offset.block tsProbe kcp) ispeek =
      offset.block tsProbe (recvMerged kcp ispeek) := by
    unfold recvMerged
    split
    · rfl
    · simp only [block, takeMessage_inward, List.length_map]
  unfold recvMoved
  rw [merged, moveAvailable_block]
  refine Eq.trans ?_ (apply_ite (offset.block tsProbe) _ _ _).symm
  rfl

/-- The size of the next message. -/
theorem ikcpPeeksize_block : ikcpPeeksize (offset.block tsProbe kcp) = ikcpPeeksize kcp := by
  have loop (segs : List Seg) (length : Int) :
      peeksizeLoop (segs.map offset.inward) length = peeksizeLoop segs length := by
    induction segs generalizing length with
    | nil => rfl
    | cons seg rest inductionHypothesis =>
        simp only [List.map_cons, peeksizeLoop, inward, inductionHypothesis]
  unfold ikcpPeeksize
  rw [show (offset.block tsProbe kcp).rcvQueue = kcp.rcvQueue.map offset.inward from rfl, loop]
  cases kcp.rcvQueue <;> rfl

/-- `ikcp_recv` returns the same bytes. -/
theorem ikcpRecv_block (len : Int) : ikcpRecv (offset.block tsProbe kcp) len =
    ((ikcpRecv kcp len).1, (ikcpRecv kcp len).2.1, offset.block tsProbe (ikcpRecv kcp len).2.2) := by
  have queue : (offset.block tsProbe kcp).rcvQueue = kcp.rcvQueue.map offset.inward := rfl
  unfold ikcpRecv
  dsimp only
  rw [queue, ikcpPeeksize_block, recvMoved_block, takeMessage_inward, payloadOf_inward,
    List.foldl_map]
  by_cases empty : kcp.rcvQueue = []
  · rw [if_pos empty, if_pos (List.map_eq_nil_iff.2 empty)]
  · rw [if_neg empty, if_neg fun other => empty (List.map_eq_nil_iff.1 other)]
    generalize (if len < 0 then wrap32 (-len) else len) = room
    split
    · rfl
    · split <;> rfl

/-! ## Acknowledgements -/

/-- The segment with the number that is acknowledged. -/
theorem parseAckLoop_outward (sn : U32) (segs : List Seg) :
    parseAckLoop (sn + offset.sent32) (segs.map offset.outward) =
      ((parseAckLoop sn segs).1.map offset.outward, (parseAckLoop sn segs).2) := by
  induction segs with
  | nil => rfl
  | cons seg rest inductionHypothesis =>
      have number : (offset.outward seg).sn = seg.sn + offset.sent32 := rfl
      simp only [List.map_cons, parseAckLoop, inductionHypothesis, number, itimediff_shift,
        add_left_inj]
      split
      · rfl
      · split <;> rfl

/-- The segments below the number that is acknowledged. -/
theorem parseUnaLoop_outward (una : U32) (segs : List Seg) :
    parseUnaLoop (una + offset.sent32) (segs.map offset.outward) =
      ((parseUnaLoop una segs).1.map offset.outward, (parseUnaLoop una segs).2) := by
  induction segs with
  | nil => rfl
  | cons seg rest inductionHypothesis =>
      have number : (offset.outward seg).sn = seg.sn + offset.sent32 := rfl
      simp only [List.map_cons, parseUnaLoop, inductionHypothesis, number, itimediff_shift]
      split <;> rfl

/-- The segments that are skipped by an acknowledgement. -/
theorem parseFastackLoop_outward (sn : U32) (segs : List Seg) :
    parseFastackLoop (sn + offset.sent32) (segs.map offset.outward) =
      (parseFastackLoop sn segs).map offset.outward := by
  induction segs with
  | nil => rfl
  | cons seg rest inductionHypothesis =>
      have number : (offset.outward seg).sn = seg.sn + offset.sent32 := rfl
      simp only [List.map_cons, parseFastackLoop, inductionHypothesis, number, itimediff_shift,
        ne_eq, add_left_inj]
      split
      · rfl
      · split <;> rfl

/-- A number lies in the window of what is in flight if it does so moved. -/
theorem beside_block (sn : U32) : (itimediff (sn + offset.sent32) (offset.block tsProbe kcp).sndUna < 0 ∨
    0 ≤ itimediff (sn + offset.sent32) (offset.block tsProbe kcp).sndNxt32) ↔
      itimediff sn kcp.sndUna < 0 ∨ 0 ≤ itimediff sn kcp.sndNxt32 := by
  rw [sndNxt32_block, show (offset.block tsProbe kcp).sndUna = kcp.sndUna + offset.sent32 from rfl,
    itimediff_shift, itimediff_shift]

theorem ikcpParseAck_block (sn : U32) : ikcpParseAck (offset.block tsProbe kcp) (sn + offset.sent32) =
    offset.block tsProbe (ikcpParseAck kcp sn) := by
  refine (if_congr (beside_block sn) rfl ?_).trans (apply_ite (offset.block tsProbe) _ _ _).symm
  simp only [block, parseAckLoop_outward]

theorem ikcpParseUna_block (una : U32) : ikcpParseUna (offset.block tsProbe kcp) (una + offset.sent32) =
    offset.block tsProbe (ikcpParseUna kcp una) := by
  simp only [ikcpParseUna, block, parseUnaLoop_outward]

theorem ikcpParseFastack_block (sn : U32) :
    ikcpParseFastack (offset.block tsProbe kcp) (sn + offset.sent32) =
      offset.block tsProbe (ikcpParseFastack kcp sn) := by
  refine (if_congr (beside_block sn) rfl ?_).trans (apply_ite (offset.block tsProbe) _ _ _).symm
  simp only [block, parseFastackLoop_outward]

/-- `snd_una` is the number of the first segment in flight, or `snd_nxt`. -/
theorem ikcpShrinkBuf_block :
    ikcpShrinkBuf (offset.block tsProbe kcp) = offset.block tsProbe (ikcpShrinkBuf kcp) := by
  unfold ikcpShrinkBuf
  cases buffered : kcp.sndBuf with
  | nil =>
      simp only [block, buffered, List.map_nil]
      rw [← @sndNxt32_block offset tsProbe kcp]
      rfl
  | cons seg rest => simp only [block, buffered, List.map_cons, outward]

/-- The congestion window depends on no time and no number. -/
theorem growCwnd_block :
    growCwnd (offset.block tsProbe kcp) = offset.block tsProbe (growCwnd kcp) := by
  unfold growCwnd
  simp only [show (offset.block tsProbe kcp).cwnd = kcp.cwnd from rfl,
    show (offset.block tsProbe kcp).rmtWnd = kcp.rmtWnd from rfl,
    show (offset.block tsProbe kcp).mss = kcp.mss from rfl,
    show (offset.block tsProbe kcp).ssthresh = kcp.ssthresh from rfl,
    show (offset.block tsProbe kcp).incr = kcp.incr from rfl]
  split_ifs <;> rfl

/-! ## Data -/

/-- A segment finds its place among the others by differences of numbers. -/
theorem insertFromBack_inward (newseg : Seg) (segs : List Seg) :
    insertFromBack (offset.inward newseg) (segs.map offset.inward) =
      (insertFromBack newseg segs).map (List.map offset.inward) := by
  induction segs with
  | nil => rfl
  | cons seg rest inductionHypothesis =>
      have number (seg : Seg) : (offset.inward seg).sn = seg.sn + offset.heard32 := rfl
      simp only [List.map_cons, insertFromBack, inductionHypothesis, number, itimediff_shift,
        add_left_inj]
      split
      · rfl
      · split
        · rfl
        · cases insertFromBack newseg rest <;> rfl

/-- The receive window moves with `rcv_nxt`. -/
theorem ikcpParseData_block (newseg : Seg) :
    ikcpParseData (offset.block tsProbe kcp) (offset.inward newseg) =
      offset.block tsProbe (ikcpParseData kcp newseg) := by
  unfold ikcpParseData
  refine (if_congr ?_ rfl ?_).trans (apply_ite (offset.block tsProbe) _ _ _).symm
  · rw [rcvNxt32_block, show (offset.inward newseg).sn = newseg.sn + offset.heard32 from rfl,
      itimediff_shift, itimediff_shift_add]
    rfl
  · rw [show (offset.block tsProbe kcp).rcvBuf.reverse = kcp.rcvBuf.reverse.map offset.inward by
      rw [List.map_reverse]
      rfl, insertFromBack_inward]
    cases insertFromBack newseg kcp.rcvBuf.reverse with
    | none => exact moveAvailable_block
    | some inserted =>
        dsimp only [Option.map_some]
        rw [← moveAvailable_block]
        simp only [block, List.map_reverse]

/-! ## Packets -/

/-- A header as the offset moves it on its way out. The numbers of a window command mean nothing. -/
structure Sends (offset : Offset) (head head' : Head) : Prop where
  conv : head'.conv = head.conv
  cmd : head'.cmd = head.cmd
  frg : head'.frg = head.frg
  wnd : head'.wnd = head.wnd
  len : head'.len = head.len
  una : head'.una = head.una + offset.heard32
  push : head.cmd = ikcpCmdPush →
    head'.sn = head.sn + offset.sent32 ∧ head'.ts = head.ts + offset.time
  ack : head.cmd = ikcpCmdAck →
    head'.sn = head.sn + offset.heard32 ∧ head'.ts = head.ts + offset.peer

/-- The segments of a packet as the offset moves them on their way out. -/
def Wire (offset : Offset) : List Seg → List Seg → Prop :=
  List.Forall₂ fun seg seg' => offset.Sends seg.head seg'.head ∧ seg'.data = seg.data

/-- The locals of `ikcp_input`. -/
structure Locals (offset : Offset) (tsProbe : U32) (st st' : InputState) : Prop where
  kcp : st'.kcp = offset.block tsProbe st.kcp
  flag : st'.flag = st.flag
  maxack : st.flag → st'.maxack = st.maxack + offset.sent32

variable {st st' : InputState} {head head' : Head} {segs segs' : List Seg}

/-- An acknowledgement: the round trip is a difference of times. -/
theorem Locals.inputAck (locals : offset.Locals tsProbe st st') (sends : offset.flip.Sends head head')
    (command : head.cmd = ikcpCmdAck) (kcp : Ikcpcb) :
    offset.Locals tsProbe (inputAck st kcp head) (inputAck st' (offset.block tsProbe kcp) head') := by
  obtain ⟨number, time⟩ := sends.ack command
  have number : head'.sn = head.sn + offset.sent32 := number
  have measured : (if 0 ≤ itimediff (offset.block tsProbe kcp).current head'.ts then
      ikcpUpdateAck (offset.block tsProbe kcp) (itimediff (offset.block tsProbe kcp).current head'.ts)
      else offset.block tsProbe kcp) = offset.block tsProbe (if 0 ≤ itimediff kcp.current head.ts then
        ikcpUpdateAck kcp (itimediff kcp.current head.ts) else kcp) := by
    rw [time, show (offset.block tsProbe kcp).current = kcp.current + offset.time from rfl,
      show offset.flip.peer = offset.time from rfl, itimediff_shift]
    refine Eq.trans ?_ (apply_ite (offset.block tsProbe) _ _ _).symm
    rfl
  have newer : (st'.flag = false ∨ 0 < itimediff (head.sn + offset.sent32) st'.maxack) ↔
      st.flag = false ∨ 0 < itimediff head.sn st.maxack := by
    rw [locals.flag]
    cases flag : st.flag with
    | false => simp
    | true => rw [locals.maxack flag, itimediff_shift]
  unfold KcpRs.inputAck
  dsimp only
  rw [measured, number, ikcpParseAck_block, ikcpShrinkBuf_block]
  by_cases later : st.flag = false ∨ 0 < itimediff head.sn st.maxack
  · rw [if_pos later, if_pos (newer.2 later)]
    exact ⟨rfl, rfl, fun _ => rfl⟩
  · rw [if_neg later, if_neg fun other => later (newer.1 other)]
    exact ⟨rfl, locals.flag, locals.maxack⟩

/-- A segment of data. -/
theorem inputPush_block (sends : offset.flip.Sends head head') (command : head.cmd = ikcpCmdPush)
    (data : Bytes) : inputPush (offset.block tsProbe kcp) head' data =
      offset.block tsProbe (inputPush kcp head data) := by
  obtain ⟨number, time⟩ := sends.push command
  have number : head'.sn = head.sn + offset.heard32 := number
  have time : head'.ts = head.ts + offset.peer := time
  have una : head'.una = head.una + offset.sent32 := sends.una
  have noted : ikcpAckPush (offset.block tsProbe kcp) head'.sn head'.ts =
      offset.block tsProbe (ikcpAckPush kcp head.sn head.ts) := by
    rw [number, time]
    simp only [ikcpAckPush, block, List.map_append, List.map_singleton, Offset.ack]
  have seg : head'.segment data = offset.inward (head.segment data) := by
    unfold Head.segment
    rw [sends.conv, sends.cmd, sends.frg, sends.wnd, number, time, una]
    rfl
  unfold inputPush
  dsimp only
  rw [noted, number, rcvNxt32_block]
  refine (if_congr ?_ ?_ rfl).trans (apply_ite (offset.block tsProbe) _ _ _).symm
  · rw [itimediff_shift_add]
    rfl
  · refine (if_congr ?_ ?_ rfl).trans (apply_ite (offset.block tsProbe) _ _ _).symm
    · rw [rcvNxt32_block, itimediff_shift]
    · rw [← number]
      exact (congrArg (ikcpParseData _) seg).trans (ikcpParseData_block (head.segment data))

/-- Every command. -/
theorem Locals.inputSegment (locals : offset.Locals tsProbe st st')
    (sends : offset.flip.Sends head head') (data : Bytes) :
    offset.Locals tsProbe (inputSegment st head data) (inputSegment st' head' data) := by
  have una : head'.una = head.una + offset.sent32 := sends.una
  have shrunk : ikcpShrinkBuf (ikcpParseUna { st'.kcp with rmtWnd := head'.wnd.toNat } head'.una) =
      offset.block tsProbe
        (ikcpShrinkBuf (ikcpParseUna { st.kcp with rmtWnd := head.wnd.toNat } head.una)) := by
    have parsed := @ikcpParseUna_block offset tsProbe { st.kcp with rmtWnd := head.wnd.toNat } head.una
    rw [locals.kcp, sends.wnd, una]
    exact (congrArg ikcpShrinkBuf parsed).trans ikcpShrinkBuf_block
  unfold KcpRs.inputSegment
  dsimp only
  rw [shrunk, sends.cmd]
  split
  · rename_i command
    exact locals.inputAck sends command _
  · split
    · rename_i command
      rw [inputPush_block sends command]
      exact ⟨rfl, locals.flag, locals.maxack⟩
    · split <;> exact ⟨rfl, locals.flag, locals.maxack⟩

/-- A moved packet is as long. -/
theorem Wire.length (wire : offset.Wire segs segs') :
    (encodePacket segs').length = (encodePacket segs).length := by
  induction wire with
  | nil => rfl
  | cons same _ inductionHypothesis =>
      rw [encodePacket_cons, encodePacket_cons, List.length_append, List.length_append,
        List.length_append, List.length_append, inductionHypothesis, same.2, Head.length_encode,
        Head.length_encode]

/-- One turn of the loop of `ikcp_input` on whole segments. -/
theorem inputLoop_cons {seg : Seg} {rest : List Seg}
    (short : (encodePacket (seg :: rest)).length < 2 ^ 31) (fuel : Nat) (st : InputState) :
    inputLoop (fuel + 1) st (encodePacket (seg :: rest)) =
      if seg.head.conv ≠ st.kcp.conv then (-1, st)
      else if isCommand seg.head.cmd = false then (-3, st)
      else inputLoop fuel (inputSegment st seg.head seg.data) (encodePacket rest) := by
  have long := ikcpOverhead_le_length_encodePacket seg rest
  obtain ⟨size, fits⟩ := header_fits short
  rw [inputLoop, if_neg (not_lt.2 long), encodePacket_cons, Head.decode_encode]
  dsimp only
  rw [size, List.take_left, List.drop_left, if_neg fits]

/-- The loop of `ikcp_input` takes the same segments, as long as the packet is a C string. -/
theorem Locals.inputLoop (locals : offset.Locals tsProbe st st') (wire : offset.flip.Wire segs segs')
    (short : (encodePacket segs).length < 2 ^ 31) (fuel : Nat) :
    (inputLoop fuel st' (encodePacket segs')).1 = (inputLoop fuel st (encodePacket segs)).1 ∧
      offset.Locals tsProbe (inputLoop fuel st (encodePacket segs)).2
        (inputLoop fuel st' (encodePacket segs')).2 := by
  induction wire generalizing fuel st st' with
  | nil => cases fuel <;> exact ⟨rfl, locals⟩
  | @cons seg seg' rest rest' same wire inductionHypothesis =>
      cases fuel with
      | zero => exact ⟨rfl, locals⟩
      | succ fuel =>
          obtain ⟨sends, data⟩ := same
          have length := Wire.length (List.Forall₂.cons ⟨sends, data⟩ wire)
          have conv : st'.kcp.conv = st.kcp.conv := by
            rw [locals.kcp]
            rfl
          rw [inputLoop_cons short, inputLoop_cons (length.trans_lt short), conv, sends.conv, sends.cmd,
            data]
          split
          · exact ⟨rfl, locals⟩
          · split
            · exact ⟨rfl, locals⟩
            · have lengths := congrArg List.length (encodePacket_cons seg rest)
              rw [List.length_append, List.length_append] at lengths
              exact inductionHypothesis (locals.inputSegment sends seg.data) (by omega) fuel

/-- What `ikcp_input` does when it has read the packet. -/
theorem Locals.inputFinish (locals : offset.Locals tsProbe st st') (prevUna : U32) :
    inputFinish (prevUna + offset.sent32) st' = offset.block tsProbe (inputFinish prevUna st) := by
  have skipped : (if st'.flag then ikcpParseFastack st'.kcp st'.maxack else st'.kcp) =
      offset.block tsProbe (if st.flag then ikcpParseFastack st.kcp st.maxack else st.kcp) := by
    rw [locals.flag, locals.kcp]
    split
    · rename_i flag
      rw [locals.maxack flag, ikcpParseFastack_block]
    · rfl
  unfold KcpRs.inputFinish
  dsimp only
  rw [skipped, growCwnd_block]
  refine (if_congr ?_ rfl rfl).trans (apply_ite (offset.block tsProbe) _ _ _).symm
  exact iff_of_eq (congrArg (0 < ·) (itimediff_shift _ _ _))

/-- `ikcp_input` of the moved packet moves the block as `ikcp_input` of the packet does. -/
theorem ikcpInput_block (wire : offset.flip.Wire segs segs')
    (short : (encodePacket segs).length < 2 ^ 31) :
    ikcpInput (offset.block tsProbe kcp) (encodePacket segs') =
      ((ikcpInput kcp (encodePacket segs)).1,
        offset.block tsProbe (ikcpInput kcp (encodePacket segs)).2) := by
  have start : offset.Locals tsProbe { kcp } { kcp := offset.block tsProbe kcp } :=
    ⟨rfl, rfl, by rintro ⟨⟩⟩
  obtain ⟨code, locals⟩ := start.inputLoop wire short (encodePacket segs).length
  have finish := locals.inputFinish kcp.sndUna
  unfold ikcpInput
  rw [wire.length]
  split
  · rfl
  · dsimp only
    rw [code, show (offset.block tsProbe kcp).sndUna = kcp.sndUna + offset.sent32 from rfl, finish,
      locals.kcp]
    split <;> rfl

/-! ## Flushing -/

/-- A packet as the offset moves it on its way out. -/
def Packet (offset : Offset) (packet packet' : Bytes) : Prop :=
  ∃ segs segs', packet = encodePacket segs ∧ packet' = encodePacket segs' ∧ offset.Wire segs segs'

/-- The scratch buffer and what has been given to the output callback. -/
structure Packs (offset : Offset) (pack pack' : Pack) : Prop where
  buf : offset.Packet pack.buf pack'.buf
  out : List.Forall₂ offset.Packet pack.out pack'.out

variable {pack pack' : Pack} {seg seg' : Seg}

theorem packet_nil : offset.Packet [] [] := ⟨[], [], rfl, rfl, .nil⟩

/-- The packet that is packed so far goes out. -/
theorem Packs.output (packs : offset.Packs pack pack') : offset.Packs pack.output pack'.output := by
  obtain ⟨segs, segs', buf, buf', wire⟩ := packs.buf
  have empty : pack'.buf = [] ↔ pack.buf = [] := by
    rw [← List.length_eq_zero_iff, ← List.length_eq_zero_iff, buf, buf', wire.length]
  unfold Pack.output
  by_cases nothing : pack.buf = []
  · rw [if_pos nothing, if_pos (empty.2 nothing)]
    exact packs
  · rw [if_neg nothing, if_neg fun other => nothing (empty.1 other)]
    exact ⟨packet_nil, List.rel_append packs.out (.cons packs.buf .nil)⟩

/-- A header is written with its data, behind the packet so far or into a new one. -/
theorem Packs.write (packs : offset.Packs pack pack') (sends : offset.Sends seg.head seg'.head)
    (data : seg'.data = seg.data) (mtu need : Nat) :
    offset.Packs (pack.write mtu need (ikcpEncodeSeg seg)) (pack'.write mtu need (ikcpEncodeSeg seg')) := by
  have append {pack pack' : Pack} (packs : offset.Packs pack pack') :
      offset.Packs { pack with buf := pack.buf ++ ikcpEncodeSeg seg }
        { pack' with buf := pack'.buf ++ ikcpEncodeSeg seg' } := by
    obtain ⟨segs, segs', buf, buf', wire⟩ := packs.buf
    refine ⟨⟨segs ++ [seg], segs' ++ [seg'], ?_, ?_, ?_⟩, packs.out⟩
    · simp [encodePacket, buf]
    · simp [encodePacket, buf']
    · exact List.rel_append wire (.cons ⟨sends, data⟩ .nil)
  obtain ⟨segs, segs', buf, buf', wire⟩ := packs.buf
  have length : pack'.buf.length = pack.buf.length := by
    rw [buf, buf', wire.length]
  unfold Pack.write
  dsimp only
  rw [length]
  split
  · exact append packs.output
  · exact append packs

/-- The local `seg` of `ikcp_flush`, whose numbers are those of the last acknowledgement. -/
structure Heading (offset : Offset) (seg seg' : Seg) : Prop where
  conv : seg'.conv = seg.conv
  cmd : seg'.cmd = seg.cmd
  frg : seg'.frg = seg.frg
  wnd : seg'.wnd = seg.wnd
  una : seg'.una = seg.una + offset.heard32
  data : seg'.data = seg.data

/-- The segment that `ikcp_flush` writes its headers from. -/
theorem heading_flushSeg : offset.Heading (flushSeg kcp) (flushSeg (offset.block tsProbe kcp)) :=
  ⟨rfl, rfl, rfl, rfl, rcvNxt32_block, rfl⟩

/-- A header that is no data carries the conv and `una` that are moved, and the number and the
time of an acknowledgement. -/
theorem Heading.sends (heading : offset.Heading seg seg') (other : seg.cmd ≠ ikcpCmdPush)
    (ack : seg.cmd = ikcpCmdAck → seg'.sn = seg.sn + offset.heard32 ∧ seg'.ts = seg.ts + offset.peer) :
    offset.Sends seg.head seg'.head where
  conv := heading.conv
  cmd := heading.cmd
  frg := heading.frg
  wnd := heading.wnd
  len := congrArg (fun data : Bytes => BitVec.ofNat 32 data.length) heading.data
  una := heading.una
  push push := absurd push other
  ack := ack

/-- The acknowledgements that are due. -/
theorem flushAcks_moved (mtu : Nat) (acks : List (U32 × U32)) (heading : offset.Heading seg seg')
    (command : seg.cmd = ikcpCmdAck) (packs : offset.Packs pack pack') :
    let acc := flushAcks mtu acks (seg, pack)
    let acc' := flushAcks mtu (acks.map offset.ack) (seg', pack')
    offset.Heading acc.1 acc'.1 ∧ offset.Packs acc.2 acc'.2 := by
  induction acks generalizing seg seg' pack pack' with
  | nil => exact ⟨heading, packs⟩
  | cons ack rest inductionHypothesis =>
      have numbered : offset.Heading { seg with sn := ack.1, ts := ack.2 }
          { seg' with sn := (offset.ack ack).1, ts := (offset.ack ack).2 } :=
        ⟨heading.conv, heading.cmd, heading.frg, heading.wnd, heading.una, heading.data⟩
      have other : seg.cmd ≠ ikcpCmdPush := by
        rw [command]
        decide
      exact inductionHypothesis numbered command
        (packs.write (numbered.sends other fun _ => ⟨rfl, rfl⟩) heading.data mtu ikcpOverhead)

/-- A window probe or its answer. -/
theorem flushCommand_moved (ask : U32) (cmd : Byte) (heading : offset.Heading seg seg')
    (other : cmd ≠ ikcpCmdPush ∧ cmd ≠ ikcpCmdAck) (packs : offset.Packs pack pack') :
    let acc := flushCommand kcp ask cmd (seg, pack)
    let acc' := flushCommand (offset.block tsProbe kcp) ask cmd (seg', pack')
    offset.Heading acc.1 acc'.1 ∧ offset.Packs acc.2 acc'.2 := by
  have renamed : offset.Heading { seg with cmd } { seg' with cmd } :=
    ⟨heading.conv, rfl, heading.frg, heading.wnd, heading.una, heading.data⟩
  by_cases asked : kcp.probe &&& ask ≠ 0
  · simp only [flushCommand, if_pos asked,
      if_pos (show (offset.block tsProbe kcp).probe &&& ask ≠ 0 from asked)]
    exact ⟨renamed, packs.write (renamed.sends other.1 fun ack => absurd ack other.2) heading.data _ _⟩
  · simp only [flushCommand, if_neg asked,
      if_neg (show ¬ (offset.block tsProbe kcp).probe &&& ask ≠ 0 from asked)]
    exact ⟨heading, packs⟩

/-- The probe timer is set from the clock, or means nothing. -/
theorem flushProbe_moved (running : kcp.probeWait ≠ 0 → tsProbe = kcp.tsProbe + offset.time) :
    ∃ tsProbe', ((flushProbe kcp).probeWait ≠ 0 →
        tsProbe' = (flushProbe kcp).tsProbe + offset.time) ∧
      flushProbe (offset.block tsProbe kcp) = offset.block tsProbe' (flushProbe kcp) := by
  unfold flushProbe
  rw [show (offset.block tsProbe kcp).rmtWnd = kcp.rmtWnd from rfl,
    show (offset.block tsProbe kcp).probeWait = kcp.probeWait from rfl,
    show (offset.block tsProbe kcp).current = kcp.current + offset.time from rfl,
    show (offset.block tsProbe kcp).tsProbe = tsProbe from rfl]
  by_cases closed : kcp.rmtWnd = 0
  · rw [if_pos closed, if_pos closed]
    by_cases idle : kcp.probeWait = 0
    · rw [if_pos idle, if_pos idle]
      refine ⟨kcp.current + ikcpProbeInit + offset.time, fun _ => rfl, ?_⟩
      rw [add_right_comm]
      rfl
    · rw [if_neg idle, if_neg idle, running idle, itimediff_shift]
      by_cases due : 0 ≤ itimediff kcp.current kcp.tsProbe
      · rw [if_pos due, if_pos due]
        dsimp only
        rw [add_right_comm]
        exact ⟨_, fun _ => rfl, rfl⟩
      · rw [if_neg due, if_neg due]
        exact ⟨_, fun _ => rfl, rfl⟩
  · rw [if_neg closed, if_neg closed]
    exact ⟨0, fun other => absurd rfl other, rfl⟩

/-- All headers in front of the data. -/
theorem flushHeads_moved (running : kcp.probeWait ≠ 0 → tsProbe = kcp.tsProbe + offset.time) :
    offset.Packs (flushHeads kcp) (flushHeads (offset.block tsProbe kcp)) := by
  obtain ⟨tsProbe', _, probed⟩ := @flushProbe_moved offset tsProbe { kcp with acklist := [] } running
  have empty : offset.Packs {} {} := ⟨packet_nil, .nil⟩
  obtain ⟨last, acks⟩ := flushAcks_moved kcp.mtu kcp.acklist
    (@heading_flushSeg offset tsProbe kcp) rfl empty
  obtain ⟨asked, wask⟩ := @flushCommand_moved offset tsProbe' (flushProbe { kcp with acklist := [] })
    _ _ _ _ ikcpAskSend ikcpCmdWask last (by decide) acks
  obtain ⟨_, wins⟩ := @flushCommand_moved offset tsProbe' (flushProbe { kcp with acklist := [] })
    _ _ _ _ ikcpAskTell ikcpCmdWins asked (by decide) wask
  rw [← probed] at wins
  exact wins

/-- A segment that is numbered gets the moved number and the moved time. -/
theorem flushTake_block (wnd : BitVec 16) (newseg : Seg) (rest : List Seg) :
    flushTake wnd (offset.block tsProbe kcp) newseg rest =
      offset.block tsProbe (flushTake wnd kcp newseg rest) := by
  simp only [flushTake, sndNxt32_block, rcvNxt32_block]
  simp only [block, List.map_append, List.map_singleton, outward, Nat.add_right_comm]

/-- As many segments are numbered: the window moves with `snd_una`. -/
theorem flushMove_block (cwnd : Nat) (wnd : BitVec 16) (fuel : Nat) :
    flushMove cwnd wnd fuel (offset.block tsProbe kcp) =
      offset.block tsProbe (flushMove cwnd wnd fuel kcp) := by
  induction fuel generalizing kcp with
  | zero => rfl
  | succ fuel inductionHypothesis =>
      unfold flushMove
      refine (if_congr ?_ ?_ rfl).trans (apply_ite (offset.block tsProbe) _ _ _).symm
      · rw [sndNxt32_block, show (offset.block tsProbe kcp).sndUna = kcp.sndUna + offset.sent32 from rfl,
          itimediff_shift_add]
      · rw [show (offset.block tsProbe kcp).sndQueue = kcp.sndQueue from rfl]
        cases kcp.sndQueue with
        | nil => rfl
        | cons newseg rest =>
            dsimp only
            rw [flushTake_block, inductionHypothesis]

/-- A segment is resent for the same reason or is not due. -/
theorem resendKind_block (seg : Seg) :
    resendKind (offset.block tsProbe kcp) (offset.outward seg) = resendKind kcp seg := by
  unfold resendKind
  rw [show (offset.block tsProbe kcp).current = kcp.current + offset.time from rfl,
    show (offset.outward seg).resendts = seg.resendts + offset.time from rfl, itimediff_shift]
  rfl

/-- A segment that is resent gets the moved times. -/
theorem flushVisit_block (wnd : BitVec 16) (seg : Seg) :
    flushVisit (offset.block tsProbe kcp) wnd (offset.outward seg) =
      offset.outward (flushVisit kcp wnd seg) := by
  have current : (offset.block tsProbe kcp).current = kcp.current + offset.time := rfl
  unfold flushVisit
  rw [resendKind_block]
  have moved (rto : U32) : kcp.current + offset.time + rto = kcp.current + rto + offset.time :=
    add_right_comm _ _ _
  cases resendKind kcp seg with
  | none => rfl
  | first =>
      have moved (rto least : U32) : kcp.current + offset.time + rto + least =
          kcp.current + rto + least + offset.time := by rw [moved, add_right_comm]
      simp only [reschedule, reduceCtorEq, if_false, current, rcvNxt32_block, outward, moved]
      rfl
  | lost =>
      simp only [reschedule, reduceCtorEq, if_false, current, rcvNxt32_block, outward, moved]
      rfl
  | fast => simp only [reschedule, reduceCtorEq, if_false, current, rcvNxt32_block, outward, moved]

/-- The congestion window after a loss. -/
theorem flushCwnd_block (cwnd change : Nat) (lost : Bool) :
    flushCwnd (offset.block tsProbe kcp) cwnd change lost =
      offset.block tsProbe (flushCwnd kcp cwnd change lost) := by
  have flying : (offset.block tsProbe kcp).sndNxt32 - (offset.block tsProbe kcp).sndUna =
      kcp.sndNxt32 - kcp.sndUna := by
    rw [sndNxt32_block]
    exact add_sub_add_right_eq_sub _ _ _
  have skipped (ssthresh cwnd incr : U32) :
      (if change ≠ 0 then { offset.block tsProbe kcp with ssthresh, cwnd, incr }
        else offset.block tsProbe kcp) =
        offset.block tsProbe (if change ≠ 0 then { kcp with ssthresh, cwnd, incr } else kcp) := by
    split <;> rfl
  have timedOut (kcp : Ikcpcb) (ssthresh incr : U32) :
      (if lost then { offset.block tsProbe kcp with ssthresh, cwnd := 1, incr }
        else offset.block tsProbe kcp) =
        offset.block tsProbe (if lost then { kcp with ssthresh, cwnd := 1, incr } else kcp) := by
    split <;> rfl
  have least (kcp : Ikcpcb) (incr : U32) :
      (if (offset.block tsProbe kcp).cwnd < 1 then { offset.block tsProbe kcp with cwnd := 1, incr }
        else offset.block tsProbe kcp) =
        offset.block tsProbe (if kcp.cwnd < 1 then { kcp with cwnd := 1, incr } else kcp) := by
    rw [show (offset.block tsProbe kcp).cwnd = kcp.cwnd from rfl]
    split <;> rfl
  dsimp only at skipped timedOut least
  unfold flushCwnd
  rw [flying]
  dsimp only
  rw [skipped, timedOut, least]
  rfl

/-! ## A whole flush -/

/-- The locals of `ikcp_flush` that live across the data loop. -/
structure Loop (offset : Offset) (st st' : FlushState) : Prop where
  pack : offset.Packs st.pack st'.pack
  done : st'.done = st.done.map offset.outward
  xmit : st'.xmit = st.xmit
  state : st'.state = st.state
  change : st'.change = st.change
  lost : st'.lost = st.lost

/-- A turn of the loop over the segments in flight. -/
theorem Loop.flushSegment {st st' : FlushState} (loop : offset.Loop st st') (wnd : BitVec 16)
    (push : seg.cmd = ikcpCmdPush) : offset.Loop (flushSegment kcp wnd st seg)
      (flushSegment (offset.block tsProbe kcp) wnd st' (offset.outward seg)) := by
  have sends : offset.Sends (flushVisit kcp wnd seg).head
      (offset.outward (flushVisit kcp wnd seg)).head := by
    have command : (flushVisit kcp wnd seg).cmd = ikcpCmdPush :=
      (flushVisit_kept kcp wnd seg).2.2.1.trans push
    refine ⟨rfl, rfl, rfl, rfl, rfl, rfl, fun _ => ⟨rfl, rfl⟩, fun ack => ?_⟩
    rw [show (flushVisit kcp wnd seg).head.cmd = ikcpCmdPush from command] at ack
    exact absurd ack (by decide)
  have written := loop.pack.write sends rfl kcp.mtu
    (ikcpOverhead + (flushVisit kcp wnd seg).data.length)
  have done : st'.done ++ [offset.outward (flushVisit kcp wnd seg)] =
      (st.done ++ [flushVisit kcp wnd seg]).map offset.outward := by
    rw [List.map_append, loop.done]
    rfl
  unfold KcpRs.flushSegment
  rw [resendKind_block, flushVisit_block]
  dsimp only
  have state : (if ikcpDeadlink ≤ (offset.outward (flushVisit kcp wnd seg)).xmit then 0xffffffff
      else st'.state) = if ikcpDeadlink ≤ (flushVisit kcp wnd seg).xmit then 0xffffffff else st.state := by
    rw [loop.state]
    rfl
  generalize flushVisit kcp wnd seg = visited at written done state ⊢
  cases resendKind kcp seg <;> simp only [reduceCtorEq, if_false, if_true]
  case none => exact ⟨loop.pack, done, loop.xmit, loop.state, loop.change, loop.lost⟩
  case first => exact ⟨written, done, loop.xmit, state, loop.change, loop.lost⟩
  case lost => exact ⟨written, done, congrArg (· + 1) loop.xmit, state, loop.change, rfl⟩
  case fast => exact ⟨written, done, loop.xmit, state, congrArg (· + 1) loop.change, loop.lost⟩

/-- The whole loop. -/
theorem Loop.foldl {st st' : FlushState} (loop : offset.Loop st st') (wnd : BitVec 16)
    (push : ∀ seg ∈ segs, seg.cmd = ikcpCmdPush) : offset.Loop (segs.foldl (KcpRs.flushSegment kcp wnd) st)
      ((segs.map offset.outward).foldl (KcpRs.flushSegment (offset.block tsProbe kcp) wnd) st') := by
  induction segs generalizing st st' with
  | nil => exact loop
  | cons seg rest inductionHypothesis =>
      rw [List.forall_mem_cons] at push
      exact inductionHypothesis (loop.flushSegment wnd push.1) push.2

/-- The probe timer: while a probe is scheduled its time is moved, and one that is set anew is set
by the moved clock. -/
theorem flushMoved_moved (running : kcp.probeWait ≠ 0 → tsProbe = kcp.tsProbe + offset.time) :
    ∃ tsProbe', ((flushMoved kcp).probeWait ≠ 0 →
        tsProbe' = (flushMoved kcp).tsProbe + offset.time) ∧
      flushProbed (offset.block tsProbe kcp) = offset.block tsProbe' (flushProbed kcp) ∧
        flushMoved (offset.block tsProbe kcp) = offset.block tsProbe' (flushMoved kcp) := by
  obtain ⟨tsProbe', timed, same⟩ := @flushProbe_moved offset tsProbe { kcp with acklist := [] } running
  have probed : flushProbed (offset.block tsProbe kcp) = offset.block tsProbe' (flushProbed kcp) :=
    congrArg (fun block : Ikcpcb => { block with probe := 0 }) same
  refine ⟨tsProbe', ?_, probed, ?_⟩
  · rw [(probe_flushMoved kcp).1, (probe_flushMoved kcp).2]
    exact timed
  · unfold flushMoved
    rw [probed]
    exact flushMove_block _ _ _

/-- `ikcp_flush` sends the moved packets. -/
theorem ikcpFlush_moved (sound : kcp.Sound)
    (running : kcp.probeWait ≠ 0 → tsProbe = kcp.tsProbe + offset.time) :
    Translated offset (ikcpFlush kcp).1 (ikcpFlush (offset.block tsProbe kcp)).1 ∧
      List.Forall₂ offset.Packet (ikcpFlush kcp).2 (ikcpFlush (offset.block tsProbe kcp)).2 := by
  cases updated : kcp.updated with
  | false =>
      have idle (block : Ikcpcb) (never : block.updated = false) : ikcpFlush block = (block, []) := by
        rw [ikcpFlush, if_pos never]
      rw [idle kcp updated, idle (offset.block tsProbe kcp) updated]
      exact ⟨⟨tsProbe, running, rfl⟩, .nil⟩
  | true =>
      obtain ⟨tsProbe', timed, probed, moved⟩ := flushMoved_moved running
      have push : ∀ seg ∈ (flushMoved kcp).sndBuf, seg.cmd = ikcpCmdPush := by
        intro seg member
        have visited : flushVisit (flushMoved kcp) (flushSeg kcp).wnd seg ∈
            (ikcpFlush kcp).1.sndBuf := by
          rw [sndBuf_ikcpFlush updated]
          exact List.mem_map_of_mem member
        exact (flushVisit_kept _ _ seg).2.2.1.symm.trans (sound.ikcpFlush.push _ visited)
      have start : offset.Loop
          { pack := flushHeads kcp, xmit := (flushMoved kcp).xmit, state := (flushMoved kcp).state }
          { pack := flushHeads (offset.block tsProbe kcp), xmit := (flushMoved kcp).xmit,
            state := (flushMoved kcp).state } :=
        ⟨flushHeads_moved running, rfl, rfl, rfl, rfl, rfl⟩
      have loop : offset.Loop (flushData kcp) (flushData (offset.block tsProbe kcp)) := by
        unfold flushData
        rw [moved]
        exact @Loop.foldl offset tsProbe' (flushMoved kcp) _ _ _ start (flushSeg kcp).wnd push
      have window : flushWindow (flushProbed (offset.block tsProbe kcp)) =
          flushWindow (flushProbed kcp) := by
        rw [probed]
        rfl
      have sent : { flushMoved (offset.block tsProbe kcp) with
          sndBuf := (flushData (offset.block tsProbe kcp)).done
          xmit := (flushData (offset.block tsProbe kcp)).xmit
          state := (flushData (offset.block tsProbe kcp)).state } =
            offset.block tsProbe' { flushMoved kcp with
              sndBuf := (flushData kcp).done
              xmit := (flushData kcp).xmit
              state := (flushData kcp).state } := by
        rw [moved, loop.done, loop.xmit, loop.state]
        rfl
      rw [ikcpFlush, if_neg (by simp [updated]), ikcpFlush,
        if_neg (by simp [show (offset.block tsProbe kcp).updated = kcp.updated from rfl, updated])]
      dsimp only at sent ⊢
      rw [sent, window, loop.change, loop.lost, flushCwnd_block]
      refine ⟨⟨tsProbe', ?_, rfl⟩, loop.pack.output.out⟩
      rw [(probe_flushCwnd _ _ _ _).1, (probe_flushCwnd _ _ _ _).2]
      exact timed

/-! ## The clock -/

/-- The next flush is a fixed time from the moved clock. -/
theorem updateSlap_block (current : U32) :
    updateSlap (offset.block tsProbe kcp) (current + offset.time) =
      (offset.block tsProbe (updateSlap kcp current).1, (updateSlap kcp current).2) := by
  unfold updateSlap
  dsimp only
  cases updated : kcp.updated with
  | false =>
      simp only [block, updated, itimediff_self, if_false, Bool.false_eq_true]
      rfl
  | true =>
      simp only [block, updated, if_true, itimediff_shift]
      split <;> rfl

/-- The clock is set, and the flush time may be. -/
theorem updateSlap_eq (kcp : Ikcpcb) (current : U32) : ∃ updated tsFlush slap,
    updateSlap kcp current = ({ kcp with current, updated, tsFlush }, slap) := by
  unfold updateSlap
  dsimp only
  split_ifs <;> exact ⟨_, _, _, rfl⟩

/-- `ikcp_update` at the moved time sends the moved packets. -/
theorem ikcpUpdate_moved (sound : kcp.Sound)
    (running : kcp.probeWait ≠ 0 → tsProbe = kcp.tsProbe + offset.time) (current : U32) :
    Translated offset (ikcpUpdate kcp current).1
        (ikcpUpdate (offset.block tsProbe kcp) (current + offset.time)).1 ∧
      List.Forall₂ offset.Packet (ikcpUpdate kcp current).2
        (ikcpUpdate (offset.block tsProbe kcp) (current + offset.time)).2 := by
  obtain ⟨updated, tsFlush, slap, set⟩ := updateSlap_eq kcp current
  unfold ikcpUpdate
  rw [updateSlap_block, set]
  dsimp only
  split
  · have next : (if 0 ≤ itimediff (offset.block tsProbe { kcp with current, updated, tsFlush }).current
          (tsFlush + offset.time + kcp.interval) then
          (offset.block tsProbe { kcp with current, updated, tsFlush }).current + kcp.interval
        else tsFlush + offset.time + kcp.interval) =
          (if 0 ≤ itimediff current (tsFlush + kcp.interval) then current + kcp.interval
            else tsFlush + kcp.interval) + offset.time := by
      rw [show (offset.block tsProbe { kcp with current, updated, tsFlush }).current =
        current + offset.time from rfl, add_right_comm, itimediff_shift]
      split
      · exact add_right_comm _ _ _
      · rfl
    have flushed := @ikcpFlush_moved offset tsProbe { kcp with
      current
      updated
      tsFlush := if 0 ≤ itimediff current (tsFlush + kcp.interval) then current + kcp.interval
        else tsFlush + kcp.interval } ⟨sound.push, sound.sized⟩ running
    have same := congrArg (fun tsFlush => ikcpFlush
      { offset.block tsProbe { kcp with current, updated } with tsFlush }) next
    exact Eq.mpr (congrArg (fun result : Ikcpcb × List Bytes =>
      Translated offset _ result.1 ∧ List.Forall₂ offset.Packet _ result.2) same) flushed
  · exact ⟨⟨tsProbe, running, rfl⟩, .nil⟩

/-- `ikcp_check` returns the moved time. -/
theorem ikcpCheck_block (current : U32) :
    ikcpCheck (offset.block tsProbe kcp) (current + offset.time) =
      ikcpCheck kcp current + offset.time := by
  have loop (segs : List Seg) (tmPacket : Int) :
      checkLoop (current + offset.time) (segs.map offset.outward) tmPacket =
        checkLoop current segs tmPacket := by
    induction segs generalizing tmPacket with
    | nil => rfl
    | cons seg rest inductionHypothesis =>
        have due : (offset.outward seg).resendts = seg.resendts + offset.time := rfl
        simp only [List.map_cons, checkLoop, due, itimediff_shift, inductionHypothesis]
  have flush : (offset.block tsProbe kcp).tsFlush = kcp.tsFlush + offset.time := rfl
  have window (tsFlush : U32) : (if 10000 ≤ itimediff current kcp.tsFlush ∨
      itimediff current kcp.tsFlush < -10000 then current + offset.time else tsFlush + offset.time) =
        (if 10000 ≤ itimediff current kcp.tsFlush ∨ itimediff current kcp.tsFlush < -10000 then current
          else tsFlush) + offset.time := by
    split <;> rfl
  have later (distance : U32) : current + offset.time + distance = current + distance + offset.time :=
    add_right_comm _ _ _
  unfold ikcpCheck
  rw [flush, show (offset.block tsProbe kcp).sndBuf = kcp.sndBuf.map offset.outward from rfl, loop,
    show (offset.block tsProbe kcp).updated = kcp.updated from rfl,
    show (offset.block tsProbe kcp).interval = kcp.interval from rfl]
  simp only [itimediff_shift, window, later]
  generalize (if 10000 ≤ itimediff current kcp.tsFlush ∨ itimediff current kcp.tsFlush < -10000 then
    current else kcp.tsFlush) = tsFlush
  split
  · rfl
  · split
    · rfl
    · cases checkLoop current kcp.sndBuf 0x7fffffff <;> rfl

end Offset

/-! ## Runs -/

namespace Offset

/-- A call as the offset moves it. A packet comes from a peer that the offset has moved too. -/
inductive Call (offset : Offset) : EngineCall → EngineCall → Prop where
  | send (data : Bytes) (len : Int) : Call offset (.send data len) (.send data len)
  | input {packet packet' : Bytes} (moved : offset.flip.Packet packet packet')
      (short : packet.length < 2 ^ 31) : Call offset (.input packet) (.input packet')
  | recv (len : Int) : Call offset (.recv len) (.recv len)
  | update (current : U32) : Call offset (.update current) (.update (current + offset.time))
  | flush : Call offset .flush .flush
  | check (current : U32) : Call offset (.check current) (.check (current + offset.time))
  | nodelay (delay interval resend nc : Int) :
      Call offset (.nodelay delay interval resend nc) (.nodelay delay interval resend nc)
  | wndsize (sndwnd rcvwnd : Int) :
      Call offset (.wndsize sndwnd rcvwnd) (.wndsize sndwnd rcvwnd)

/-- What a call gives back as the offset moves it. -/
structure Answers (offset : Offset) (answer answer' : Answer) : Prop where
  result : answer'.result = answer.result
  data : answer'.data = answer.data
  packets : List.Forall₂ offset.Packet answer.packets answer'.packets
  time : answer'.time = answer.time.map (· + offset.time)

end Offset

/-- A call of the block that the offset has moved gives back the same, moved. -/
theorem Translated.run {call call' : EngineCall} (translated : Translated offset kcp kcp')
    (sound : kcp.Sound) (same : offset.Call call call') :
    Translated offset (engine.respond kcp call).1 (engine.respond kcp' call').1 ∧
      offset.Answers (engine.respond kcp call).2 (engine.respond kcp' call').2 := by
  obtain ⟨tsProbe, running, rfl⟩ := translated
  cases same with
  | send data len =>
      obtain ⟨queue, count, equal⟩ := ikcpSend_queue kcp data len
      simp only [engine, EngineCall.run, Offset.ikcpSend_block]
      refine ⟨⟨tsProbe, ?_, rfl⟩, rfl, rfl, .nil, rfl⟩
      rw [equal]
      exact running
  | input moved short =>
      obtain ⟨segs, segs', rfl, rfl, wire⟩ := moved
      simp only [engine, EngineCall.run, Offset.ikcpInput_block wire short]
      refine ⟨⟨tsProbe, ?_, rfl⟩, rfl, rfl, .nil, rfl⟩
      rw [(probe_ikcpInput _ _).1, (probe_ikcpInput _ _).2]
      exact running
  | recv len =>
      simp only [engine, EngineCall.run, Offset.ikcpRecv_block]
      refine ⟨⟨tsProbe, ?_, rfl⟩, rfl, rfl, .nil, rfl⟩
      have moved : (recvMoved kcp (len < 0)).probeWait ≠ 0 →
          tsProbe = (recvMoved kcp (len < 0)).tsProbe + offset.time := by
        obtain ⟨probe, equal⟩ := recvMoved_eq kcp (len < 0)
        rw [equal]
        exact running
      simp only [ikcpRecv]
      generalize (if len < 0 then wrap32 (-len) else len) = room
      split_ifs <;> first | exact running | exact moved
  | update current =>
      obtain ⟨moved, packets⟩ := Offset.ikcpUpdate_moved sound running current
      simp only [engine, EngineCall.run]
      exact ⟨moved, rfl, rfl, packets, rfl⟩
  | flush =>
      obtain ⟨moved, packets⟩ := Offset.ikcpFlush_moved sound running
      simp only [engine, EngineCall.run]
      exact ⟨moved, rfl, rfl, packets, rfl⟩
  | check current =>
      simp only [engine, EngineCall.run, Offset.ikcpCheck_block]
      exact ⟨⟨tsProbe, running, rfl⟩, rfl, rfl, .nil, rfl⟩
  | nodelay => exact ⟨⟨tsProbe, running, rfl⟩, rfl, rfl, .nil, rfl⟩
  | wndsize => exact ⟨⟨tsProbe, running, rfl⟩, rfl, rfl, .nil, rfl⟩

/-- Clocks and numbers may start anywhere and may wrap around. A block and the same block with its
clock, its peer's, the numbers that it sends and the numbers that it receives moved by any offset
answer any run of calls in the same way: same results, same bytes for the application, the same
packets up to the times and numbers in them, and times that differ by the offset. -/
theorem translated_run {calls calls' : List EngineCall} (sound : kcp.Sound)
    (translated : Translated offset kcp kcp') (same : List.Forall₂ offset.Call calls calls') :
    Translated offset (engine.run kcp calls).1 (engine.run kcp' calls').1 ∧
      List.Forall₂ offset.Answers (engine.run kcp calls).2 (engine.run kcp' calls').2 := by
  have step (block block' : Ikcpcb) (call call' : EngineCall)
      (related : Translated offset block block' ∧ block.Sound) (moved : offset.Call call call') :
      (Translated offset (engine.respond block call).1 (engine.respond block' call').1 ∧
        (engine.respond block call).1.Sound) ∧
          offset.Answers (engine.respond block call).2 (engine.respond block' call').2 := by
    obtain ⟨next, answer⟩ := related.1.run related.2 moved
    exact ⟨⟨next, related.2.run call⟩, answer⟩
  exact (Transducer.lockstep step ⟨translated, sound⟩ same).imp_left And.left

/-- Six calls of a new session, and the same when its clock is 16 ticks before it wraps around, its
first number is the last one, and the peer has sent five segments and reads another clock. -/
theorem translated_run_wrap :
    let offset : Offset := { time := 0xfffffff0, peer := 77, sent := 2 ^ 32 - 1, heard := 5 }
    let kcp := ikcpCreate 1
    let ack : Seg := { conv := 1, cmd := ikcpCmdAck, wnd := 256, una := 1 }
    let ack' : Seg := { ack with ts := 0xfffffff0, sn := 0xffffffff, una := 0 }
    List.Forall₂ offset.Answers
      (engine.run kcp [.send [7, 8] 2, .update 0, .check 5, .update 100, .input (encodePacket [ack]),
        .recv 10]).2
      (engine.run (offset.block 0 kcp) [.send [7, 8] 2, .update 0xfffffff0, .check 0xfffffff5,
        .update 84, .input (encodePacket [ack']), .recv 10]).2 := by
  intro offset kcp ack ack'
  have wire : offset.flip.Wire [ack] [ack'] := by
    refine .cons ⟨?_, rfl⟩ .nil
    constructor
    case push => exact fun command => absurd command (by decide)
    case ack => exact fun _ => ⟨by decide, by decide⟩
    all_goals decide
  have packet : offset.flip.Packet (encodePacket [ack]) (encodePacket [ack']) :=
    ⟨[ack], [ack'], rfl, rfl, wire⟩
  have sound : kcp.Sound := ⟨List.forall_mem_nil _, List.forall_mem_nil _⟩
  have same : List.Forall₂ offset.Call
      [.send [7, 8] 2, .update 0, .check 5, .update 100, .input (encodePacket [ack]), .recv 10]
      [.send [7, 8] 2, .update 0xfffffff0, .check 0xfffffff5, .update 84,
        .input (encodePacket [ack']), .recv 10] := by
    have start : offset.Call (.update 0) (.update 0xfffffff0) := by
      rw [show (0xfffffff0 : U32) = 0 + offset.time by decide]
      exact .update 0
    have check : offset.Call (.check 5) (.check 0xfffffff5) := by
      rw [show (0xfffffff5 : U32) = 5 + offset.time by decide]
      exact .check 5
    have wrapped : offset.Call (.update 100) (.update 84) := by
      rw [show (84 : U32) = 100 + offset.time by decide]
      exact .update 100
    have input := Offset.Call.input packet (by decide)
    exact .cons (.send _ _) (.cons start (.cons check (.cons wrapped (.cons input
      (.cons (.recv _) .nil)))))
  exact (translated_run sound ⟨0, fun running => absurd rfl running, rfl⟩ same).2

end KcpRs
