import KcpRs.Engine.State

/-!
# Packet output and timers: `ikcp_flush`, `ikcp_update`, `ikcp_check`
-/

namespace KcpRs

open Lib

/-- The scratch buffer of `ikcp_flush` and the packets given to the output callback. -/
structure Pack where
  buf : Bytes := []
  out : List Bytes := []
deriving DecidableEq

namespace Pack

/-- `ikcp_output`, which drops empty buffers, and the reset of the write pointer. -/
def output (pack : Pack) : Pack :=
  if pack.buf = [] then pack else { buf := [], out := pack.out ++ [pack.buf] }

/-- Make room for `need` bytes and write `bytes`. The test adds in `int`. -/
def write (pack : Pack) (mtu need : Nat) (bytes : Bytes) : Pack :=
  let pack := if mtu < wrap32 (pack.buf.length + need) then pack.output else pack
  { pack with buf := pack.buf ++ bytes }

end Pack

/-- The window probing step of `ikcp_flush`. -/
def flushProbe (kcp : Ikcpcb) : Ikcpcb :=
  if kcp.rmtWnd = 0 then
    if kcp.probeWait = 0 then
      { kcp with probeWait := ikcpProbeInit, tsProbe := kcp.current + ikcpProbeInit }
    else if 0 ≤ itimediff kcp.current kcp.tsProbe then
      let wait := if kcp.probeWait < ikcpProbeInit then ikcpProbeInit else kcp.probeWait
      let wait := wait + wait / 2
      let wait := if ikcpProbeLimit < wait then ikcpProbeLimit else wait
      { kcp with probeWait := wait, tsProbe := kcp.current + wait, probe := kcp.probe ||| ikcpAskSend }
    else kcp
  else { kcp with tsProbe := 0, probeWait := 0 }

/-- The header-only segment `seg` of `ikcp_flush`. -/
def flushSeg (kcp : Ikcpcb) : Seg :=
  { conv := kcp.conv, cmd := ikcpCmdAck, wnd := BitVec.ofNat 16 (ikcpWndUnused kcp),
    una := kcp.rcvNxt32 }

/-- Flush acknowledges. The local `seg` keeps the numbers of the last one. -/
def flushAcks (mtu : Nat) : List (U32 × U32) → Seg × Pack → Seg × Pack
  | [], acc => acc
  | (sn, ts) :: rest, (seg, pack) =>
      let seg := { seg with sn, ts }
      flushAcks mtu rest (seg, pack.write mtu ikcpOverhead (ikcpEncodeSeg seg))

/-- Flush one window probing command if it is asked for. -/
def flushCommand (kcp : Ikcpcb) (ask : U32) (cmd : Byte) (acc : Seg × Pack) : Seg × Pack :=
  if kcp.probe &&& ask ≠ 0 then
    let seg := { acc.1 with cmd }
    (seg, acc.2.write kcp.mtu ikcpOverhead (ikcpEncodeSeg seg))
  else acc

/-- The send window of this flush. -/
def flushWindow (kcp : Ikcpcb) : Nat :=
  let cwnd := min kcp.sndWnd kcp.rmtWnd
  if kcp.nocwnd = 0 then min kcp.cwnd.toNat cwnd else cwnd

/-- Move `newseg` from the head of `snd_queue` to the tail of `snd_buf`. -/
def flushTake (wnd : BitVec 16) (kcp : Ikcpcb) (newseg : Seg) (rest : List Seg) : Ikcpcb :=
  let newseg := { newseg with
    conv := kcp.conv
    cmd := ikcpCmdPush
    wnd := wnd
    ts := kcp.current
    sn := kcp.sndNxt32
    una := kcp.rcvNxt32
    resendts := kcp.current
    rto := kcp.rxRto
    fastack := 0
    xmit := 0 }
  { kcp with
    sndQueue := rest
    nsndQue := kcp.nsndQue - 1
    sndBuf := kcp.sndBuf ++ [newseg]
    nsndBuf := kcp.nsndBuf + 1
    sndNxt := kcp.sndNxt + 1 }

/-- Move data from `snd_queue` to `snd_buf`, at most `fuel` segments. -/
def flushMove (cwnd : Nat) (wnd : BitVec 16) : Nat → Ikcpcb → Ikcpcb
  | 0, kcp => kcp
  | fuel + 1, kcp =>
      if itimediff kcp.sndNxt32 (kcp.sndUna + BitVec.ofNat 32 cwnd) < 0 then
        match kcp.sndQueue with
        | [] => kcp
        | newseg :: rest => flushMove cwnd wnd fuel (flushTake wnd kcp newseg rest)
      else kcp

/-- Why `ikcp_flush` sends a segment of `snd_buf`, if it does. -/
inductive Resend where
  | none
  | first
  | lost
  | fast
deriving DecidableEq

/-- `resent`: the number of skips that triggers a fast retransmission. -/
def resentOf (kcp : Ikcpcb) : U32 :=
  if 0 < kcp.fastresend then BitVec.ofInt 32 kcp.fastresend else 0xffffffff

/-- The three-way test of the data loop of `ikcp_flush`. -/
def resendKind (kcp : Ikcpcb) (segment : Seg) : Resend :=
  if segment.xmit = 0 then .first
  else if 0 ≤ itimediff kcp.current segment.resendts then .lost
  else if resentOf kcp ≤ segment.fastack then
    if segment.xmit.toInt ≤ ikcpFastackLimit ∨ ikcpFastackLimit ≤ 0 then .fast else .none
  else .none

/-- The retransmission timeout after a loss. -/
def backoff (kcp : Ikcpcb) (rto : U32) : U32 :=
  if kcp.nodelay = 0 then rto + imax rto kcp.rxRto
  else rto + BitVec.ofInt 32 ((if kcp.nodelay < 2 then rto.toInt else kcp.rxRto.toInt).tdiv 2)

/-- The timer fields of a segment after the three-way test. -/
def reschedule (kcp : Ikcpcb) (segment : Seg) : Resend → Seg
  | .none => segment
  | .first =>
      let rtomin := if kcp.nodelay = 0 then kcp.rxRto >>> 3 else 0
      { segment with
        xmit := segment.xmit + 1
        rto := kcp.rxRto
        resendts := kcp.current + kcp.rxRto + rtomin }
  | .lost =>
      { segment with
        xmit := segment.xmit + 1
        rto := backoff kcp segment.rto
        resendts := kcp.current + backoff kcp segment.rto }
  | .fast =>
      { segment with
        xmit := segment.xmit + 1
        fastack := 0
        resendts := kcp.current + segment.rto }

/-- The locals of `ikcp_flush` that live across the data loop, with the segments
already visited. -/
structure FlushState where
  pack : Pack
  done : List Seg := []
  xmit : U32
  state : U32
  change : Nat := 0
  lost : Bool := false

/-- A segment of `snd_buf` after its turn of the data loop of `ikcp_flush`. -/
def flushVisit (kcp : Ikcpcb) (wnd : BitVec 16) (segment : Seg) : Seg :=
  let kind := resendKind kcp segment
  let segment := reschedule kcp segment kind
  if kind = .none then segment
  else { segment with ts := kcp.current, wnd, una := kcp.rcvNxt32 }

/-- One turn of the data loop of `ikcp_flush`. -/
def flushSegment (kcp : Ikcpcb) (wnd : BitVec 16) (st : FlushState) (segment : Seg) : FlushState :=
  let kind := resendKind kcp segment
  let segment := flushVisit kcp wnd segment
  let st := { st with done := st.done ++ [segment] }
  let st :=
    match kind with
    | .lost => { st with xmit := st.xmit + 1, lost := true }
    | .fast => { st with change := st.change + 1 }
    | _ => st
  if kind = .none then st
  else
    { st with
      pack := st.pack.write kcp.mtu (ikcpOverhead + segment.data.length) (ikcpEncodeSeg segment)
      state := if ikcpDeadlink ≤ segment.xmit then 0xffffffff else st.state }

/-- The congestion update at the end of `ikcp_flush`. -/
def flushCwnd (kcp : Ikcpcb) (cwnd : Nat) (change : Nat) (lost : Bool) : Ikcpcb :=
  let mss : U32 := BitVec.ofNat 32 kcp.mss
  let kcp :=
    if change ≠ 0 then
      let half := (kcp.sndNxt32 - kcp.sndUna) / 2
      let ssthresh := if half < ikcpThreshMin then ikcpThreshMin else half
      { kcp with ssthresh, cwnd := ssthresh + resentOf kcp, incr := (ssthresh + resentOf kcp) * mss }
    else kcp
  let kcp :=
    if lost then
      let half : U32 := BitVec.ofNat 32 cwnd / 2
      { kcp with
        ssthresh := if half < ikcpThreshMin then ikcpThreshMin else half
        cwnd := 1
        incr := mss }
    else kcp
  if kcp.cwnd < 1 then { kcp with cwnd := 1, incr := mss } else kcp

/-- The packets of `ikcp_flush` before its data loop: acknowledges and probes. -/
def flushHeads (kcp : Ikcpcb) : Pack :=
  let probed := flushProbe { kcp with acklist := [] }
  let acc := flushAcks kcp.mtu kcp.acklist (flushSeg kcp, {})
  let acc := flushCommand probed ikcpAskSend ikcpCmdWask acc
  (flushCommand probed ikcpAskTell ikcpCmdWins acc).2

/-- The block after acknowledges and probes have been written. -/
def flushProbed (kcp : Ikcpcb) : Ikcpcb :=
  { flushProbe { kcp with acklist := [] } with probe := 0 }

/-- The block when the data loop starts. -/
def flushMoved (kcp : Ikcpcb) : Ikcpcb :=
  flushMove (flushWindow (flushProbed kcp)) (flushSeg kcp).wnd (flushProbed kcp).sndQueue.length
    (flushProbed kcp)

/-- The data loop. -/
def flushData (kcp : Ikcpcb) : FlushState :=
  let moved := flushMoved kcp
  moved.sndBuf.foldl (flushSegment moved (flushSeg kcp).wnd)
    { pack := flushHeads kcp, xmit := moved.xmit, state := moved.state }

/-- `ikcp_flush`: the block afterwards and the packets given to the output callback. -/
def ikcpFlush (kcp : Ikcpcb) : Ikcpcb × List Bytes :=
  if kcp.updated = false then (kcp, [])
  else
    let st := flushData kcp
    let sent := { flushMoved kcp with sndBuf := st.done, xmit := st.xmit, state := st.state }
    (flushCwnd sent (flushWindow (flushProbed kcp)) st.change st.lost, st.pack.output.out)

/-- `ikcp_update` up to the test of `slap`: the block with its clock set, and `slap`. -/
def updateSlap (kcp : Ikcpcb) (current : U32) : Ikcpcb × Int :=
  let kcp := { kcp with current }
  let kcp := if kcp.updated then kcp else { kcp with updated := true, tsFlush := kcp.current }
  let slap := itimediff kcp.current kcp.tsFlush
  if 10000 ≤ slap ∨ slap < -10000 then ({ kcp with tsFlush := kcp.current }, 0) else (kcp, slap)

/-- `ikcp_update`. -/
def ikcpUpdate (kcp : Ikcpcb) (current : U32) : Ikcpcb × List Bytes :=
  let (kcp, slap) := updateSlap kcp current
  if 0 ≤ slap then
    let tsFlush := kcp.tsFlush + kcp.interval
    let tsFlush := if 0 ≤ itimediff kcp.current tsFlush then kcp.current + kcp.interval else tsFlush
    ikcpFlush { kcp with tsFlush }
  else (kcp, [])

/-- The scan of `ikcp_check` over `snd_buf`: the smallest time to a retransmission,
or nothing when one is due. -/
def checkLoop (current : U32) : List Seg → Int → Option Int
  | [], tmPacket => some tmPacket
  | seg :: rest, tmPacket =>
      let diff := itimediff seg.resendts current
      if diff ≤ 0 then none
      else checkLoop current rest (if diff < tmPacket then diff else tmPacket)

/-- `ikcp_check`. -/
def ikcpCheck (kcp : Ikcpcb) (current : U32) : U32 :=
  if kcp.updated = false then current
  else
    let tsFlush :=
      if 10000 ≤ itimediff current kcp.tsFlush ∨ itimediff current kcp.tsFlush < -10000 then current
      else kcp.tsFlush
    if 0 ≤ itimediff current tsFlush then current
    else
      let tmFlush := itimediff tsFlush current
      match checkLoop current kcp.sndBuf 0x7fffffff with
      | none => current
      | some tmPacket =>
          let minimal := BitVec.ofInt 32 (if tmPacket < tmFlush then tmPacket else tmFlush)
          current + (if kcp.interval ≤ minimal then kcp.interval else minimal)

/-! ## What a flush keeps -/

/-- Everything a flush leaves alone. -/
structure FlushKept where
  settings : Ikcpcb.Settings
  receiver : Ikcpcb.Receiver
  conv : U32
  updated : Bool
  current : U32
  tsFlush : U32
  rxRto : U32
  rmtWnd : Nat
  sndUna : U32

/-- The part of a block that a flush leaves alone. -/
def flushKept (kcp : Ikcpcb) : FlushKept where
  settings := kcp.settings
  receiver := kcp.receiver
  conv := kcp.conv
  updated := kcp.updated
  current := kcp.current
  tsFlush := kcp.tsFlush
  rxRto := kcp.rxRto
  rmtWnd := kcp.rmtWnd
  sndUna := kcp.sndUna

theorem flushKept_flushProbe (kcp : Ikcpcb) : flushKept (flushProbe kcp) = flushKept kcp := by
  unfold flushProbe
  repeat' split
  all_goals simp only [flushKept, Ikcpcb.settings, Ikcpcb.receiver]

theorem flushKept_flushProbed (kcp : Ikcpcb) : flushKept (flushProbed kcp) = flushKept kcp :=
  flushKept_flushProbe { kcp with acklist := [] }

/-- What moving one segment into an open window keeps, moving several keeps. -/
theorem flushMove_induct_open (Invariant : Ikcpcb → Prop) {wnd : BitVec 16} (cwnd : Nat)
    (take : ∀ kcp newseg rest, kcp.sndQueue = newseg :: rest →
      itimediff kcp.sndNxt32 (kcp.sndUna + BitVec.ofNat 32 cwnd) < 0 → Invariant kcp →
      Invariant (flushTake wnd kcp newseg rest))
    (fuel : Nat) {kcp : Ikcpcb} (holds : Invariant kcp) :
    Invariant (flushMove cwnd wnd fuel kcp) := by
  induction fuel generalizing kcp with
  | zero => exact holds
  | succ fuel inductionHypothesis =>
      unfold flushMove
      split
      · rename_i isOpen
        split
        · exact holds
        · rename_i newseg rest queue
          exact inductionHypothesis (take kcp newseg rest queue isOpen holds)
      · exact holds

/-- What moving one segment keeps, moving several keeps. -/
theorem flushMove_induct (Invariant : Ikcpcb → Prop) {wnd : BitVec 16}
    (take : ∀ kcp newseg rest, kcp.sndQueue = newseg :: rest → Invariant kcp →
      Invariant (flushTake wnd kcp newseg rest))
    (cwnd fuel : Nat) {kcp : Ikcpcb} (holds : Invariant kcp) :
    Invariant (flushMove cwnd wnd fuel kcp) :=
  flushMove_induct_open Invariant cwnd
    (fun kcp newseg rest queue _ => take kcp newseg rest queue) fuel holds

theorem flushKept_flushMove (cwnd : Nat) (wnd : BitVec 16) (fuel : Nat) (kcp : Ikcpcb) :
    flushKept (flushMove cwnd wnd fuel kcp) = flushKept kcp :=
  flushMove_induct (fun moved => flushKept moved = flushKept kcp)
    (fun _ _ _ _ holds => holds) cwnd fuel rfl

theorem flushKept_flushMoved (kcp : Ikcpcb) : flushKept (flushMoved kcp) = flushKept kcp := by
  rw [flushMoved, flushKept_flushMove, flushKept_flushProbed]

theorem flushKept_flushCwnd (kcp : Ikcpcb) (cwnd change : Nat) (lost : Bool) :
    flushKept (flushCwnd kcp cwnd change lost) = flushKept kcp := by
  unfold flushCwnd
  dsimp only
  repeat' split
  all_goals simp only [flushKept, Ikcpcb.settings, Ikcpcb.receiver]

/-- What a flush leaves alone. -/
theorem flushKept_ikcpFlush (kcp : Ikcpcb) : flushKept (ikcpFlush kcp).1 = flushKept kcp := by
  unfold ikcpFlush
  split
  · rfl
  · rw [flushKept_flushCwnd]
    exact flushKept_flushMoved kcp

@[simp] theorem settings_ikcpFlush (kcp : Ikcpcb) :
    (ikcpFlush kcp).1.settings = kcp.settings :=
  congrArg FlushKept.settings (flushKept_ikcpFlush kcp)

@[simp] theorem receiver_ikcpFlush (kcp : Ikcpcb) :
    (ikcpFlush kcp).1.receiver = kcp.receiver :=
  congrArg FlushKept.receiver (flushKept_ikcpFlush kcp)

@[simp] theorem conv_ikcpFlush (kcp : Ikcpcb) : (ikcpFlush kcp).1.conv = kcp.conv :=
  congrArg FlushKept.conv (flushKept_ikcpFlush kcp)

@[simp] theorem updated_ikcpFlush (kcp : Ikcpcb) : (ikcpFlush kcp).1.updated = kcp.updated :=
  congrArg FlushKept.updated (flushKept_ikcpFlush kcp)

@[simp] theorem tsFlush_ikcpFlush (kcp : Ikcpcb) : (ikcpFlush kcp).1.tsFlush = kcp.tsFlush :=
  congrArg FlushKept.tsFlush (flushKept_ikcpFlush kcp)

/-! ## The send side of a flush -/

/-- The congestion update does not touch the send side. -/
theorem sender_flushCwnd (kcp : Ikcpcb) (cwnd change : Nat) (lost : Bool) :
    (flushCwnd kcp cwnd change lost).sender = kcp.sender := by
  unfold flushCwnd
  dsimp only
  repeat' split
  all_goals simp only [Ikcpcb.sender]

/-- The probe timer has nothing to do with the segments. -/
theorem sender_flushProbed (kcp : Ikcpcb) : (flushProbed kcp).sender = kcp.sender := by
  unfold flushProbed flushProbe
  repeat' split
  all_goals simp only [Ikcpcb.sender]

/-- The data loop visits every segment of `snd_buf` once. -/
theorem done_foldl_flushSegment (kcp : Ikcpcb) (wnd : BitVec 16) (segs : List Seg)
    (st : FlushState) :
    (segs.foldl (flushSegment kcp wnd) st).done = st.done ++ segs.map (flushVisit kcp wnd) := by
  induction segs generalizing st with
  | nil => simp
  | cons seg rest inductionHypothesis =>
      have visited : (flushSegment kcp wnd st seg).done = st.done ++ [flushVisit kcp wnd seg] := by
        unfold flushSegment
        cases resendKind kcp seg <;> simp
      simp [inductionHypothesis, visited]

/-- The send side after a flush: the moved block with every segment visited. -/
theorem sender_ikcpFlush {kcp : Ikcpcb} (updated : kcp.updated = true) :
    (ikcpFlush kcp).1.sender = { (flushMoved kcp).sender with
      sndBuf := (flushMoved kcp).sndBuf.map
        (flushVisit (flushMoved kcp) (flushSeg kcp).wnd) } := by
  have done : (flushData kcp).done = (flushMoved kcp).sndBuf.map
      (flushVisit (flushMoved kcp) (flushSeg kcp).wnd) := by
    rw [flushData, done_foldl_flushSegment]
    rfl
  rw [ikcpFlush, if_neg (by simp [updated]), sender_flushCwnd]
  simp only [Ikcpcb.sender, done]

/-- A visit changes timers and the advertised window, nothing that is delivered. -/
theorem flushVisit_kept (kcp : Ikcpcb) (wnd : BitVec 16) (seg : Seg) :
    (flushVisit kcp wnd seg).payload = seg.payload ∧ (flushVisit kcp wnd seg).sn = seg.sn ∧
      (flushVisit kcp wnd seg).cmd = seg.cmd ∧ (flushVisit kcp wnd seg).conv = seg.conv := by
  unfold flushVisit
  cases resendKind kcp seg <;> simp [reschedule, Seg.payload]

/-! ## Segments in flight -/

/-- Segments in flight after a flush are visited segments of the moved block. -/
theorem sndBuf_ikcpFlush {kcp : Ikcpcb} (updated : kcp.updated = true) :
    (ikcpFlush kcp).1.sndBuf =
      (flushMoved kcp).sndBuf.map (flushVisit (flushMoved kcp) (flushSeg kcp).wnd) :=
  congrArg Ikcpcb.Sender.sndBuf (sender_ikcpFlush updated)

/-- A flush neither adds nor drops anything that waits for an acknowledgement. -/
@[simp] theorem pending_ikcpFlush (kcp : Ikcpcb) :
    (ikcpFlush kcp).1.pending = kcp.pending := by
  cases updated : kcp.updated with
  | false => simp [ikcpFlush, updated]
  | true =>
      have moved : (flushMoved kcp).pending = (flushProbed kcp).pending := by
        refine flushMove_induct (fun moved => moved.pending = (flushProbed kcp).pending)
          ?_ _ _ rfl
        intro block newseg rest queue holds
        rw [← holds]
        simp [Ikcpcb.pending, flushTake, queue, Seg.payload]
      have probed : (flushProbed kcp).pending = kcp.pending :=
        congrArg (fun sender : Ikcpcb.Sender => (sender.sndBuf ++ sender.sndQueue).map Seg.payload)
          (sender_flushProbed kcp)
      have queue : (ikcpFlush kcp).1.sndQueue = (flushMoved kcp).sndQueue :=
        congrArg Ikcpcb.Sender.sndQueue (sender_ikcpFlush updated)
      rw [← probed, ← moved, Ikcpcb.pending, Ikcpcb.pending, sndBuf_ikcpFlush updated, queue]
      simp [Function.comp_def, (flushVisit_kept _ _ _).1]

/-- The part of `Counted` that concerns the send side. -/
structure Ikcpcb.Sender.Counted (sender : Ikcpcb.Sender) : Prop where
  sndQueue : sender.nsndQue = sender.sndQueue.length
  sndBuf : sender.nsndBuf = sender.sndBuf.length

/-- The segments that a flush numbers are counted in the send buffer. -/
theorem Ikcpcb.Counted.ikcpFlush {kcp : Ikcpcb} (counted : kcp.Counted) :
    (ikcpFlush kcp).1.Counted := by
  have receive := receiver_ikcpFlush kcp
  have send : (KcpRs.ikcpFlush kcp).1.sender.Counted := by
    cases updated : kcp.updated with
    | false =>
        rw [KcpRs.ikcpFlush, if_pos updated]
        exact ⟨counted.sndQueue, counted.sndBuf⟩
    | true =>
        have moved : (flushMoved kcp).sender.Counted := by
          refine flushMove_induct (fun moved => moved.sender.Counted) ?_ _ _ ?_
          · intro block newseg rest queue holds
            have queued := holds.sndQueue
            have buffered := holds.sndBuf
            simp only [Ikcpcb.sender, queue, List.length_cons] at queued buffered
            constructor
            · simp only [Ikcpcb.sender, flushTake]
              omega
            · simp [Ikcpcb.sender, flushTake, buffered]
          · rw [sender_flushProbed]
            exact ⟨counted.sndQueue, counted.sndBuf⟩
        rw [sender_ikcpFlush updated]
        exact ⟨moved.sndQueue, by
          have buffered := moved.sndBuf
          simpa [Ikcpcb.sender] using buffered⟩
  exact ⟨send.sndQueue, send.sndBuf, by
    have := counted.rcvQueue
    simp only [Ikcpcb.receiver, Ikcpcb.Receiver.mk.injEq] at receive
    rw [receive.1, receive.2.1, this], by
    have := counted.rcvBuf
    simp only [Ikcpcb.receiver, Ikcpcb.Receiver.mk.injEq] at receive
    rw [receive.2.2.1, receive.2.2.2.1, this]⟩

/-! ## The packets of a flush -/

namespace Pack

/-- Every packet is a nonempty sequence of good segments, and so is the buffer. -/
structure Built (Good : Seg → Prop) (pack : Pack) : Prop where
  out : ∀ packet ∈ pack.out, ∃ segs, segs ≠ [] ∧ (∀ seg ∈ segs, Good seg) ∧
    packet = encodePacket segs
  buf : ∃ segs, (∀ seg ∈ segs, Good seg) ∧ pack.buf = encodePacket segs

variable {Good : Seg → Prop} {pack : Pack}

theorem built_empty : Built Good {} :=
  ⟨by simp, [], by simp, rfl⟩

/-- A packet goes out as it has been built. -/
theorem Built.output (built : pack.Built Good) : pack.output.Built Good := by
  unfold Pack.output
  split
  · exact built
  · rename_i occupied
    obtain ⟨segs, good, equal⟩ := built.buf
    refine ⟨fun packet member => ?_, [], by simp, rfl⟩
    rcases List.mem_append.1 member with earlier | last
    · exact built.out packet earlier
    · refine ⟨segs, ?_, good, (List.mem_singleton.1 last).trans equal⟩
      rintro rfl
      exact occupied equal

/-- A segment that is written is one segment more in the last packet. -/
theorem Built.write (built : pack.Built Good) (mtu need : Nat) {seg : Seg} (good : Good seg) :
    (pack.write mtu need (ikcpEncodeSeg seg)).Built Good := by
  have append {pack : Pack} (built : pack.Built Good) :
      { pack with buf := pack.buf ++ ikcpEncodeSeg seg }.Built Good := by
    obtain ⟨segs, all, equal⟩ := built.buf
    refine ⟨built.out, segs ++ [seg], fun other member => ?_, ?_⟩
    · rcases List.mem_append.1 member with earlier | last
      · exact all other earlier
      · rw [List.mem_singleton.1 last]
        exact good
    · simp [encodePacket, equal]
  unfold Pack.write
  dsimp only
  split
  · exact append built.output
  · exact append built

end Pack

/-- A segment that a flush sends: an acknowledge or a window command under the conv of the
block, or a segment of `snd_buf`, each with the sequence number expected next. -/
def Emitted (conv una : U32) (acklist : List (U32 × U32)) (sndBuf : List Seg) (seg : Seg) : Prop :=
  seg.una = una ∧ (seg ∈ sndBuf ∨ (seg.data = [] ∧ seg.conv = conv) ∧
    (seg.cmd = ikcpCmdAck ∧ (seg.sn, seg.ts) ∈ acklist ∨ seg.cmd = ikcpCmdWask ∨
      seg.cmd = ikcpCmdWins))

/-- A segment sent from outside `snd_buf` is sent whatever is in it. -/
theorem Emitted.of_head {conv una : U32} {acklist : List (U32 × U32)} {sndBuf : List Seg}
    {seg : Seg} (heading : Emitted conv una acklist [] seg) :
    Emitted conv una acklist sndBuf seg :=
  ⟨heading.1, heading.2.imp_left (by simp)⟩

/-- What writing a header keeps, the header-only part of a flush keeps. -/
theorem flushHeads_induct (Invariant : Pack → Prop) (kcp : Ikcpcb)
    (write : ∀ pack seg, Emitted kcp.conv kcp.rcvNxt32 kcp.acklist [] seg → Invariant pack →
      Invariant (pack.write kcp.mtu ikcpOverhead (ikcpEncodeSeg seg)))
    (empty : Invariant {}) : Invariant (flushHeads kcp) := by
  let Head (seg : Seg) := seg.una = kcp.rcvNxt32 ∧ seg.data = [] ∧ seg.conv = kcp.conv
  have acks (acklist : List (U32 × U32)) (included : acklist ⊆ kcp.acklist) (acc : Seg × Pack)
      (holds : Invariant acc.2) (head : Head acc.1) (cmd : acc.1.cmd = ikcpCmdAck) :
      Invariant (flushAcks kcp.mtu acklist acc).2 ∧ Head (flushAcks kcp.mtu acklist acc).1 := by
    induction acklist generalizing acc with
    | nil => exact ⟨holds, head⟩
    | cons ack rest inductionHypothesis =>
        rw [List.cons_subset] at included
        refine inductionHypothesis included.2 _ (write _ _ ?_ holds) head cmd
        exact ⟨head.1, .inr ⟨head.2, .inl ⟨cmd, included.1⟩⟩⟩
  have mtu : (flushProbe { kcp with acklist := [] }).mtu = kcp.mtu :=
    congrArg (fun kept : FlushKept => kept.settings.mtu)
      (flushKept_flushProbe { kcp with acklist := [] })
  have command (ask : U32) (cmd : Byte)
      (known : cmd = ikcpCmdWask ∨ cmd = ikcpCmdWins) (acc : Seg × Pack)
      (holds : Invariant acc.2) (head : Head acc.1) :
      Invariant (flushCommand (flushProbe { kcp with acklist := [] }) ask cmd acc).2 ∧
        Head (flushCommand (flushProbe { kcp with acklist := [] }) ask cmd acc).1 := by
    unfold flushCommand
    rw [mtu]
    split
    · exact ⟨write _ _ ⟨head.1, .inr ⟨head.2, .inr known⟩⟩ holds, head⟩
    · exact ⟨holds, head⟩
  obtain ⟨holds, head⟩ := acks kcp.acklist (List.Subset.refl _) (flushSeg kcp, {}) empty
    ⟨rfl, rfl, rfl⟩ rfl
  obtain ⟨holds, head⟩ := command ikcpAskSend ikcpCmdWask (.inl rfl) _ holds head
  exact (command ikcpAskTell ikcpCmdWins (.inr rfl) _ holds head).1

/-- What writing a segment keeps, the data part of a flush keeps. -/
theorem foldl_flushSegment_induct (Invariant : Pack → Prop) (kcp : Ikcpcb) (wnd : BitVec 16)
    (segs : List Seg)
    (write : ∀ pack, ∀ seg ∈ segs, resendKind kcp seg ≠ .none → Invariant pack →
      Invariant (pack.write kcp.mtu (ikcpOverhead + (flushVisit kcp wnd seg).data.length)
        (ikcpEncodeSeg (flushVisit kcp wnd seg))))
    (st : FlushState) (holds : Invariant st.pack) :
    Invariant (segs.foldl (flushSegment kcp wnd) st).pack := by
  induction segs generalizing st with
  | nil => exact holds
  | cons seg rest inductionHypothesis =>
      refine inductionHypothesis
        (fun pack other member => write pack other (List.mem_cons_of_mem _ member)) _ ?_
      have written := write st.pack seg List.mem_cons_self
      unfold flushSegment
      cases kind : resendKind kcp seg with
      | none => exact holds
      | _ => exact written (by simp [kind]) holds

/-- A segment that is sent carries the sequence number expected next. -/
theorem una_flushVisit {kcp : Ikcpcb} {seg : Seg} (wnd : BitVec 16)
    (sent : resendKind kcp seg ≠ .none) : (flushVisit kcp wnd seg).una = kcp.rcvNxt32 := by
  unfold flushVisit
  simp [sent]

/-- What a flush gives to the output callback. -/
theorem packet_ikcpFlush {kcp : Ikcpcb} {packet : Bytes} (member : packet ∈ (ikcpFlush kcp).2) :
    ∃ segs, segs ≠ [] ∧ packet = encodePacket segs ∧
      ∀ seg ∈ segs, Emitted kcp.conv kcp.rcvNxt32 kcp.acklist (ikcpFlush kcp).1.sndBuf seg := by
  cases updated : kcp.updated with
  | false => simp [ikcpFlush, updated] at member
  | true =>
      have received : (flushMoved kcp).rcvNxt32 = kcp.rcvNxt32 :=
        congrArg (fun kept : FlushKept => BitVec.ofNat 32 kept.receiver.rcvNxt)
          (flushKept_flushMoved kcp)
      have built : (flushData kcp).pack.Built
          (Emitted kcp.conv kcp.rcvNxt32 kcp.acklist (ikcpFlush kcp).1.sndBuf) := by
        have heads := flushHeads_induct (Pack.Built
          (Emitted kcp.conv kcp.rcvNxt32 kcp.acklist (ikcpFlush kcp).1.sndBuf)) kcp
          (fun pack seg heading built => built.write _ _ heading.of_head) Pack.built_empty
        refine foldl_flushSegment_induct _ _ _ _ (fun pack seg inside sent built => ?_) _ heads
        refine built.write _ _ ⟨(una_flushVisit _ sent).trans received, .inl ?_⟩
        rw [sndBuf_ikcpFlush updated]
        exact List.mem_map_of_mem inside
      rw [ikcpFlush, if_neg (by simp [updated])] at member
      obtain ⟨segs, nonempty, good, equal⟩ := built.output.out packet member
      exact ⟨segs, nonempty, equal, good⟩

/-! ## The size of a packet -/

/-- Packets and buffer are no longer than `mtu`. -/
structure Pack.Fits (mtu : Nat) (pack : Pack) : Prop where
  out : ∀ packet ∈ pack.out, ikcpOverhead ≤ packet.length ∧ packet.length ≤ mtu
  buf : pack.buf = [] ∨ ikcpOverhead ≤ pack.buf.length ∧ pack.buf.length ≤ mtu

/-- A segment fits into a packet, and the test that makes room for it does not overflow. -/
def Seg.Fits (mtu : Nat) (seg : Seg) : Prop :=
  ikcpOverhead + seg.data.length ≤ mtu ∧ mtu + (ikcpOverhead + seg.data.length) < 2 ^ 31

namespace Pack

variable {mtu : Nat} {pack : Pack}

/-- A packet goes out with the length it has. -/
theorem Fits.output (fits : pack.Fits mtu) : pack.output.Fits mtu := by
  unfold Pack.output
  split
  · exact fits
  · rename_i occupied
    refine ⟨fun packet member => ?_, .inl rfl⟩
    rcases List.mem_append.1 member with earlier | last
    · exact fits.out packet earlier
    · rw [List.mem_singleton.1 last]
      exact fits.buf.resolve_left occupied

/-- A packet goes out before a segment would make it longer than the mtu. -/
theorem Fits.write (fits : pack.Fits mtu) {seg : Seg} (small : seg.Fits mtu) :
    (pack.write mtu (ikcpOverhead + seg.data.length) (ikcpEncodeSeg seg)).Fits mtu := by
  obtain ⟨most, slack⟩ := small
  have written := length_ikcpEncodeSeg seg
  have append {pack : Pack} (fits : pack.Fits mtu)
      (room : pack.buf.length + (ikcpOverhead + seg.data.length) ≤ mtu) :
      { pack with buf := pack.buf ++ ikcpEncodeSeg seg }.Fits mtu := by
    refine ⟨fits.out, .inr ?_⟩
    simp only [List.length_append]
    omega
  unfold Pack.write
  dsimp only
  split
  · have emptied : pack.output.buf = [] := by
      unfold Pack.output
      split
      · assumption
      · rfl
    refine append fits.output ?_
    rw [emptied, List.length_nil]
    omega
  · rename_i room
    have within : pack.buf.length ≤ mtu := by
      rcases fits.buf with empty | bound
      · simp [empty]
      · exact bound.2
    rw [wrap32_of_lt (by omega) (by omega)] at room
    exact append fits (by omega)

end Pack

/-- A flush whose segments fit gives packets of at most `mtu` bytes to the output callback. -/
theorem fits_ikcpFlush {kcp : Ikcpcb} {packet : Bytes}
    (header : ikcpOverhead ≤ kcp.mtu ∧ kcp.mtu + ikcpOverhead < 2 ^ 31)
    (small : ∀ seg ∈ kcp.sndBuf ++ kcp.sndQueue, seg.Fits kcp.mtu)
    (member : packet ∈ (ikcpFlush kcp).2) :
    ikcpOverhead ≤ packet.length ∧ packet.length ≤ kcp.mtu := by
  cases updated : kcp.updated with
  | false => simp [ikcpFlush, updated] at member
  | true =>
      have kept := flushKept_flushMoved kcp
      have mtu : (flushMoved kcp).mtu = kcp.mtu :=
        congrArg (fun kept : FlushKept => kept.settings.mtu) kept
      have heads : (flushHeads kcp).Fits kcp.mtu := by
        refine flushHeads_induct (Pack.Fits kcp.mtu) kcp (fun pack seg heading fits => ?_)
          ⟨by simp, .inl rfl⟩
        obtain ⟨_, none | ⟨⟨empty, _⟩, _⟩⟩ := heading
        · cases none
        · have small : seg.Fits kcp.mtu := by
            rw [Seg.Fits, empty]
            exact header
          have written := fits.write small
          rwa [empty] at written
      have visited : ∀ seg ∈ (flushMoved kcp).sndBuf,
          (flushVisit (flushMoved kcp) (flushSeg kcp).wnd seg).Fits kcp.mtu := by
        intro seg inside
        have waiting : seg.payload ∈ kcp.pending := by
          have waited : (flushVisit (flushMoved kcp) (flushSeg kcp).wnd seg).payload ∈
              (ikcpFlush kcp).1.pending := by
            rw [Ikcpcb.pending, sndBuf_ikcpFlush updated, List.map_append]
            exact List.mem_append_left _ (List.mem_map_of_mem (List.mem_map_of_mem inside))
          rwa [pending_ikcpFlush, (flushVisit_kept _ _ seg).1] at waited
        obtain ⟨old, queued, same⟩ := List.mem_map.1 waiting
        have payload := (flushVisit_kept (flushMoved kcp) (flushSeg kcp).wnd seg).1.trans same.symm
        have data := congrArg Payload.data payload
        unfold Seg.Fits
        rw [show (flushVisit (flushMoved kcp) (flushSeg kcp).wnd seg).data = old.data from data]
        exact small old queued
      have built : (flushData kcp).pack.Fits kcp.mtu := by
        refine foldl_flushSegment_induct (Pack.Fits kcp.mtu) _ _ _
          (fun pack seg inside _ fits => ?_) _ heads
        rw [mtu]
        exact fits.write (visited seg inside)
      rw [ikcpFlush, if_neg (by simp [updated])] at member
      exact built.output.out packet member

/-! ## Updates -/

/-- `ikcp_update` sets the clock and the time of the next flush before it flushes. -/
theorem updateSlap_fst (kcp : Ikcpcb) (current : U32) : ∃ tsFlush,
    (updateSlap kcp current).1 = { kcp with current, updated := true, tsFlush } := by
  unfold updateSlap
  dsimp only
  cases updated : kcp.updated with
  | true =>
      simp only [if_true]
      split
      · exact ⟨current, by simp⟩
      · exact ⟨kcp.tsFlush, by simp⟩
  | false =>
      simp only [Bool.false_eq_true, if_false]
      split <;> exact ⟨current, rfl⟩

/-- An update sets the clock and the time of the next flush, and may flush. -/
theorem ikcpUpdate_cases (kcp : Ikcpcb) (current : U32) : ∃ tsFlush,
    ikcpUpdate kcp current = ({ kcp with current, updated := true, tsFlush }, []) ∨
      ikcpUpdate kcp current = ikcpFlush { kcp with current, updated := true, tsFlush } := by
  obtain ⟨tsFlush, started⟩ := updateSlap_fst kcp current
  unfold ikcpUpdate
  dsimp only
  rw [started]
  split
  · exact ⟨_, .inr rfl⟩
  · exact ⟨tsFlush, .inl rfl⟩

/-- What holds after setting the times and is kept by flushing holds after an update. -/
theorem ikcpUpdate_induct (Invariant : Ikcpcb → Prop)
    (timed : ∀ kcp current tsFlush, Invariant kcp →
      Invariant { kcp with current, updated := true, tsFlush })
    (flushed : ∀ kcp, Invariant kcp → Invariant (ikcpFlush kcp).1)
    {kcp : Ikcpcb} (holds : Invariant kcp) (current : U32) :
    Invariant (ikcpUpdate kcp current).1 := by
  obtain ⟨tsFlush, idle | flush⟩ := ikcpUpdate_cases kcp current
  · rw [idle]
    exact timed _ _ _ holds
  · rw [flush]
    exact flushed _ (timed _ _ _ holds)

@[simp] theorem settings_ikcpUpdate (kcp : Ikcpcb) (current : U32) :
    (ikcpUpdate kcp current).1.settings = kcp.settings :=
  ikcpUpdate_induct (fun block => block.settings = kcp.settings)
    (fun _ _ _ holds => holds) (fun block holds => by rw [settings_ikcpFlush, holds]) rfl current

@[simp] theorem receiver_ikcpUpdate (kcp : Ikcpcb) (current : U32) :
    (ikcpUpdate kcp current).1.receiver = kcp.receiver :=
  ikcpUpdate_induct (fun block => block.receiver = kcp.receiver)
    (fun _ _ _ holds => holds) (fun block holds => by rw [receiver_ikcpFlush, holds]) rfl current

@[simp] theorem conv_ikcpUpdate (kcp : Ikcpcb) (current : U32) :
    (ikcpUpdate kcp current).1.conv = kcp.conv :=
  ikcpUpdate_induct (fun block => block.conv = kcp.conv)
    (fun _ _ _ holds => holds) (fun block holds => by rw [conv_ikcpFlush, holds]) rfl current

@[simp] theorem pending_ikcpUpdate (kcp : Ikcpcb) (current : U32) :
    (ikcpUpdate kcp current).1.pending = kcp.pending :=
  ikcpUpdate_induct (fun block => block.pending = kcp.pending)
    (fun _ _ _ holds => holds) (fun block holds => by rw [pending_ikcpFlush, holds]) rfl current

/-- What an update gives to the output callback. -/
theorem packet_ikcpUpdate {kcp : Ikcpcb} {current : U32} {packet : Bytes}
    (member : packet ∈ (ikcpUpdate kcp current).2) : ∃ segs, segs ≠ [] ∧
      packet = encodePacket segs ∧ ∀ seg ∈ segs,
        Emitted kcp.conv kcp.rcvNxt32 kcp.acklist (ikcpUpdate kcp current).1.sndBuf seg := by
  obtain ⟨tsFlush, idle | flush⟩ := ikcpUpdate_cases kcp current
  · simp [idle] at member
  · rw [flush] at member ⊢
    exact packet_ikcpFlush member

/-- No packet of `ikcp_update` is longer than the mtu or shorter than a header. -/
theorem fits_ikcpUpdate {kcp : Ikcpcb} {current : U32} {packet : Bytes}
    (header : ikcpOverhead ≤ kcp.mtu ∧ kcp.mtu + ikcpOverhead < 2 ^ 31)
    (small : ∀ seg ∈ kcp.sndBuf ++ kcp.sndQueue, seg.Fits kcp.mtu)
    (member : packet ∈ (ikcpUpdate kcp current).2) :
    ikcpOverhead ≤ packet.length ∧ packet.length ≤ kcp.mtu := by
  obtain ⟨tsFlush, idle | flush⟩ := ikcpUpdate_cases kcp current
  · simp [idle] at member
  · rw [flush] at member
    exact @fits_ikcpFlush { kcp with current, updated := true, tsFlush } packet header small member

/-- `ikcp_update` keeps the counters right. -/
theorem Ikcpcb.Counted.ikcpUpdate {kcp : Ikcpcb} (counted : kcp.Counted) (current : U32) :
    (ikcpUpdate kcp current).1.Counted :=
  ikcpUpdate_induct _ (fun _ _ _ holds => ⟨holds.sndQueue, holds.sndBuf, holds.rcvQueue, holds.rcvBuf⟩)
    (fun _ holds => holds.ikcpFlush) counted current

end KcpRs
