import KcpRs.Engine.Receive

/-!
# Packet input: `ikcp_input` and the acknowledgement helpers

C code without `IKCP_FASTACK_CONSERVE`, which `build.rs` does not define. Signed
arithmetic in `ikcp_update_ack` wraps at 32 bits.
-/

namespace KcpRs

open Lib

/-- `ikcp_update_ack`. -/
def ikcpUpdateAck (kcp : Ikcpcb) (rtt : Int) : Ikcpcb :=
  let (srtt, rttval) :=
    if kcp.rxSrtt = 0 then (rtt, rtt.tdiv 2)
    else
      let delta := wrap32 (rtt - kcp.rxSrtt)
      let delta := if delta < 0 then -delta else delta
      let rttval := wrap32 ((wrap32 (3 * kcp.rxRttval) + delta).tdiv 4)
      let srtt := (wrap32 (7 * kcp.rxSrtt + rtt)).tdiv 8
      (if srtt < 1 then 1 else srtt, rttval)
  let rto := BitVec.ofInt 32 srtt + imax kcp.interval (BitVec.ofInt 32 (4 * rttval))
  { kcp with
    rxSrtt := srtt
    rxRttval := rttval
    rxRto := ibound kcp.rxMinrto rto ikcpRtoMax }

/-- `ikcp_shrink_buf`. -/
def ikcpShrinkBuf (kcp : Ikcpcb) : Ikcpcb :=
  match kcp.sndBuf with
  | seg :: _ => { kcp with sndUna := seg.sn }
  | [] => { kcp with sndUna := kcp.sndNxt32 }

/-- The loop of `ikcp_parse_ack`: what is left of `snd_buf` and how many segments it
deleted. -/
def parseAckLoop (sn : U32) : List Seg → List Seg × Nat
  | [] => ([], 0)
  | seg :: rest =>
      if sn = seg.sn then (rest, 1)
      else if itimediff sn seg.sn < 0 then (seg :: rest, 0)
      else (seg :: (parseAckLoop sn rest).1, (parseAckLoop sn rest).2)

/-- `ikcp_parse_ack`. -/
def ikcpParseAck (kcp : Ikcpcb) (sn : U32) : Ikcpcb :=
  if itimediff sn kcp.sndUna < 0 ∨ 0 ≤ itimediff sn kcp.sndNxt32 then kcp
  else
    { kcp with
      sndBuf := (parseAckLoop sn kcp.sndBuf).1
      nsndBuf := kcp.nsndBuf - (parseAckLoop sn kcp.sndBuf).2 }

/-- The loop of `ikcp_parse_una`. -/
def parseUnaLoop (una : U32) : List Seg → List Seg × Nat
  | [] => ([], 0)
  | seg :: rest =>
      if 0 < itimediff una seg.sn then
        ((parseUnaLoop una rest).1, (parseUnaLoop una rest).2 + 1)
      else (seg :: rest, 0)

/-- `ikcp_parse_una`. -/
def ikcpParseUna (kcp : Ikcpcb) (una : U32) : Ikcpcb :=
  { kcp with
    sndBuf := (parseUnaLoop una kcp.sndBuf).1
    nsndBuf := kcp.nsndBuf - (parseUnaLoop una kcp.sndBuf).2 }

/-- The loop of `ikcp_parse_fastack`. -/
def parseFastackLoop (sn : U32) : List Seg → List Seg
  | [] => []
  | seg :: rest =>
      if itimediff sn seg.sn < 0 then seg :: rest
      else if sn ≠ seg.sn then
        { seg with fastack := seg.fastack + 1 } :: parseFastackLoop sn rest
      else seg :: parseFastackLoop sn rest

/-- `ikcp_parse_fastack`. -/
def ikcpParseFastack (kcp : Ikcpcb) (sn : U32) : Ikcpcb :=
  if itimediff sn kcp.sndUna < 0 ∨ 0 ≤ itimediff sn kcp.sndNxt32 then kcp
  else { kcp with sndBuf := parseFastackLoop sn kcp.sndBuf }

/-- `ikcp_ack_push`. -/
def ikcpAckPush (kcp : Ikcpcb) (sn ts : U32) : Ikcpcb :=
  { kcp with acklist := kcp.acklist ++ [(sn, ts)] }

/-- The locals of `ikcp_input` that live across segments. -/
structure InputState where
  kcp : Ikcpcb
  flag : Bool := false
  maxack : U32 := 0
  latestTs : U32 := 0

/-- The `IKCP_CMD_ACK` branch of `ikcp_input`. -/
def inputAck (st : InputState) (kcp : Ikcpcb) (head : Head) : InputState :=
  let kcp :=
    if 0 ≤ itimediff kcp.current head.ts then
      ikcpUpdateAck kcp (itimediff kcp.current head.ts)
    else kcp
  let kcp := ikcpShrinkBuf (ikcpParseAck kcp head.sn)
  if st.flag = false ∨ 0 < itimediff head.sn st.maxack then
    { kcp, flag := true, maxack := head.sn, latestTs := head.ts }
  else { st with kcp }

/-- The `IKCP_CMD_PUSH` branch of `ikcp_input`. -/
def inputPush (kcp : Ikcpcb) (head : Head) (data : Bytes) : Ikcpcb :=
  if itimediff head.sn (kcp.rcvNxt32 + BitVec.ofNat 32 kcp.rcvWnd) < 0 then
    let kcp := ikcpAckPush kcp head.sn head.ts
    if 0 ≤ itimediff head.sn kcp.rcvNxt32 then
      ikcpParseData kcp {
        conv := head.conv, cmd := head.cmd, frg := head.frg, wnd := head.wnd,
        ts := head.ts, sn := head.sn, una := head.una, data }
    else kcp
  else kcp

/-- One turn of the loop of `ikcp_input`, after the header has been accepted. -/
def inputSegment (st : InputState) (head : Head) (data : Bytes) : InputState :=
  let kcp := { st.kcp with rmtWnd := head.wnd.toNat }
  let kcp := ikcpShrinkBuf (ikcpParseUna kcp head.una)
  if head.cmd = ikcpCmdAck then inputAck st kcp head
  else if head.cmd = ikcpCmdPush then { st with kcp := inputPush kcp head data }
  else if head.cmd = ikcpCmdWask then { st with kcp := { kcp with probe := kcp.probe ||| ikcpAskTell } }
  else { st with kcp }

/-- The commands `ikcp_input` accepts. -/
def isCommand (cmd : Byte) : Bool :=
  cmd = ikcpCmdPush || cmd = ikcpCmdAck || cmd = ikcpCmdWask || cmd = ikcpCmdWins

/-- The loop of `ikcp_input`. Every turn consumes a header, so the length of the
packet bounds the number of turns. -/
def inputLoop : Nat → InputState → Bytes → Int × InputState
  | 0, st, _ => (0, st)
  | fuel + 1, st, data =>
      if data.length < ikcpOverhead then (0, st)
      else
        let head := (Head.decode data).1
        let rest := (Head.decode data).2
        if head.conv ≠ st.kcp.conv then (-1, st)
        else if rest.length < head.len.toNat ∨ head.len.toInt < 0 then (-2, st)
        else if isCommand head.cmd = false then (-3, st)
        else
          inputLoop fuel (inputSegment st head (rest.take head.len.toNat))
            (rest.drop head.len.toNat)

/-- The congestion window update at the end of `ikcp_input`. -/
def growCwnd (kcp : Ikcpcb) : Ikcpcb :=
  if kcp.cwnd.toNat < kcp.rmtWnd then
    let mss : U32 := BitVec.ofNat 32 kcp.mss
    let kcp : Ikcpcb :=
      if kcp.cwnd < kcp.ssthresh then { kcp with cwnd := kcp.cwnd + 1, incr := kcp.incr + mss }
      else
        let incr := if kcp.incr < mss then mss else kcp.incr
        let incr := incr + ((mss * mss) / incr + mss / 16)
        if (kcp.cwnd + 1) * mss ≤ incr then
          { kcp with incr, cwnd := (incr + mss - 1) / (if 0 < mss then mss else 1) }
        else { kcp with incr }
    if kcp.rmtWnd < kcp.cwnd.toNat then
      { kcp with cwnd := BitVec.ofNat 32 kcp.rmtWnd, incr := BitVec.ofNat 32 kcp.rmtWnd * mss }
    else kcp
  else kcp

/-- The part of `ikcp_input` after its loop. -/
def inputFinish (prevUna : U32) (st : InputState) : Ikcpcb :=
  let kcp := if st.flag then ikcpParseFastack st.kcp st.maxack else st.kcp
  if 0 < itimediff kcp.sndUna prevUna then growCwnd kcp else kcp

/-- `ikcp_input`. -/
def ikcpInput (kcp : Ikcpcb) (data : Bytes) : Int × Ikcpcb :=
  if (BitVec.ofNat 32 data.length).toInt < ikcpOverhead then (-1, kcp)
  else
    let (code, st) := inputLoop data.length { kcp } data
    if code = 0 then (0, inputFinish kcp.sndUna st) else (code, st.kcp)

/-! ## The segments of a packet that are processed -/

/-- The segments that the loop of `ikcp_input` processes under `conv`: all of them, or
those before the first one that it rejects. -/
def accepted (conv : U32) : Nat → Bytes → List (Head × Bytes)
  | 0, _ => []
  | fuel + 1, data =>
      if data.length < ikcpOverhead then []
      else
        let head := (Head.decode data).1
        let rest := (Head.decode data).2
        if head.conv ≠ conv then []
        else if rest.length < head.len.toNat ∨ head.len.toInt < 0 then []
        else if isCommand head.cmd = false then []
        else (head, rest.take head.len.toNat) :: accepted conv fuel (rest.drop head.len.toNat)

/-- A property of the block that every statement of `ikcp_input` keeps, when it
processes one of `segments`. -/
structure InputStable (Invariant : Ikcpcb → Prop) (segments : List (Head × Bytes)) : Prop where
  window : ∀ kcp rmtWnd, Invariant kcp → Invariant { kcp with rmtWnd }
  una : ∀ segment ∈ segments, ∀ kcp, Invariant kcp → Invariant (ikcpParseUna kcp segment.1.una)
  shrink : ∀ kcp, Invariant kcp → Invariant (ikcpShrinkBuf kcp)
  rtt : ∀ kcp rtt, Invariant kcp → Invariant (ikcpUpdateAck kcp rtt)
  ack : ∀ segment ∈ segments, segment.1.cmd = ikcpCmdAck → ∀ kcp, Invariant kcp →
    Invariant (ikcpParseAck kcp segment.1.sn)
  push : ∀ segment ∈ segments, segment.1.cmd = ikcpCmdPush → ∀ kcp, Invariant kcp →
    Invariant (inputPush kcp segment.1 segment.2)
  probe : ∀ kcp probe, Invariant kcp → Invariant { kcp with probe }
  fastack : ∀ kcp sn, Invariant kcp → Invariant (ikcpParseFastack kcp sn)
  congestion : ∀ kcp cwnd incr, Invariant kcp → Invariant { kcp with cwnd, incr }

namespace InputStable

variable {Invariant : Ikcpcb → Prop} {segments : List (Head × Bytes)}

theorem inputAck (stable : InputStable Invariant segments) {segment : Head × Bytes}
    (member : segment ∈ segments) (command : segment.1.cmd = ikcpCmdAck) {kcp : Ikcpcb}
    (holds : Invariant kcp) (st : InputState) : Invariant (inputAck st kcp segment.1).kcp := by
  unfold KcpRs.inputAck
  dsimp only
  have measured : Invariant (if 0 ≤ itimediff kcp.current segment.1.ts then
      ikcpUpdateAck kcp (itimediff kcp.current segment.1.ts) else kcp) := by
    split
    · exact stable.rtt _ _ holds
    · exact holds
  have shrunk := stable.shrink _ (stable.ack _ member command _ measured)
  split <;> exact shrunk

/-- The part of a turn after the cumulative acknowledgement. -/
theorem inputSegment_of_una (stable : InputStable Invariant segments) {segment : Head × Bytes}
    (member : segment ∈ segments) {st : InputState}
    (acknowledged : Invariant
      (ikcpParseUna { st.kcp with rmtWnd := segment.1.wnd.toNat } segment.1.una)) :
    Invariant (inputSegment st segment.1 segment.2).kcp := by
  have shrunk := stable.shrink _ acknowledged
  unfold KcpRs.inputSegment
  dsimp only
  split
  · rename_i command
    exact stable.inputAck member command shrunk st
  · split
    · rename_i command
      exact stable.push _ member command _ shrunk
    · split
      · exact stable.probe _ _ shrunk
      · exact shrunk

theorem inputSegment (stable : InputStable Invariant segments) {segment : Head × Bytes}
    (member : segment ∈ segments) {st : InputState} (holds : Invariant st.kcp) :
    Invariant (inputSegment st segment.1 segment.2).kcp :=
  stable.inputSegment_of_una member
    (stable.una _ member _ (stable.window _ segment.1.wnd.toNat holds))

theorem foldl (stable : InputStable Invariant segments) {processed : List (Head × Bytes)}
    (included : processed ⊆ segments) {st : InputState} (holds : Invariant st.kcp) :
    Invariant (processed.foldl
      (fun st segment => KcpRs.inputSegment st segment.1 segment.2) st).kcp := by
  induction processed generalizing st with
  | nil => exact holds
  | cons segment rest inductionHypothesis =>
      rw [List.cons_subset] at included
      exact inductionHypothesis included.2 (stable.inputSegment included.1 holds)

theorem growCwnd (stable : InputStable Invariant segments) {kcp : Ikcpcb}
    (holds : Invariant kcp) : Invariant (growCwnd kcp) := by
  unfold KcpRs.growCwnd
  dsimp only
  repeat' split
  all_goals exact stable.congestion kcp _ _ holds

theorem inputFinish (stable : InputStable Invariant segments) {st : InputState}
    (holds : Invariant st.kcp) (prevUna : U32) : Invariant (inputFinish prevUna st) := by
  have skipped : Invariant (if st.flag then ikcpParseFastack st.kcp st.maxack else st.kcp) := by
    split
    · exact stable.fastack _ _ holds
    · exact holds
  unfold KcpRs.inputFinish
  dsimp only
  by_cases advanced : 0 < itimediff
      (if st.flag then ikcpParseFastack st.kcp st.maxack else st.kcp).sndUna prevUna
  · rw [if_pos advanced]
    exact stable.growCwnd skipped
  · rw [if_neg advanced]
    exact skipped

end InputStable

/-- Processing never changes the conv, so the segments processed depend on the
packet and the conv before it. -/
theorem conv_inputSegment (st : InputState) (head : Head) (data : Bytes) :
    (inputSegment st head data).kcp.conv = st.kcp.conv := by
  have stable : InputStable (fun kcp => kcp.conv = st.kcp.conv) [(head, data)] := by
    constructor
    case push =>
      intro segment _ _ kcp holds
      unfold inputPush
      dsimp only
      split
      · split
        · rw [ikcpParseData_eq]
          exact holds
        · exact holds
      · exact holds
    case shrink =>
      intro kcp holds
      unfold ikcpShrinkBuf
      split <;> exact holds
    case ack =>
      intro segment _ _ kcp holds
      unfold ikcpParseAck
      split <;> exact holds
    case fastack =>
      intro kcp sn holds
      unfold ikcpParseFastack
      split <;> exact holds
    all_goals
      intros
      assumption
  have member : (head, data) ∈ [(head, data)] := List.mem_singleton.2 rfl
  exact stable.inputSegment member rfl

/-- The loop of `ikcp_input` folds over the segments it processes. -/
theorem inputLoop_state (fuel : Nat) (st : InputState) (data : Bytes) :
    (inputLoop fuel st data).2 = (accepted st.kcp.conv fuel data).foldl
      (fun st segment => inputSegment st segment.1 segment.2) st := by
  induction fuel generalizing st data with
  | zero => rfl
  | succ fuel inductionHypothesis =>
      unfold inputLoop accepted
      dsimp only
      by_cases short : data.length < ikcpOverhead
      · simp [short]
      by_cases other : (Head.decode data).1.conv ≠ st.kcp.conv
      · simp [short, other]
      by_cases truncated : (Head.decode data).2.length < (Head.decode data).1.len.toNat ∨
          (Head.decode data).1.len.toInt < 0
      · rw [if_neg short, if_neg other, if_pos truncated, if_neg short, if_neg other,
          if_pos truncated]
        rfl
      by_cases unknown : isCommand (Head.decode data).1.cmd = false
      · rw [if_neg short, if_neg other, if_neg truncated, if_pos unknown, if_neg short,
          if_neg other, if_neg truncated, if_pos unknown]
        rfl
      rw [if_neg short, if_neg other, if_neg truncated, if_neg unknown, if_neg short,
        if_neg other, if_neg truncated, if_neg unknown, inductionHypothesis, conv_inputSegment]
      rfl

/-- What holds after the loop of `ikcp_input` and is kept by its statements holds after
the whole function. -/
theorem InputStable.ikcpInput_of_loop {Invariant : Ikcpcb → Prop} {kcp : Ikcpcb} {data : Bytes}
    {segments : List (Head × Bytes)} (stable : InputStable Invariant segments)
    (looped : Invariant (inputLoop data.length { kcp } data).2.kcp)
    (short : (BitVec.ofNat 32 data.length).toInt < ikcpOverhead → Invariant kcp) :
    Invariant (ikcpInput kcp data).2 := by
  unfold KcpRs.ikcpInput
  split
  · rename_i refused
    exact short refused
  · dsimp only
    split
    · exact stable.inputFinish looped _
    · exact looped

/-- What every statement of `ikcp_input` keeps, the whole function keeps. -/
theorem InputStable.ikcpInput {Invariant : Ikcpcb → Prop} {kcp : Ikcpcb} {data : Bytes}
    (stable : InputStable Invariant (accepted kcp.conv data.length data))
    (holds : Invariant kcp) : Invariant (ikcpInput kcp data).2 := by
  refine stable.ikcpInput_of_loop ?_ fun _ => holds
  rw [inputLoop_state]
  exact stable.foldl (List.Subset.refl _) holds

/-! ## What input changes -/

/-- The part of a block that input leaves alone. -/
structure InputKept where
  settings : Ikcpcb.Settings
  conv : U32
  updated : Bool
  current : U32
  tsFlush : U32
  sndQueue : List Seg
  nsndQue : Nat
  sndNxt : Nat

/-- The part of a block that input leaves alone. -/
def inputKept (kcp : Ikcpcb) : InputKept where
  settings := kcp.settings
  conv := kcp.conv
  updated := kcp.updated
  current := kcp.current
  tsFlush := kcp.tsFlush
  sndQueue := kcp.sndQueue
  nsndQue := kcp.nsndQue
  sndNxt := kcp.sndNxt

/-- The data branch of `ikcp_input` changes the receive side and the ack list only. -/
theorem inputPush_eq (kcp : Ikcpcb) (head : Head) (data : Bytes) : ∃ acklist,
    inputPush kcp head data = { kcp with acklist }.withReceiver (inputPush kcp head data).receiver := by
  unfold inputPush
  dsimp only
  split
  · refine ⟨kcp.acklist ++ [(head.sn, head.ts)], ?_⟩
    split
    · rw [ikcpParseData_eq]
      rfl
    · rfl
  · exact ⟨kcp.acklist, rfl⟩

/-- A predicate that only reads what input leaves alone is stable. -/
theorem inputStable_kept (Predicate : InputKept → Prop) (segments : List (Head × Bytes)) :
    InputStable (fun kcp => Predicate (inputKept kcp)) segments := by
  constructor
  case push =>
    intro segment _ _ kcp holds
    obtain ⟨acklist, equal⟩ := inputPush_eq kcp segment.1 segment.2
    rw [equal]
    exact holds
  case shrink =>
    intro kcp holds
    unfold ikcpShrinkBuf
    split <;> exact holds
  case ack =>
    intro segment _ _ kcp holds
    unfold ikcpParseAck
    split <;> exact holds
  case fastack =>
    intro kcp sn holds
    unfold ikcpParseFastack
    split <;> exact holds
  all_goals
    intros
    assumption

theorem inputKept_ikcpInput (kcp : Ikcpcb) (data : Bytes) :
    inputKept (ikcpInput kcp data).2 = inputKept kcp :=
  (inputStable_kept (fun kept => kept = inputKept kcp) _).ikcpInput rfl

@[simp] theorem settings_ikcpInput (kcp : Ikcpcb) (data : Bytes) :
    (ikcpInput kcp data).2.settings = kcp.settings :=
  congrArg InputKept.settings (inputKept_ikcpInput kcp data)

@[simp] theorem conv_ikcpInput (kcp : Ikcpcb) (data : Bytes) :
    (ikcpInput kcp data).2.conv = kcp.conv :=
  congrArg InputKept.conv (inputKept_ikcpInput kcp data)

/-! ## The send side of input -/

theorem parseAckLoop_sublist (sn : U32) (segs : List Seg) :
    ((parseAckLoop sn segs).1).Sublist segs := by
  induction segs with
  | nil => exact .slnil
  | cons seg rest inductionHypothesis =>
      unfold parseAckLoop
      split
      · exact List.sublist_cons_self _ _
      · split
        · exact List.Sublist.refl _
        · exact inductionHypothesis.cons_cons _

theorem parseUnaLoop_sublist (una : U32) (segs : List Seg) :
    ((parseUnaLoop una segs).1).Sublist segs := by
  induction segs with
  | nil => exact .slnil
  | cons seg rest inductionHypothesis =>
      unfold parseUnaLoop
      split
      · exact inductionHypothesis.cons _
      · exact List.Sublist.refl _

/-- Skipping does not change what segments carry. -/
theorem map_parseFastackLoop {Out : Type} (view : Seg → Out)
    (kept : ∀ seg fastack, view { seg with fastack } = view seg) (sn : U32) (segs : List Seg) :
    (parseFastackLoop sn segs).map view = segs.map view := by
  induction segs with
  | nil => rfl
  | cons seg rest inductionHypothesis =>
      unfold parseFastackLoop
      split
      · rfl
      · split <;> simp [inductionHypothesis, kept]

theorem parseAckLoop_count (sn : U32) (segs : List Seg) :
    (parseAckLoop sn segs).1.length + (parseAckLoop sn segs).2 = segs.length := by
  induction segs with
  | nil => rfl
  | cons seg rest inductionHypothesis =>
      unfold parseAckLoop
      split
      · rfl
      · split
        · rfl
        · simp only [List.length_cons]
          omega

theorem parseUnaLoop_count (una : U32) (segs : List Seg) :
    (parseUnaLoop una segs).1.length + (parseUnaLoop una segs).2 = segs.length := by
  induction segs with
  | nil => rfl
  | cons seg rest inductionHypothesis =>
      unfold parseUnaLoop
      split
      · simp only [List.length_cons]
        omega
      · rfl

/-- Every statement of input removes segments in flight and, apart from counting skips,
changes none. -/
theorem inputStable_sndBuf {Out : Type} (view : Seg → Out)
    (kept : ∀ seg fastack, view { seg with fastack } = view seg) (base : List Out)
    (segments : List (Head × Bytes)) :
    InputStable (fun block => (block.sndBuf.map view).Sublist base) segments := by
  constructor
  case push =>
    intro segment _ _ block holds
    obtain ⟨acklist, equal⟩ := inputPush_eq block segment.1 segment.2
    rw [equal]
    exact holds
  case una =>
    intro segment _ block holds
    exact ((parseUnaLoop_sublist _ _).map view).trans holds
  case shrink =>
    intro block holds
    unfold ikcpShrinkBuf
    split <;> exact holds
  case ack =>
    intro segment _ _ block holds
    unfold ikcpParseAck
    split
    · exact holds
    · exact ((parseAckLoop_sublist _ _).map view).trans holds
  case fastack =>
    intro block sn holds
    unfold ikcpParseFastack
    split
    · exact holds
    · simpa only [map_parseFastackLoop view kept] using holds
  all_goals
    intros
    assumption

theorem ikcpInput_sndBuf {Out : Type} (view : Seg → Out)
    (kept : ∀ seg fastack, view { seg with fastack } = view seg) (kcp : Ikcpcb) (data : Bytes) :
    ((ikcpInput kcp data).2.sndBuf.map view).Sublist (kcp.sndBuf.map view) :=
  (inputStable_sndBuf view kept _ _).ikcpInput (List.Sublist.refl _)

theorem parseUnaLoop_of_past {una : U32} {segs : List Seg}
    (past : ∀ seg ∈ segs, 0 < itimediff una seg.sn) : (parseUnaLoop una segs).1 = [] := by
  induction segs with
  | nil => rfl
  | cons seg rest inductionHypothesis =>
      rw [List.forall_mem_cons] at past
      unfold parseUnaLoop
      rw [if_pos past.1]
      exact inductionHypothesis past.2

/-- A packet with one segment whose cumulative acknowledgement is past everything in
flight leaves nothing in flight. -/
theorem sndBuf_ikcpInput_of_una {kcp : Ikcpcb} {data : Bytes} {segment : Head × Bytes}
    (member : segment ∈ accepted kcp.conv data.length data)
    (past : ∀ seg ∈ kcp.sndBuf, 0 < itimediff segment.1.una seg.sn)
    (long : ¬ (BitVec.ofNat 32 data.length).toInt < ikcpOverhead) :
    (ikcpInput kcp data).2.sndBuf = [] := by
  -- Segments keep their numbers until the acknowledgement, and none is left after it.
  have numbers := inputStable_sndBuf Seg.sn (fun _ _ => rfl) (kcp.sndBuf.map Seg.sn)
    (accepted kcp.conv data.length data)
  have none := inputStable_sndBuf Seg.sn (fun _ _ => rfl) []
    (accepted kcp.conv data.length data)
  have empty : ((ikcpInput kcp data).2.sndBuf.map Seg.sn).Sublist [] := by
    refine none.ikcpInput_of_loop ?_ fun short => absurd short long
    rw [inputLoop_state]
    obtain ⟨before, after, whole⟩ := List.append_of_mem member
    have left : before ⊆ accepted kcp.conv data.length data := by
      rw [whole]
      exact List.subset_append_left _ _
    have right : after ⊆ accepted kcp.conv data.length data := by
      rw [whole]
      exact fun _ inside => List.mem_append_right _ (List.mem_cons_of_mem _ inside)
    have reached := @InputStable.foldl _ _ numbers _ left { kcp } (List.Sublist.refl _)
    rw [show accepted (InputState.mk kcp false 0 0).kcp.conv data.length data =
      before ++ segment :: after from whole, List.foldl_append, List.foldl_cons]
    refine none.foldl right (none.inputSegment_of_una member ?_)
    simp only [ikcpParseUna]
    rw [parseUnaLoop_of_past]
    · exact List.Sublist.refl _
    · intro seg inside
      obtain ⟨old, flying, same⟩ := List.mem_map.1 (reached.subset (List.mem_map_of_mem inside))
      rw [← same]
      exact past old flying
  exact List.map_eq_nil_iff.1 (List.sublist_nil.1 empty)

/-- Input only takes from what waits for an acknowledgement. -/
theorem pending_ikcpInput (kcp : Ikcpcb) (data : Bytes) :
    ((ikcpInput kcp data).2.pending).Sublist kcp.pending := by
  have queue : (ikcpInput kcp data).2.sndQueue = kcp.sndQueue :=
    congrArg InputKept.sndQueue (inputKept_ikcpInput kcp data)
  rw [Ikcpcb.pending, Ikcpcb.pending, List.map_append, List.map_append, queue]
  exact (ikcpInput_sndBuf Seg.payload (fun _ _ => rfl) kcp data).append (List.Sublist.refl _)

theorem Ikcpcb.Counted.ikcpInput {kcp : Ikcpcb} (counted : kcp.Counted) (data : Bytes) :
    (ikcpInput kcp data).2.Counted := by
  have stable : InputStable Ikcpcb.Counted (accepted kcp.conv data.length data) := by
    constructor
    case push =>
      intro segment _ _ block holds
      unfold inputPush
      dsimp only
      have pushed (sn ts : U32) : (ikcpAckPush block sn ts).Counted :=
        ⟨holds.sndQueue, holds.sndBuf, holds.rcvQueue, holds.rcvBuf⟩
      split
      · split
        · exact (pushed _ _).ikcpParseData _
        · exact pushed _ _
      · exact holds
    case una =>
      intro segment _ block holds
      refine ⟨holds.sndQueue, ?_, holds.rcvQueue, holds.rcvBuf⟩
      have count := parseUnaLoop_count segment.1.una block.sndBuf
      have := holds.sndBuf
      simp only [ikcpParseUna]
      omega
    case shrink =>
      intro block holds
      unfold ikcpShrinkBuf
      split <;> exact ⟨holds.sndQueue, holds.sndBuf, holds.rcvQueue, holds.rcvBuf⟩
    case ack =>
      intro segment _ _ block holds
      unfold ikcpParseAck
      split
      · exact holds
      · refine ⟨holds.sndQueue, ?_, holds.rcvQueue, holds.rcvBuf⟩
        have count := parseAckLoop_count segment.1.sn block.sndBuf
        have := holds.sndBuf
        simp only
        omega
    case fastack =>
      intro block sn holds
      unfold ikcpParseFastack
      split
      · exact holds
      · refine ⟨holds.sndQueue, ?_, holds.rcvQueue, holds.rcvBuf⟩
        have same := congrArg List.length
          (map_parseFastackLoop Seg.payload (fun _ _ => rfl) sn block.sndBuf)
        simp only [List.length_map] at same
        exact holds.sndBuf.trans same.symm
    all_goals
      intros
      rename_i holds
      exact ⟨holds.sndQueue, holds.sndBuf, holds.rcvQueue, holds.rcvBuf⟩
  exact stable.ikcpInput counted

/-! ## The receive side of input -/

/-- A property of the receive side is kept by input if parsing a data segment keeps
it. -/
theorem InputStable.of_receiver (Predicate : Ikcpcb.Receiver → Prop)
    (segments : List (Head × Bytes))
    (push : ∀ segment ∈ segments, segment.1.cmd = ikcpCmdPush → ∀ kcp : Ikcpcb,
      Predicate kcp.receiver → Predicate (inputPush kcp segment.1 segment.2).receiver) :
    InputStable (fun kcp => Predicate kcp.receiver) segments := by
  constructor
  case push => exact push
  case shrink =>
    intro kcp holds
    unfold ikcpShrinkBuf
    split <;> exact holds
  case ack =>
    intro segment _ _ kcp holds
    unfold ikcpParseAck
    split <;> exact holds
  case fastack =>
    intro kcp sn holds
    unfold ikcpParseFastack
    split <;> exact holds
  all_goals
    intros
    assumption

/-- The segment that `ikcp_input` makes of a data segment of a packet. -/
def Head.segment (head : Head) (data : Bytes) : Seg :=
  { conv := head.conv, cmd := head.cmd, frg := head.frg, wnd := head.wnd,
    ts := head.ts, sn := head.sn, una := head.una, data }

/-- A data segment is added to what is held, or nothing is. -/
theorem received_inputPush (kcp : Ikcpcb) (head : Head) (data : Bytes) :
    (inputPush kcp head data).received = kcp.received ∨
      (inputPush kcp head data).received.Perm (head.segment data :: kcp.received) := by
  unfold inputPush
  dsimp only
  split
  · split
    · exact received_ikcpParseData (ikcpAckPush kcp head.sn head.ts) (head.segment data)
    · exact .inl rfl
  · exact .inl rfl

/-- Input never drops a received segment. -/
theorem held_ikcpInput (kcp : Ikcpcb) (data : Bytes) :
    kcp.held ≤ (ikcpInput kcp data).2.held := by
  have stable : InputStable (fun block => kcp.held ≤ block.held)
      (accepted kcp.conv data.length data) := by
    refine .of_receiver (fun receiver => kcp.held ≤
      receiver.rcvQueue.length + receiver.rcvBuf.length) _ fun segment _ _ block holds => ?_
    have grown : block.held ≤ (inputPush block segment.1 segment.2).held := by
      rw [← Ikcpcb.length_received, ← Ikcpcb.length_received]
      rcases received_inputPush block segment.1 segment.2 with same | added
      · rw [same]
      · rw [added.length_eq]
        exact Nat.le_succ _
    exact holds.trans grown
  exact stable.ikcpInput (le_refl _)

/-- What is held after input was held before or is a data segment of the packet. -/
theorem mem_received_ikcpInput {kcp : Ikcpcb} {data : Bytes} {seg : Seg}
    (member : seg ∈ (ikcpInput kcp data).2.received) : seg ∈ kcp.received ∨
      ∃ segment ∈ accepted kcp.conv data.length data, segment.1.cmd = ikcpCmdPush ∧
        seg = segment.1.segment segment.2 := by
  have stable : InputStable (fun block => ∀ seg ∈ block.received, seg ∈ kcp.received ∨
      ∃ segment ∈ accepted kcp.conv data.length data, segment.1.cmd = ikcpCmdPush ∧
        seg = segment.1.segment segment.2) (accepted kcp.conv data.length data) := by
    refine .of_receiver (fun receiver => ∀ seg ∈ receiver.rcvQueue ++ receiver.rcvBuf,
      seg ∈ kcp.received ∨ ∃ segment ∈ accepted kcp.conv data.length data,
        segment.1.cmd = ikcpCmdPush ∧ seg = segment.1.segment segment.2) _
      fun segment inside command block holds seg (member : seg ∈ Ikcpcb.received _) => ?_
    rcases received_inputPush block segment.1 segment.2 with same | added
    · rw [same] at member
      exact holds seg member
    · rcases List.mem_cons.1 (added.mem_iff.1 member) with rfl | earlier
      · exact .inr ⟨segment, inside, command, rfl⟩
      · exact holds seg earlier
  exact stable.ikcpInput (fun seg member => .inl member) seg member

/-! ## The result of input -/

/-- The loop of `ikcp_input` as far as its result goes. -/
def loopCode (conv : U32) : Nat → Bytes → Int
  | 0, _ => 0
  | fuel + 1, data =>
      if data.length < ikcpOverhead then 0
      else
        let head := (Head.decode data).1
        let rest := (Head.decode data).2
        if head.conv ≠ conv then -1
        else if rest.length < head.len.toNat ∨ head.len.toInt < 0 then -2
        else if isCommand head.cmd = false then -3
        else loopCode conv fuel (rest.drop head.len.toNat)

/-- The result of `ikcp_input` under `conv`, which depends on the packet only. -/
def inputCode (conv : U32) (data : Bytes) : Int :=
  if (BitVec.ofNat 32 data.length).toInt < ikcpOverhead then -1
  else loopCode conv data.length data

theorem inputLoop_fst (fuel : Nat) (st : InputState) (data : Bytes) :
    (inputLoop fuel st data).1 = loopCode st.kcp.conv fuel data := by
  induction fuel generalizing st data with
  | zero => rfl
  | succ fuel inductionHypothesis =>
      unfold inputLoop loopCode
      dsimp only
      repeat' split
      all_goals first | rfl | skip
      rw [inductionHypothesis, conv_inputSegment]

theorem ikcpInput_fst (kcp : Ikcpcb) (data : Bytes) :
    (ikcpInput kcp data).1 = inputCode kcp.conv data := by
  unfold ikcpInput inputCode
  split
  · rfl
  · dsimp only
    rw [← inputLoop_fst data.length { kcp } data]
    split
    · rename_i accepted
      exact accepted.symm
    · rfl

/-- The results of `ikcp_input`. -/
theorem ikcpInput_code (kcp : Ikcpcb) (data : Bytes) :
    (ikcpInput kcp data).1 = 0 ∨ (ikcpInput kcp data).1 = -1 ∨ (ikcpInput kcp data).1 = -2 ∨
      (ikcpInput kcp data).1 = -3 := by
  have loop (fuel : Nat) (data : Bytes) : loopCode kcp.conv fuel data = 0 ∨
      loopCode kcp.conv fuel data = -1 ∨ loopCode kcp.conv fuel data = -2 ∨
      loopCode kcp.conv fuel data = -3 := by
    induction fuel generalizing data with
    | zero => exact .inl rfl
    | succ fuel inductionHypothesis =>
        unfold loopCode
        dsimp only
        split
        · exact .inl rfl
        · split
          · exact .inr (.inl rfl)
          · split
            · exact .inr (.inr (.inl rfl))
            · split
              · exact .inr (.inr (.inr rfl))
              · exact inductionHypothesis _
  rw [ikcpInput_fst, inputCode]
  split
  · exact .inr (.inl rfl)
  · exact loop _ _

/-- A packet whose first segment is of another conv is refused as a whole. -/
theorem ikcpInput_other {kcp : Ikcpcb} {data : Bytes} {conv : U32}
    (read : readConv data = some conv) (other : conv ≠ kcp.conv) : ikcpInput kcp data = (-1, kcp) := by
  have whole : ikcpOverhead ≤ data.length := by
    unfold readConv at read
    split at read
    · assumption
    · cases read
  rw [readConv_eq_decode whole, Option.some.injEq] at read
  unfold ikcpInput
  split
  · rfl
  · obtain ⟨fuel, size⟩ : ∃ fuel, data.length = fuel + 1 :=
      Nat.exists_eq_add_of_lt (Nat.lt_of_lt_of_le (by decide : 0 < ikcpOverhead) whole) |>.imp
        fun _ equal => by omega
    have refused : inputLoop data.length { kcp } data = (-1, { kcp }) := by
      rw [size]
      unfold inputLoop
      rw [if_neg (by omega), if_pos (by rw [read]; exact other)]
    rw [refused]
    rfl

/-- The segments processed are of the conv in force. -/
theorem conv_of_mem_accepted {conv : U32} {fuel : Nat} {data : Bytes} {segment : Head × Bytes}
    (member : segment ∈ accepted conv fuel data) : segment.1.conv = conv := by
  induction fuel generalizing data with
  | zero => cases member
  | succ fuel inductionHypothesis =>
      unfold accepted at member
      dsimp only at member
      split at member
      · cases member
      · split at member
        · cases member
        · rename_i same
          split at member
          · cases member
          · split at member
            · cases member
            · rcases List.mem_cons.1 member with rfl | later
              · exact not_not.1 same
              · exact inductionHypothesis later

end KcpRs
