import KcpRs.Engine.State

/-!
# The receive side: `ikcp_parse_data`, `ikcp_peeksize`, `ikcp_recv`
-/

namespace KcpRs

open Lib

/-- Move `seg` from the head of `rcv_buf` to the tail of `rcv_queue`. -/
def moveTake (kcp : Ikcpcb) (seg : Seg) (rest : List Seg) : Ikcpcb :=
  { kcp with
    rcvBuf := rest
    nrcvBuf := kcp.nrcvBuf - 1
    rcvQueue := kcp.rcvQueue ++ [seg]
    nrcvQue := kcp.nrcvQue + 1
    rcvNxt := kcp.rcvNxt + 1 }

/-- Move available data from `rcv_buf` to `rcv_queue`, at most `fuel` segments. -/
def moveReady : Nat → Ikcpcb → Ikcpcb
  | 0, kcp => kcp
  | fuel + 1, kcp =>
      match kcp.rcvBuf with
      | [] => kcp
      | seg :: rest =>
          if seg.sn = kcp.rcvNxt32 ∧ kcp.nrcvQue < kcp.rcvWnd then
            moveReady fuel (moveTake kcp seg rest)
          else kcp

/-- The loop that moves available data from `rcv_buf` to `rcv_queue`. -/
def moveAvailable (kcp : Ikcpcb) : Ikcpcb := moveReady kcp.rcvBuf.length kcp

/-- The walk of `ikcp_parse_data` over `rcv_buf` from its tail, here the head of the
list: the position of `newseg`, or nothing when its number is already there. -/
def insertFromBack (newseg : Seg) : List Seg → Option (List Seg)
  | [] => some [newseg]
  | seg :: rest =>
      if seg.sn = newseg.sn then none
      else if 0 < itimediff newseg.sn seg.sn then some (newseg :: seg :: rest)
      else (insertFromBack newseg rest).map (seg :: ·)

/-- `ikcp_parse_data`. -/
def ikcpParseData (kcp : Ikcpcb) (newseg : Seg) : Ikcpcb :=
  if 0 ≤ itimediff newseg.sn (kcp.rcvNxt32 + BitVec.ofNat 32 kcp.rcvWnd) ∨
      itimediff newseg.sn kcp.rcvNxt32 < 0 then kcp
  else
    match insertFromBack newseg kcp.rcvBuf.reverse with
    | some rcvBuf =>
        moveAvailable { kcp with rcvBuf := rcvBuf.reverse, nrcvBuf := kcp.nrcvBuf + 1 }
    | none => moveAvailable kcp

/-- The C sum of payload lengths up to the first segment with fragment number zero. -/
def peeksizeLoop : List Seg → Int → Int
  | [], length => length
  | seg :: rest, length =>
      let length := wrap32 (length + seg.data.length)
      if seg.frg = 0 then length else peeksizeLoop rest length

/-- `ikcp_peeksize`. -/
def ikcpPeeksize (kcp : Ikcpcb) : Int :=
  match kcp.rcvQueue with
  | [] => -1
  | seg :: _ =>
      if seg.frg = 0 then wrap32 seg.data.length
      else if kcp.nrcvQue < seg.frg.toNat + 1 then -1
      else peeksizeLoop kcp.rcvQueue 0

/-- The merge loop of `ikcp_recv`: the segments it visits and those it leaves. -/
def takeMessage : List Seg → List Seg × List Seg
  | [] => ([], [])
  | seg :: rest =>
      if seg.frg = 0 then ([seg], rest)
      else ((seg :: (takeMessage rest).1), (takeMessage rest).2)

/-- The length of the first message of the receive queue. -/
def Ikcpcb.headLength (kcp : Ikcpcb) : Nat := (payloadOf (takeMessage kcp.rcvQueue).1).length

/-- The block after the merge loop of `ikcp_recv`. -/
def recvMerged (kcp : Ikcpcb) (ispeek : Bool) : Ikcpcb :=
  if ispeek then kcp
  else { kcp with
    rcvQueue := (takeMessage kcp.rcvQueue).2
    nrcvQue := kcp.nrcvQue - (takeMessage kcp.rcvQueue).1.length }

/-- The block after `ikcp_recv` has moved available data and, when the queue has
been full, asked for the remote window to be told. -/
def recvMoved (kcp : Ikcpcb) (ispeek : Bool) : Ikcpcb :=
  let recover : Bool := kcp.rcvWnd ≤ kcp.nrcvQue
  let moved := moveAvailable (recvMerged kcp ispeek)
  if moved.nrcvQue < moved.rcvWnd ∧ recover then
    { moved with probe := moved.probe ||| ikcpAskTell }
  else moved

/-- `ikcp_recv` into a buffer of `|len|` bytes; a negative `len` peeks. Returns the
result, the bytes written and the block. -/
def ikcpRecv (kcp : Ikcpcb) (len : Int) : Int × Bytes × Ikcpcb :=
  let ispeek : Bool := len < 0
  if kcp.rcvQueue = [] then (-1, [], kcp)
  else
    let len := if len < 0 then wrap32 (-len) else len
    let peeksize := ikcpPeeksize kcp
    if peeksize < 0 then (-2, [], kcp)
    else if len < peeksize then (-3, [], kcp)
    else
      let message := (takeMessage kcp.rcvQueue).1
      (message.foldl (fun total seg => wrap32 (total + seg.data.length)) 0,
        payloadOf message, recvMoved kcp ispeek)

/-! ## What receiving changes -/

/-- What moving one segment keeps, moving all available ones keeps. -/
theorem moveAvailable_induct (Invariant : Ikcpcb → Prop)
    (take : ∀ kcp seg rest, kcp.rcvBuf = seg :: rest → seg.sn = kcp.rcvNxt32 → Invariant kcp →
      Invariant (moveTake kcp seg rest))
    {kcp : Ikcpcb} (holds : Invariant kcp) : Invariant (moveAvailable kcp) := by
  have ready (fuel : Nat) {kcp : Ikcpcb} (holds : Invariant kcp) :
      Invariant (moveReady fuel kcp) := by
    induction fuel generalizing kcp with
    | zero => exact holds
    | succ fuel inductionHypothesis =>
        unfold moveReady
        split
        · exact holds
        · rename_i seg rest buffered
          split
          · rename_i available
            exact inductionHypothesis (take kcp seg rest buffered available.1 holds)
          · exact holds
  exact ready _ holds

/-- Replace the receive side. -/
def Ikcpcb.withReceiver (kcp : Ikcpcb) (receiver : Ikcpcb.Receiver) : Ikcpcb :=
  { kcp with
    rcvQueue := receiver.rcvQueue
    nrcvQue := receiver.nrcvQue
    rcvBuf := receiver.rcvBuf
    nrcvBuf := receiver.nrcvBuf
    rcvNxt := receiver.rcvNxt }

/-- Moving segments to the receive queue touches the receive side only. -/
theorem moveAvailable_eq (kcp : Ikcpcb) :
    moveAvailable kcp = kcp.withReceiver (moveAvailable kcp).receiver :=
  moveAvailable_induct
    (fun moved => moved = kcp.withReceiver moved.receiver)
    (fun moved seg rest _ _ holds => by
      conv_lhs => rw [holds]
      rfl) rfl

/-- `ikcp_parse_data` changes the receive side only. -/
theorem ikcpParseData_eq (kcp : Ikcpcb) (newseg : Seg) :
    ikcpParseData kcp newseg = kcp.withReceiver (ikcpParseData kcp newseg).receiver := by
  unfold ikcpParseData
  split
  · rfl
  · split
    · rw [moveAvailable_eq]
      rfl
    · exact moveAvailable_eq kcp

/-- `ikcp_recv` fails and changes nothing, or takes the first message. -/
theorem ikcpRecv_cases (kcp : Ikcpcb) (len : Int) :
    (ikcpRecv kcp len).2 = ([], kcp) ∨
      kcp.rcvQueue ≠ [] ∧ 0 ≤ ikcpPeeksize kcp ∧ (ikcpRecv kcp len).2 =
        (payloadOf (takeMessage kcp.rcvQueue).1, recvMoved kcp (decide (len < 0))) := by
  unfold ikcpRecv
  dsimp only
  by_cases empty : kcp.rcvQueue = []
  · simp [empty]
  by_cases incomplete : ikcpPeeksize kcp < 0
  · simp [empty, incomplete]
  rw [if_neg empty, if_neg incomplete]
  by_cases small : (if len < 0 then wrap32 (-len) else len) < ikcpPeeksize kcp
  · rw [if_pos small]
    exact .inl rfl
  · rw [if_neg small]
    exact .inr ⟨empty, by omega, rfl⟩

/-- Taking a message changes the receive side and the probe flags only. -/
theorem recvMoved_eq (kcp : Ikcpcb) (ispeek : Bool) : ∃ probe,
    recvMoved kcp ispeek = { kcp with probe }.withReceiver (recvMoved kcp ispeek).receiver := by
  have merged : recvMerged kcp ispeek = kcp.withReceiver (recvMerged kcp ispeek).receiver := by
    unfold recvMerged
    split <;> rfl
  unfold recvMoved
  dsimp only
  rw [moveAvailable_eq, merged]
  split
  · exact ⟨kcp.probe ||| ikcpAskTell, rfl⟩
  · exact ⟨kcp.probe, rfl⟩

/-- Sizes are C integers. -/
theorem ikcpPeeksize_lt (kcp : Ikcpcb) : ikcpPeeksize kcp < 2 ^ 31 := by
  have wrapped (value : Int) : wrap32 value < 2 ^ 31 := by
    have := Int.bmod_lt (x := value) (m := 2 ^ 32) (by norm_num)
    unfold wrap32
    omega
  have loop (segs : List Seg) (length : Int) (bound : length < 2 ^ 31) :
      peeksizeLoop segs length < 2 ^ 31 := by
    induction segs generalizing length with
    | nil => exact bound
    | cons seg rest inductionHypothesis =>
        unfold peeksizeLoop
        dsimp only
        split
        · exact wrapped _
        · exact inductionHypothesis _ (wrapped _)
  unfold ikcpPeeksize
  split
  · omega
  · split
    · exact wrapped _
    · split
      · omega
      · exact loop _ _ (by omega)

/-- No segment is lost. -/
theorem length_takeMessage (segs : List Seg) :
    (takeMessage segs).1.length + (takeMessage segs).2.length = segs.length := by
  induction segs with
  | nil => rfl
  | cons seg rest inductionHypothesis =>
      unfold takeMessage
      split
      · simp only [List.length_cons, List.length_nil]
        omega
      · simp only [List.length_cons]
        omega

/-- The merge loop and `ikcp_peeksize` add up the same lengths, as C integers. -/
theorem peeksizeLoop_eq (segs : List Seg) (start : Int) : peeksizeLoop segs (wrap32 start) =
    wrap32 (start + (payloadOf (takeMessage segs).1).length) := by
  induction segs generalizing start with
  | nil => simp [peeksizeLoop, takeMessage, payloadOf]
  | cons seg rest inductionHypothesis =>
      unfold peeksizeLoop takeMessage
      dsimp only
      rw [wrap32_wrap32_add]
      split
      · simp [payloadOf]
      · rw [inductionHypothesis]
        simp [payloadOf, Int.add_assoc]

/-- The length of a message is summed up in the 32 bits of an `int`. -/
theorem foldl_message (segs : List Seg) (start : Int) :
    segs.foldl (fun total seg => wrap32 (total + seg.data.length)) (wrap32 start) =
      wrap32 (start + (payloadOf segs).length) := by
  induction segs generalizing start with
  | nil => simp [payloadOf]
  | cons seg rest inductionHypothesis =>
      rw [List.foldl_cons, wrap32_wrap32_add, inductionHypothesis]
      simp [payloadOf, Int.add_assoc]

/-- The size of a complete message is its length as a C integer. -/
theorem ikcpPeeksize_eq {kcp : Ikcpcb} (complete : 0 ≤ ikcpPeeksize kcp) :
    ikcpPeeksize kcp = wrap32 (payloadOf (takeMessage kcp.rcvQueue).1).length := by
  unfold ikcpPeeksize at complete ⊢
  split at complete
  · omega
  · rename_i seg rest queue
    split at complete
    · rename_i single
      simp [queue, takeMessage, single, payloadOf]
    · rename_i several
      split at complete
      · omega
      · rename_i whole
        have sum := peeksizeLoop_eq kcp.rcvQueue 0
        rw [wrap32_of_lt le_rfl (by decide), Int.zero_add] at sum
        rw [queue] at sum ⊢
        simpa only [if_neg several, if_neg whole] using sum

/-- The results of `ikcp_recv`: the size of the message, or one of its three errors. -/
theorem ikcpRecv_code (kcp : Ikcpcb) (len : Int) : 0 ≤ (ikcpRecv kcp len).1 ∨
    (ikcpRecv kcp len).1 = -1 ∨ (ikcpRecv kcp len).1 = -2 ∨ (ikcpRecv kcp len).1 = -3 := by
  unfold ikcpRecv
  dsimp only
  by_cases empty : kcp.rcvQueue = []
  · rw [if_pos empty]
    exact .inr (.inl rfl)
  by_cases incomplete : ikcpPeeksize kcp < 0
  · rw [if_neg empty, if_pos incomplete]
    exact .inr (.inr (.inl rfl))
  rw [if_neg empty, if_neg incomplete]
  by_cases small : (if len < 0 then wrap32 (-len) else len) < ikcpPeeksize kcp
  · rw [if_pos small]
    exact .inr (.inr (.inr rfl))
  · rw [if_neg small]
    have sum := foldl_message (takeMessage kcp.rcvQueue).1 0
    rw [wrap32_of_lt le_rfl (by decide), Int.zero_add] at sum
    refine .inl ?_
    rw [sum, ← ikcpPeeksize_eq (by omega)]
    omega

/-- A message and what follows it are the queue. -/
theorem takeMessage_append (segs : List Seg) :
    (takeMessage segs).1 ++ (takeMessage segs).2 = segs := by
  induction segs with
  | nil => rfl
  | cons seg rest inductionHypothesis =>
      unfold takeMessage
      split
      · rfl
      · simp [inductionHypothesis]

/-- A segment that is inserted is one more. -/
theorem length_insertFromBack {newseg : Seg} {segs inserted : List Seg}
    (insertion : insertFromBack newseg segs = some inserted) :
    inserted.length = segs.length + 1 := by
  induction segs generalizing inserted with
  | nil =>
      cases insertion
      rfl
  | cons seg rest inductionHypothesis =>
      unfold insertFromBack at insertion
      split at insertion
      · cases insertion
      · split at insertion
        · cases insertion
          rfl
        · obtain ⟨tail, inner, rfl⟩ := Option.map_eq_some_iff.1 insertion
          simp [inductionHypothesis inner]

/-- Moving available data keeps the counters right. -/
theorem Ikcpcb.Counted.moveAvailable {kcp : Ikcpcb} (counted : kcp.Counted) :
    (moveAvailable kcp).Counted := by
  refine moveAvailable_induct _ (fun block seg rest buffered _ counted => ?_) counted
  have count := counted.rcvBuf
  rw [buffered, List.length_cons] at count
  exact ⟨counted.sndQueue, counted.sndBuf, by simp [moveTake, counted.rcvQueue], by
    simp only [moveTake]
    omega⟩

theorem Ikcpcb.Counted.ikcpParseData {kcp : Ikcpcb} (counted : kcp.Counted) (newseg : Seg) :
    (ikcpParseData kcp newseg).Counted := by
  unfold KcpRs.ikcpParseData
  split
  · exact counted
  · split
    · rename_i inserted insertion
      refine Ikcpcb.Counted.moveAvailable ⟨counted.sndQueue, counted.sndBuf, counted.rcvQueue, ?_⟩
      have count := length_insertFromBack insertion
      simp only [List.length_reverse] at count ⊢
      rw [count, counted.rcvBuf]
    · exact counted.moveAvailable

theorem Ikcpcb.Counted.recvMoved {kcp : Ikcpcb} (counted : kcp.Counted) (ispeek : Bool) :
    (recvMoved kcp ispeek).Counted := by
  have merged : (recvMerged kcp ispeek).Counted := by
    unfold recvMerged
    split
    · exact counted
    · refine ⟨counted.sndQueue, counted.sndBuf, ?_, counted.rcvBuf⟩
      have split := length_takeMessage kcp.rcvQueue
      have queue := counted.rcvQueue
      simp only
      omega
  have moved := merged.moveAvailable
  unfold KcpRs.recvMoved
  dsimp only
  split
  · exact ⟨moved.sndQueue, moved.sndBuf, moved.rcvQueue, moved.rcvBuf⟩
  · exact moved

/-! ## What is held -/

/-- The segments received and not yet taken, those in order first. -/
def Ikcpcb.received (kcp : Ikcpcb) : List Seg := kcp.rcvQueue ++ kcp.rcvBuf

/-- The number of segments received and not yet taken. -/
def Ikcpcb.held (kcp : Ikcpcb) : Nat := kcp.rcvQueue.length + kcp.rcvBuf.length

theorem Ikcpcb.length_received (kcp : Ikcpcb) : kcp.received.length = kcp.held :=
  List.length_append

theorem Ikcpcb.Counted.held {kcp : Ikcpcb} (counted : kcp.Counted) :
    kcp.nrcvQue + kcp.nrcvBuf = kcp.held := by
  rw [counted.rcvQueue, counted.rcvBuf, Ikcpcb.held]

@[simp] theorem received_moveAvailable (kcp : Ikcpcb) :
    (moveAvailable kcp).received = kcp.received := by
  refine moveAvailable_induct (fun moved => moved.received = kcp.received)
    (fun moved seg rest buffered _ holds => ?_) rfl
  rw [← holds]
  simp [Ikcpcb.received, moveTake, buffered]

/-- The other segments stay. -/
theorem perm_insertFromBack {newseg : Seg} {segs inserted : List Seg}
    (insertion : insertFromBack newseg segs = some inserted) : inserted.Perm (newseg :: segs) := by
  induction segs generalizing inserted with
  | nil =>
      cases insertion
      exact .refl _
  | cons seg rest inductionHypothesis =>
      unfold insertFromBack at insertion
      split at insertion
      · cases insertion
      · split at insertion
        · cases insertion
          exact .refl _
        · obtain ⟨tail, inner, rfl⟩ := Option.map_eq_some_iff.1 insertion
          exact ((inductionHypothesis inner).cons seg).trans (.swap newseg seg rest)

/-- Parsing a data segment adds it, or nothing. -/
theorem received_ikcpParseData (kcp : Ikcpcb) (newseg : Seg) :
    (ikcpParseData kcp newseg).received = kcp.received ∨
      (ikcpParseData kcp newseg).received.Perm (newseg :: kcp.received) := by
  unfold ikcpParseData
  split
  · exact .inl rfl
  · split
    · rename_i inserted insertion
      rw [received_moveAvailable]
      have backwards : inserted.reverse.Perm (newseg :: kcp.rcvBuf) :=
        (List.reverse_perm inserted).trans ((perm_insertFromBack insertion).trans
          ((List.reverse_perm kcp.rcvBuf).cons newseg))
      exact .inr ((backwards.append_left kcp.rcvQueue).trans List.perm_middle)
    · exact .inl (received_moveAvailable kcp)

/-- Taking a message takes exactly its segments. -/
theorem received_recvMoved (kcp : Ikcpcb) :
    (recvMoved kcp false).received = (takeMessage kcp.rcvQueue).2 ++ kcp.rcvBuf := by
  have moved : (moveAvailable (recvMerged kcp false)).received =
      (takeMessage kcp.rcvQueue).2 ++ kcp.rcvBuf := received_moveAvailable _
  unfold recvMoved
  dsimp only
  split <;> exact moved

theorem held_recvMoved (kcp : Ikcpcb) :
    (recvMoved kcp false).held = (takeMessage kcp.rcvQueue).2.length + kcp.rcvBuf.length := by
  rw [← Ikcpcb.length_received, received_recvMoved, List.length_append]

end KcpRs
