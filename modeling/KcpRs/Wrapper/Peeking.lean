import KcpRs.Wrapper.Receiving

/-!
# What `Kcp::peek` leaves behind

`peek` and `recv` are one C function, told apart by the sign of the length of the buffer. They
return the same (`Kcp.answer_peek`). A peek consumes nothing when its length is negative, and
what a peek of that kind does move, from `rcv_buf` to the receive queue, is seen by the next
`recv` only when it joins the first message (`peeks_harmless_iff`).
-/

namespace KcpRs

open Lib

namespace Ikcpcb

variable {kcp : Ikcpcb}

/-- The segments of `rcv_buf` that carry the numbers from `next` on, as many as there is room for. -/
def upcoming : Nat → Nat → List Seg → List Seg
  | _, _, [] => []
  | room, next, seg :: rest =>
      if seg.sn = BitVec.ofNat 32 next ∧ 0 < room then seg :: upcoming (room - 1) (next + 1) rest
      else []

/-- The size of a buffer that `ikcp_recv` is called with. -/
def capacity (len : Int) : Int := if len < 0 then wrap32 (-len) else len

/-- The first message is complete and fits a buffer that `ikcp_recv` is called with. -/
def Fits (kcp : Ikcpcb) (len : Int) : Prop :=
  kcp.HeadComplete ∧ 0 ≤ wrap32 kcp.headLength ∧ wrap32 kcp.headLength ≤ capacity len

instance (kcp : Ikcpcb) (len : Int) : Decidable (kcp.Fits len) := inferInstanceAs (Decidable (_ ∧ _))

/-- The bytes that join the first message when segments move up from `rcv_buf`. -/
def joining (kcp : Ikcpcb) : Bytes :=
  if kcp.rcvQueue.any fun seg => seg.frg = 0 then []
  else payloadOf (takeMessage (upcoming (kcp.rcvWnd - kcp.nrcvQue) kcp.rcvNxt kcp.rcvBuf)).1

/-- The outcome of `ikcp_recv` when no message can be measured. -/
theorem ikcpRecv_of_unmeasured (unmeasured : ¬ (kcp.HeadComplete ∧ 0 ≤ wrap32 kcp.headLength))
    (len : Int) : ikcpRecv kcp len = (-1, [], kcp) ∨ ikcpRecv kcp len = (-2, [], kcp) := by
  unfold ikcpRecv
  dsimp only
  by_cases empty : kcp.rcvQueue = []
  · rw [if_pos empty]
    exact .inl rfl
  · have negative : ikcpPeeksize kcp < 0 := by
      by_cases complete : kcp.HeadComplete
      · rw [ikcpPeeksize_of_complete complete]
        exact Int.not_le.1 fun measured => unmeasured ⟨complete, measured⟩
      · rw [ikcpPeeksize_of_incomplete complete]
        decide
    rw [if_neg empty, if_pos negative]
    exact .inr rfl

/-- The outcome of `ikcp_recv` when there is a message: it is copied, or it does not fit. -/
theorem ikcpRecv_of_measured (complete : kcp.HeadComplete) (measured : 0 ≤ wrap32 kcp.headLength)
    (len : Int) : ikcpRecv kcp len =
      if wrap32 kcp.headLength ≤ capacity len then
        (wrap32 kcp.headLength, payloadOf (takeMessage kcp.rcvQueue).1,
          recvMoved kcp (decide (len < 0)))
      else (-3, [], kcp) := by
  have occupied : kcp.rcvQueue ≠ [] := by
    obtain ⟨seg, first, _⟩ := complete
    rintro empty
    rw [empty] at first
    cases first
  have total := foldl_message (takeMessage kcp.rcvQueue).1 0
  rw [wrap32_of_lt le_rfl (by decide), Int.zero_add] at total
  unfold ikcpRecv
  dsimp only
  rw [if_neg occupied, ikcpPeeksize_of_complete complete, if_neg (Int.not_lt.2 measured), total]
  unfold capacity
  by_cases room : wrap32 kcp.headLength ≤ if len < 0 then wrap32 (-len) else len
  · rw [if_neg (Int.not_lt.2 room), if_pos room]
    rfl
  · rw [if_pos (Int.not_le.1 room), if_neg room]

end Ikcpcb

namespace Kcp

variable {kcp kcp' : Kcp} {Lengths : Nat → Prop}

/-- What a call of `ikcp_recv` with a buffer returns and writes. -/
def answer (kcp : Kcp) (len : Int) : Except ErrorKind Nat × Bytes :=
  if kcp.cb.HeadComplete ∧ 0 ≤ wrap32 kcp.cb.headLength then
    if wrap32 kcp.cb.headLength ≤ Ikcpcb.capacity len then
      (.ok (wrap32 kcp.cb.headLength).toNat, payloadOf (takeMessage kcp.cb.rcvQueue).1)
    else (.error .invalidInput, [])
  else (.ok 0, [])

/-- What it leaves: the block changes when the first message fits. -/
def leaves (kcp : Kcp) (len : Int) : Kcp :=
  if kcp.cb.Fits len then { kcp with cb := recvMoved kcp.cb (decide (len < 0)) } else kcp

/-- A call of `ikcp_recv`, for `peek` and `recv` alike. -/
theorem ikcpRecv_eq (kcp : Kcp) (len : Int) :
    (recvResult (ikcpRecv kcp.cb len).1).map (fun result =>
      (result, (ikcpRecv kcp.cb len).2.1, { kcp with cb := (ikcpRecv kcp.cb len).2.2 : Kcp })) =
        some ((kcp.answer len).1, (kcp.answer len).2, kcp.leaves len) := by
  unfold answer leaves
  by_cases message : kcp.cb.HeadComplete ∧ 0 ≤ wrap32 kcp.cb.headLength
  · rw [if_pos message, Ikcpcb.ikcpRecv_of_measured message.1 message.2]
    by_cases room : wrap32 kcp.cb.headLength ≤ Ikcpcb.capacity len
    · have fits : kcp.cb.Fits len := ⟨message.1, message.2, room⟩
      have result : recvResult (wrap32 kcp.cb.headLength) =
          some (.ok (wrap32 kcp.cb.headLength).toNat) := if_pos message.2
      rw [if_pos room, if_pos room, if_pos fits]
      dsimp only
      rw [result, Option.map_some]
    · have unfit : ¬ kcp.cb.Fits len := fun fits => room fits.2.2
      rw [if_neg room, if_neg room, if_neg unfit]
      rfl
  · have unfit : ¬ kcp.cb.Fits len := fun fits => message ⟨fits.1, fits.2.1⟩
    rw [if_neg message, if_neg unfit]
    rcases Ikcpcb.ikcpRecv_of_unmeasured message len with code | code <;> rw [code] <;> rfl

/-- What is written is the answer's. -/
theorem ikcpRecv_written (kcp : Kcp) (len : Int) :
    (ikcpRecv kcp.cb len).2.1 = (kcp.answer len).2 := by
  obtain ⟨result, _, equal⟩ := Option.map_eq_some_iff.1 (kcp.ikcpRecv_eq len)
  exact congrArg (fun outcome => outcome.2.1) equal

/-- What a call of `ikcp_recv` with a buffer of `len` bytes and the length `code` for it comes to;
nothing when it writes past the end of the buffer. -/
def outcome (kcp : Kcp) (len : Nat) (code : Int) : Option (Except ErrorKind Nat × Bytes × Kcp) :=
  if len < (kcp.answer code).2.length then none
  else some ((kcp.answer code).1, (kcp.answer code).2, kcp.leaves code)

/-- `Kcp::recv` with a buffer of `len` bytes. -/
theorem recv_answer (kcp : Kcp) (len : Nat) :
    kcp.recv len = kcp.outcome len (BitVec.ofNat 32 len).toInt := by
  have call := kcp.ikcpRecv_eq (BitVec.ofNat 32 len).toInt
  have written := kcp.ikcpRecv_written (BitVec.ofNat 32 len).toInt
  unfold recv outcome
  dsimp only
  rw [written, ← call, written]

/-- `Kcp::peek` with a buffer of `len` bytes. -/
theorem peek_answer (kcp : Kcp) (len : Nat) : kcp.peek len =
    if BitVec.ofNat 32 len = BitVec.intMin 32 then none
    else kcp.outcome len (-BitVec.ofNat 32 len).toInt := by
  have call := kcp.ikcpRecv_eq (-BitVec.ofNat 32 len).toInt
  have written := kcp.ikcpRecv_written (-BitVec.ofNat 32 len).toInt
  unfold peek outcome
  dsimp only
  rw [written, ← call, written]

/-- The sign of the length does not matter for the room there is. -/
theorem capacity_neg (len : Nat) : Ikcpcb.capacity (-BitVec.ofNat 32 len).toInt =
    Ikcpcb.capacity (BitVec.ofNat 32 len).toInt := by
  have least := BitVec.le_toInt (BitVec.ofNat 32 len)
  have most := BitVec.toInt_lt (x := BitVec.ofNat 32 len)
  rw [BitVec.toInt_neg]
  generalize (BitVec.ofNat 32 len).toInt = value at *
  unfold Ikcpcb.capacity wrap32
  norm_num at least most ⊢
  simp only [Int.bmod_def]
  split <;> split <;> split <;> omega

/-- Peeking returns and writes what receiving would. -/
theorem answer_peek (kcp : Kcp) (len : Nat) :
    kcp.answer (-BitVec.ofNat 32 len).toInt = kcp.answer (BitVec.ofNat 32 len).toInt := by
  unfold answer
  rw [capacity_neg]

end Kcp

/-! ## What moves up -/

theorem rcvQueue_moveReady {fuel : Nat} {kcp : Ikcpcb} (enough : kcp.rcvBuf.length ≤ fuel) :
    (moveReady fuel kcp).rcvQueue = kcp.rcvQueue ++
      Ikcpcb.upcoming (kcp.rcvWnd - kcp.nrcvQue) kcp.rcvNxt kcp.rcvBuf := by
  induction fuel generalizing kcp with
  | zero =>
      rw [List.eq_nil_of_length_eq_zero (Nat.le_zero.1 enough)]
      simp [moveReady, Ikcpcb.upcoming]
  | succ fuel inductionHypothesis =>
      unfold moveReady
      split
      · rename_i empty
        simp [empty, Ikcpcb.upcoming]
      · rename_i seg rest buffered
        rw [buffered, List.length_cons] at enough
        rw [buffered, Ikcpcb.upcoming, Ikcpcb.rcvNxt32]
        by_cases available : seg.sn = BitVec.ofNat 32 kcp.rcvNxt ∧ kcp.nrcvQue < kcp.rcvWnd
        · have room : 0 < kcp.rcvWnd - kcp.nrcvQue := Nat.sub_pos_of_lt available.2
          have later := @inductionHypothesis (moveTake kcp seg rest) (Nat.le_of_succ_le_succ enough)
          rw [if_pos available, if_pos ⟨available.1, room⟩, later]
          simp [moveTake, Nat.sub_add_eq]
        · rw [if_neg available, if_neg fun both => available ⟨both.1, by omega⟩, List.append_nil]

/-- What has moved up stays, and nothing more does. -/
theorem moveReady_moveReady {fuel : Nat} {kcp : Ikcpcb} (enough : kcp.rcvBuf.length ≤ fuel)
    (more : Nat) : moveReady more (moveReady fuel kcp) = moveReady fuel kcp := by
  induction fuel generalizing kcp with
  | zero =>
      have empty := List.eq_nil_of_length_eq_zero (Nat.le_zero.1 enough)
      cases more <;> simp [moveReady, empty]
  | succ fuel inductionHypothesis =>
      cases buffered : kcp.rcvBuf with
      | nil =>
          have stays : moveReady (fuel + 1) kcp = kcp := by simp [moveReady, buffered]
          rw [stays]
          cases more <;> simp [moveReady, buffered]
      | cons seg rest =>
          rw [buffered, List.length_cons] at enough
          by_cases available : seg.sn = kcp.rcvNxt32 ∧ kcp.nrcvQue < kcp.rcvWnd
          · have moves : moveReady (fuel + 1) kcp = moveReady fuel (moveTake kcp seg rest) := by
              rw [moveReady, buffered]
              exact if_pos available
            rw [moves]
            exact inductionHypothesis (Nat.le_of_succ_le_succ enough)
          · have stays (turns : Nat) : moveReady turns kcp = kcp := by
              cases turns with
              | zero => rfl
              | succ turns =>
                  rw [moveReady, buffered]
                  exact if_neg available
            rw [stays, stays]

theorem moveAvailable_moveAvailable (kcp : Ikcpcb) :
    moveAvailable (moveAvailable kcp) = moveAvailable kcp :=
  moveReady_moveReady le_rfl _

/-- A peek moves up what there is, and never asks for the remote window to be told. -/
theorem recvMoved_peek (kcp : Ikcpcb) : recvMoved kcp true = moveAvailable kcp := by
  have grows : kcp.nrcvQue ≤ (moveAvailable kcp).nrcvQue ∧ (moveAvailable kcp).rcvWnd = kcp.rcvWnd :=
    moveAvailable_induct (fun block => kcp.nrcvQue ≤ block.nrcvQue ∧ block.rcvWnd = kcp.rcvWnd)
      (fun block seg rest _ _ holds => ⟨holds.1.trans (Nat.le_succ _), holds.2⟩) ⟨le_rfl, rfl⟩
  have full : ¬ ((moveAvailable kcp).nrcvQue < (moveAvailable kcp).rcvWnd ∧
      decide (kcp.rcvWnd ≤ kcp.nrcvQue) = true) := by
    rw [grows.2, decide_eq_true_eq]
    omega
  exact if_neg full

/-- A message that has its last fragment stays as it is when segments follow; one that has not is
extended by them. -/
theorem takeMessage_append_queue (queue more : List Seg) : (takeMessage (queue ++ more)).1 =
    if queue.any fun seg => seg.frg = 0 then (takeMessage queue).1
    else (takeMessage queue).1 ++ (takeMessage more).1 := by
  induction queue with
  | nil => simp [takeMessage]
  | cons seg queue inductionHypothesis =>
      rw [List.cons_append, takeMessage, takeMessage]
      by_cases last : seg.frg = 0
      · simp [last]
      · rw [if_neg last, if_neg last]
        dsimp only
        rw [inductionHypothesis]
        split <;> simp_all

namespace Ikcpcb

variable {kcp : Ikcpcb}

theorem payloadOf_moveAvailable (kcp : Ikcpcb) :
    payloadOf (takeMessage (moveAvailable kcp).rcvQueue).1 =
      payloadOf (takeMessage kcp.rcvQueue).1 ++ kcp.joining := by
  rw [moveAvailable, rcvQueue_moveReady le_rfl, takeMessage_append_queue, joining]
  split <;> simp [payloadOf]

theorem HeadComplete.moveAvailable (complete : kcp.HeadComplete) :
    (moveAvailable kcp).HeadComplete := by
  obtain ⟨seg, first, enough⟩ := complete
  have grows : kcp.nrcvQue ≤ (KcpRs.moveAvailable kcp).nrcvQue :=
    moveAvailable_induct (fun block => kcp.nrcvQue ≤ block.nrcvQue)
      (fun block seg rest _ _ holds => holds.trans (Nat.le_succ _)) le_rfl
  refine ⟨seg, ?_, enough.imp_right fun many => many.trans grows⟩
  rw [KcpRs.moveAvailable, rcvQueue_moveReady le_rfl]
  obtain ⟨rest, queue⟩ := List.head?_eq_some_iff.1 first
  rw [queue]
  rfl

end Ikcpcb

namespace Kcp

variable {kcp kcp' : Kcp} {Lengths : Nat → Prop}

/-- What a call of `peek` or `recv` returns, with the bytes it has written. -/
def returned (outcome : Option (Except ErrorKind Nat × Bytes × Kcp)) :
    Option (Except ErrorKind Nat × Bytes) :=
  outcome.map fun (result, written, _) => (result, written)

/-- What calls of `Kcp::peek` lead to, with buffers of the lengths given. -/
inductive Peeked (Lengths : Nat → Prop) (kcp : Kcp) : Kcp → Prop where
  | nothing : Peeked Lengths kcp kcp
  | peek {before after : Kcp} {len : Nat} {result : Except ErrorKind Nat} {written : Bytes}
      (peeked : Peeked Lengths kcp before) (allowed : Lengths len)
      (called : before.peek len = some (result, written, after)) : Peeked Lengths kcp after

/-- Peeking with buffers of these lengths never consumes: every peek returns, with what `recv`
would return, and after any number of peeks everything received is still there, and the next
`recv` or `recv_bytes` returns what it would have returned without them. -/
structure PeeksHarmlessly (Lengths : Nat → Prop) (kcp : Kcp) : Prop where
  same : ∀ kcp', Peeked Lengths kcp kcp' → ∀ len, Lengths len →
    (kcp'.peek len).isSome ∧ returned (kcp'.peek len) = returned (kcp'.recv len)
  received : ∀ kcp', Peeked Lengths kcp kcp' → kcp'.cb.received = kcp.cb.received
  recv : ∀ kcp', Peeked Lengths kcp kcp' → ∀ len, returned (kcp'.recv len) = returned (kcp.recv len)
  recvBytes : ∀ kcp', Peeked Lengths kcp kcp' →
    kcp'.recvBytes.map Prod.fst = kcp.recvBytes.map Prod.fst

/-- The length can be negated. A message that `ikcp_recv` takes to fit fits the buffer indeed, is
met with a length that is positive as a C integer, and no bytes join it when segments move up. -/
def PeeksOnly (kcp : Kcp) (len : Nat) : Prop :=
  len % 2 ^ 32 ≠ 2 ^ 31 ∧ (kcp.cb.Fits (BitVec.ofNat 32 len).toInt →
    kcp.cb.headLength ≤ len ∧ 0 < len % 2 ^ 32 ∧ len % 2 ^ 32 < 2 ^ 31 ∧ kcp.cb.joining = [])

/-- A length that cannot be negated. -/
theorem eq_intMin_iff (len : Nat) :
    BitVec.ofNat 32 len = BitVec.intMin 32 ↔ len % 2 ^ 32 = 2 ^ 31 := by
  rw [← BitVec.toNat_inj, BitVec.toNat_ofNat]
  exact Iff.rfl

/-- A call returns its answer, unless that is longer than the buffer. -/
theorem returned_outcome (kcp : Kcp) (len : Nat) (code : Int) : returned (kcp.outcome len code) =
    if len < (kcp.answer code).2.length then none else some (kcp.answer code) := by
  unfold returned outcome
  split <;> rfl

/-- A message that fits is written past the end of the buffer when it is longer. -/
theorem answer_of_fits {code : Int} (fits : kcp.cb.Fits code) : kcp.answer code =
    (.ok (wrap32 kcp.cb.headLength).toNat, payloadOf (takeMessage kcp.cb.rcvQueue).1) := by
  rw [answer, if_pos ⟨fits.1, fits.2.1⟩, if_pos fits.2.2]

theorem answer_of_unfit {code : Int} (unfit : ¬ kcp.cb.Fits code) : (kcp.answer code).2 = [] := by
  unfold answer
  split
  · rename_i measured
    rw [if_neg fun room => unfit ⟨measured.1, measured.2, room⟩]
  · rfl

theorem returned_recv_of_unfit {len : Nat} (unfit : ¬ kcp.cb.Fits (BitVec.ofNat 32 len).toInt) :
    returned (kcp.recv len) = some (kcp.answer (BitVec.ofNat 32 len).toInt) := by
  rw [recv_answer, returned_outcome, answer_of_unfit unfit]
  exact if_neg (Nat.not_lt_zero _)

/-- A call returns when a message that `ikcp_recv` takes to fit does. -/
theorem outcome_of_room {len : Nat} {code : Int}
    (room : kcp.cb.Fits code → kcp.cb.headLength ≤ len) :
    kcp.outcome len code = some ((kcp.answer code).1, (kcp.answer code).2, kcp.leaves code) := by
  refine if_neg (Nat.not_lt.2 ?_)
  by_cases fits : kcp.cb.Fits code
  · rw [answer_of_fits fits]
    exact room fits
  · rw [answer_of_unfit fits]
    exact Nat.zero_le _

/-- Two blocks with the same first message answer the same. -/
theorem answer_congr (complete : kcp.cb.HeadComplete) (complete' : kcp'.cb.HeadComplete)
    (same : payloadOf (takeMessage kcp'.cb.rcvQueue).1 = payloadOf (takeMessage kcp.cb.rcvQueue).1)
    (len : Int) : kcp'.answer len = kcp.answer len := by
  have length : kcp'.cb.headLength = kcp.cb.headLength := congrArg List.length same
  simp only [answer, complete, complete', length, same]

theorem recvBytes_congr (complete : kcp.cb.HeadComplete) (complete' : kcp'.cb.HeadComplete)
    (same : payloadOf (takeMessage kcp'.cb.rcvQueue).1 = payloadOf (takeMessage kcp.cb.rcvQueue).1) :
    kcp'.recvBytes.map Prod.fst = kcp.recvBytes.map Prod.fst := by
  have length : kcp'.cb.headLength = kcp.cb.headLength := congrArg List.length same
  have size : ikcpPeeksize kcp'.cb = ikcpPeeksize kcp.cb := by
    rw [Ikcpcb.ikcpPeeksize_of_complete complete', Ikcpcb.ikcpPeeksize_of_complete complete, length]
  by_cases positive : 0 < ikcpPeeksize kcp.cb
  · by_cases short : kcp.cb.headLength < 2 ^ 32
    · rw [recvBytes_of_positive positive short,
        recvBytes_of_positive (size ▸ positive) (length ▸ short), same]
      rfl
    · rw [Nat.not_lt] at short
      rw [recvBytes_of_overrun positive short,
        recvBytes_of_overrun (size ▸ positive) (length ▸ short)]
  · rw [recvBytes_of_nonpositive (Int.not_lt.1 positive),
      recvBytes_of_nonpositive (size ▸ Int.not_lt.1 positive)]
    rfl

/-- The length given to `ikcp_recv` is negative exactly when the buffer is not empty and its length
is positive as a C integer, or has no positive counterpart. -/
theorem toInt_neg_length (len : Nat) : (-BitVec.ofNat 32 len).toInt < 0 ↔
    0 < len % 2 ^ 32 ∧ len % 2 ^ 32 ≤ 2 ^ 31 := by
  rw [BitVec.toInt_neg, BitVec.toInt_ofNat', Int.bmod_def, Int.bmod_def]
  norm_num
  split <;> split <;> omega

/-- Peeks that find the sign right leave the block as it is, or with what can move up moved up. -/
theorem Peeked.eq (only : ∀ len, Lengths len → kcp.PeeksOnly len)
    (peeked : Peeked Lengths kcp kcp') : kcp' = kcp ∨
      kcp' = { kcp with cb := moveAvailable kcp.cb } ∧ kcp.cb.HeadComplete ∧ kcp.cb.joining = [] := by
  induction peeked with
  | nothing => exact .inl rfl
  | @peek before after len result written _ allowed called inductionHypothesis =>
      rw [peek_answer] at called
      split at called
      · cases called
      unfold outcome at called
      split at called
      · cases called
      obtain ⟨_, _, rfl⟩ : _ ∧ _ ∧ before.leaves _ = after := by simpa using called
      unfold leaves
      by_cases fits : before.cb.Fits (-BitVec.ofNat 32 len).toInt
      · have ahead : kcp.cb.Fits (BitVec.ofNat 32 len).toInt := by
          rw [Ikcpcb.Fits, ← capacity_neg]
          rcases inductionHypothesis with rfl | ⟨rfl, complete, nothing⟩
          · exact fits
          · have same := Ikcpcb.payloadOf_moveAvailable kcp.cb
            rw [nothing, List.append_nil] at same
            have length : (moveAvailable kcp.cb).headLength = kcp.cb.headLength :=
              congrArg List.length same
            exact ⟨complete, length ▸ fits.2⟩
        obtain ⟨_, least, most, nothing⟩ := (only len allowed).2 ahead
        have negative := (toInt_neg_length len).2 ⟨least, most.le⟩
        rw [if_pos fits, decide_eq_true negative, recvMoved_peek]
        refine .inr ⟨?_, ahead.1, nothing⟩
        rcases inductionHypothesis with rfl | ⟨rfl, _⟩
        · rfl
        · rw [moveAvailable_moveAvailable]
      · rw [if_neg fits]
        exact inductionHypothesis

/-- A message that is peeked at with a buffer of the wrong sign is consumed. -/
theorem received_consumed {kcp : Ikcpcb} (complete : kcp.HeadComplete) :
    (recvMoved kcp false).received ≠ kcp.received := by
  intro same
  have length := congrArg List.length same
  have split := length_takeMessage kcp.rcvQueue
  rw [received_recvMoved, Ikcpcb.received, List.length_append, List.length_append] at length
  obtain ⟨seg, first, _⟩ := complete
  obtain ⟨rest, queue⟩ := List.head?_eq_some_iff.1 first
  have some : 0 < (takeMessage kcp.rcvQueue).1.length := by
    rw [queue, takeMessage]
    split <;> simp
  omega

/-- The length `2 ^ 31` has no positive counterpart, so a buffer of that many bytes takes nothing. -/
theorem no_room_of_half : ¬ 0 ≤ Ikcpcb.capacity (BitVec.ofNat 32 (2 ^ 31)).toInt := by
  decide

/-- Bytes that join the first message are noticed by the next `recv`. -/
theorem joining_of_recv {len : Nat} (fits : kcp.cb.Fits (BitVec.ofNat 32 len).toInt)
    (room : kcp.cb.headLength ≤ len)
    (recv : ∀ len, returned (Kcp.recv { kcp with cb := moveAvailable kcp.cb } len) =
      returned (kcp.recv len)) : kcp.cb.joining = [] := by
  have bytes := Ikcpcb.payloadOf_moveAvailable kcp.cb
  have full : ¬ len < (payloadOf (takeMessage kcp.cb.rcvQueue).1).length := Nat.not_lt.2 room
  have equal := recv len
  rw [recv_answer, recv_answer, returned_outcome, returned_outcome, answer_of_fits fits] at equal
  dsimp only at equal
  rw [if_neg full] at equal
  split at equal
  · cases equal
  have exact := Option.some.inj equal
  rw [answer] at exact
  split at exact
  · split at exact
    · have same := (Prod.mk.inj exact).2
      rw [bytes] at same
      exact List.append_right_eq_self.1 same
    · cases (Prod.mk.inj exact).1
  · rename_i unmeasured
    -- The longer message counts as none, which a buffer with the length of `-2 ^ 31` tells from an
    -- empty one.
    have unfit : ¬ kcp.cb.Fits (BitVec.ofNat 32 (2 ^ 31)).toInt := fun half =>
      no_room_of_half (half.2.1.trans half.2.2)
    have other := recv (2 ^ 31)
    rw [returned_recv_of_unfit unfit,
      returned_recv_of_unfit fun half => unmeasured ⟨half.1, half.2.1⟩, answer, answer,
      if_neg unmeasured, if_pos ⟨fits.1, fits.2.1⟩,
      if_neg fun room => no_room_of_half (fits.2.1.trans room)] at other
    cases (Prod.mk.inj (Option.some.inj other)).1

/-- A peek that returns has found room for the message. -/
theorem room_of_peek {len : Nat} (returns : (kcp.peek len).isSome)
    (fits : kcp.cb.Fits (-BitVec.ofNat 32 len).toInt) : kcp.cb.headLength ≤ len := by
  rw [peek_answer] at returns
  split at returns
  · cases returns
  · unfold outcome at returns
    rw [answer_of_fits fits] at returns
    split at returns
    · cases returns
    · rename_i room
      exact Nat.not_lt.1 room

/-- Peeking is harmless exactly when the length can be negated, and every message that is taken to
fit does, is met with a positive length and no bytes join it. -/
theorem peeks_harmless_iff (Lengths : Nat → Prop) (kcp : Kcp) :
    PeeksHarmlessly Lengths kcp ↔ ∀ len, Lengths len → kcp.PeeksOnly len := by
  constructor
  · intro harmless len allowed
    have returns := (harmless.same kcp .nothing len allowed).1
    have called := kcp.peek_answer len
    by_cases half : BitVec.ofNat 32 len = BitVec.intMin 32
    · rw [called, if_pos half] at returns
      cases returns
    refine ⟨fun least => half ((eq_intMin_iff len).2 least), fun fits => ?_⟩
    have ahead : kcp.cb.Fits (-BitVec.ofNat 32 len).toInt := by
      rw [Ikcpcb.Fits, capacity_neg]
      exact fits
    have room := room_of_peek returns ahead
    rw [if_neg half, outcome_of_room fun _ => room, leaves, if_pos ahead] at called
    have peeked := Peeked.nothing.peek allowed called
    by_cases negative : (-BitVec.ofNat 32 len).toInt < 0
    · rw [decide_eq_true negative, recvMoved_peek] at peeked
      obtain ⟨least, most⟩ := (toInt_neg_length len).1 negative
      exact ⟨room, least, lt_of_le_of_ne most fun same => half ((eq_intMin_iff len).2 same),
        joining_of_recv fits room (harmless.recv _ peeked)⟩
    · rw [decide_eq_false negative] at peeked
      exact absurd (harmless.received _ peeked) (received_consumed fits.1)
  · intro only
    have same : ∀ kcp', Peeked Lengths kcp kcp' → kcp'.cb.received = kcp.cb.received ∧
        (∀ len, kcp'.answer len = kcp.answer len) ∧
        kcp'.recvBytes.map Prod.fst = kcp.recvBytes.map Prod.fst := by
      intro kcp' peeked
      rcases peeked.eq only with rfl | ⟨rfl, complete, nothing⟩
      · exact ⟨rfl, fun _ => rfl, rfl⟩
      · have message := Ikcpcb.payloadOf_moveAvailable kcp.cb
        rw [nothing, List.append_nil] at message
        exact ⟨received_moveAvailable _, answer_congr complete complete.moveAvailable message,
          recvBytes_congr complete complete.moveAvailable message⟩
    refine ⟨fun kcp' peeked len allowed => ?_, fun kcp' peeked => (same kcp' peeked).1,
      fun kcp' peeked len => ?_, fun kcp' peeked => (same kcp' peeked).2.2⟩
    · obtain ⟨half, only⟩ := only len allowed
      have answer := (same kcp' peeked).2.1
      -- The answer is the one of the first state, which has room for it.
      have room : (kcp.answer (BitVec.ofNat 32 len).toInt).2.length ≤ len := by
        by_cases fits : kcp.cb.Fits (BitVec.ofNat 32 len).toInt
        · rw [answer_of_fits fits]
          exact (only fits).1
        · rw [answer_of_unfit fits]
          exact Nat.zero_le _
      have returns : kcp'.outcome len (-BitVec.ofNat 32 len).toInt = some _ :=
        if_neg (by rw [answer, answer_peek]; exact Nat.not_lt.2 room)
      rw [peek_answer, if_neg fun least => half ((eq_intMin_iff len).1 least)]
      refine ⟨by rw [returns]; rfl, ?_⟩
      rw [recv_answer, returned_outcome, returned_outcome, answer_peek]
    · rw [recv_answer, recv_answer, returned_outcome, returned_outcome, (same kcp' peeked).2.1]

/-- A peek with an empty buffer takes an empty message off the queue, and the next `recv` returns
the message behind it. -/
theorem peeks_not_harmless : ¬ ∀ pinned len, kcpMachine.Reachable pinned →
    pinned.kcp.PeeksHarmlessly fun other => other = len := by
  intro harmless
  have run : (kcpMachine.exec (fun _ _ => true) (.initialized 1 0)
      [.input (encodePacket [{ conv := 1, cmd := ikcpCmdPush },
        { conv := 1, cmd := ikcpCmdPush, sn := 1, data := [9] }])]).map (fun pinned =>
          ((returned (pinned.kcp.recv 1)).map Prod.snd, (pinned.kcp.peek 0).map fun outcome =>
            (returned (outcome.2.2.recv 1)).map Prod.snd)) = some (some [], some (some [9])) := by
    decide +kernel
  obtain ⟨pinned, executed, view⟩ := Option.map_eq_some_iff.1 run
  obtain ⟨without, view⟩ := Prod.mk.inj view
  obtain ⟨⟨result, written, after⟩, called, behind⟩ := Option.map_eq_some_iff.1 view
  have reach : kcpMachine.Reachable pinned :=
    Machine.reach_of_exec (fun _ _ _ => trivial) (.initial ⟨1, 0, rfl⟩) executed
  have same := (harmless pinned 0 reach).recv after (Peeked.nothing.peek rfl called) 1
  rw [same, without] at behind
  cases behind

end Kcp

end KcpRs
