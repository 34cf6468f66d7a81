import KcpRs.Calls
import KcpRs.Engine.Packet

/-!
# What `Kcp::recv_bytes` takes

Whether there is a message, and how long it is, is one number for `recv_bytes`, the result of
`ikcp_peeksize`: a message is taken exactly when its length is a positive C integer
(`recvBytes_takes`). The buffer is made for the sum of the lengths as C integers, so a message
whose sum has wrapped to a positive one is written past its end (`recvBytes_fills`).
-/

namespace KcpRs

open Lib

theorem wrap32_positive_iff {length : Nat} :
    0 < wrap32 length ↔ 0 < length % 2 ^ 32 ∧ length % 2 ^ 32 < 2 ^ 31 := by
  unfold wrap32
  rw [Int.bmod_def]
  split <;> omega

/-- The first message of a queue, when as many segments are queued as its first one announces. -/
def firstMessage (queue : List Seg) : Option Bytes :=
  match queue with
  | [] => none
  | seg :: _ =>
      if seg.frg = 0 ∨ seg.frg.toNat + 1 ≤ queue.length then some (payloadOf (takeMessage queue).1)
      else none

theorem firstMessage_eq {queue : List Seg} {message : Bytes}
    (first : firstMessage queue = some message) : message = payloadOf (takeMessage queue).1 := by
  unfold firstMessage at first
  split at first
  · cases first
  · split at first
    · exact (Option.some.inj first).symm
    · cases first

/-- The complete messages of a queue, as successive calls of `ikcp_recv` with large buffers take
them: `fuel` at most. -/
def completeMessages : Nat → List Seg → List Bytes
  | 0, _ => []
  | fuel + 1, queue =>
      match firstMessage queue with
      | none => []
      | some message => message :: completeMessages fuel (takeMessage queue).2

namespace Ikcpcb

variable {kcp : Ikcpcb}

/-- The complete messages that wait in the receive queue. -/
def waitingMessages (kcp : Ikcpcb) : List Bytes := completeMessages kcp.rcvQueue.length kcp.rcvQueue

/-- The first message of the receive queue is complete: as many segments are queued as its first
one announces. -/
def HeadComplete (kcp : Ikcpcb) : Prop :=
  ∃ seg ∈ kcp.rcvQueue.head?, seg.frg = 0 ∨ seg.frg.toNat + 1 ≤ kcp.nrcvQue

instance (kcp : Ikcpcb) : Decidable kcp.HeadComplete :=
  inferInstanceAs (Decidable (∃ seg ∈ kcp.rcvQueue.head?, _))

theorem headComplete_iff (counted : kcp.nrcvQue = kcp.rcvQueue.length) : kcp.HeadComplete ↔
    firstMessage kcp.rcvQueue = some (payloadOf (takeMessage kcp.rcvQueue).1) := by
  unfold HeadComplete firstMessage
  rw [counted]
  cases queue : kcp.rcvQueue with
  | nil => simp
  | cons seg rest => simp [or_iff_not_imp_left]

/-- Behind an incomplete message nothing can be taken. -/
theorem waitingMessages_of_incomplete (counted : kcp.nrcvQue = kcp.rcvQueue.length)
    (incomplete : ¬ kcp.HeadComplete) : kcp.waitingMessages = [] := by
  have none : firstMessage kcp.rcvQueue = none := by
    refine Option.eq_none_iff_forall_ne_some.2 fun message first => incomplete ?_
    rw [headComplete_iff counted, first, firstMessage_eq first]
  unfold waitingMessages completeMessages
  split
  · rfl
  · rw [none]

/-- A complete message is recognised by `ikcp_peeksize`. -/
theorem ikcpPeeksize_of_complete (complete : kcp.HeadComplete) :
    ikcpPeeksize kcp = wrap32 kcp.headLength := by
  obtain ⟨seg, first, enough⟩ := complete
  obtain ⟨rest, queue⟩ := List.head?_eq_some_iff.1 first
  unfold ikcpPeeksize headLength
  rw [queue]
  dsimp only
  split
  · rename_i single
    simp [takeMessage, single, payloadOf]
  · rename_i several
    have many := enough.resolve_left several
    have sum := peeksizeLoop_eq (seg :: rest) 0
    rw [wrap32_of_lt le_rfl (by decide), Int.zero_add] at sum
    rw [if_neg (by omega), sum]

theorem ikcpPeeksize_of_incomplete (incomplete : ¬ kcp.HeadComplete) : ikcpPeeksize kcp = -1 := by
  unfold ikcpPeeksize
  split
  · rfl
  · rename_i seg rest queue
    have few : ¬ (seg.frg = 0 ∨ seg.frg.toNat + 1 ≤ kcp.nrcvQue) := fun enough =>
      incomplete ⟨seg, by rw [queue]; rfl, enough⟩
    rw [not_or] at few
    rw [if_neg few.1, if_pos (by omega)]

/-- When `Kcp::recv_bytes` takes the first message. -/
theorem ikcpPeeksize_positive_iff : 0 < ikcpPeeksize kcp ↔
    kcp.HeadComplete ∧ 0 < kcp.headLength % 2 ^ 32 ∧ kcp.headLength % 2 ^ 32 < 2 ^ 31 := by
  by_cases complete : kcp.HeadComplete
  · rw [ikcpPeeksize_of_complete complete, wrap32_positive_iff]
    exact ⟨fun size => ⟨complete, size⟩, And.right⟩
  · rw [ikcpPeeksize_of_incomplete complete]
    exact ⟨fun positive => absurd positive (by decide), fun taken => absurd taken.1 complete⟩

/-! ## The walk of the merge loop -/

/-- The merge loop stops at the first segment numbered zero, or at the end of the queue. -/
structure FirstMessage (queue message rest : List Seg) : Prop where
  split : queue = message ++ rest
  inner : ∀ seg ∈ message.dropLast, seg.frg ≠ 0
  last : ∀ seg ∈ message.getLast?, seg.frg = 0 ∨ rest = []

theorem firstMessage_takeMessage (queue : List Seg) :
    FirstMessage queue (takeMessage queue).1 (takeMessage queue).2 := by
  induction queue with
  | nil => exact ⟨rfl, by simp [takeMessage], by simp [takeMessage]⟩
  | cons seg queue inductionHypothesis =>
      unfold takeMessage
      split
      · rename_i single
        refine ⟨rfl, by simp, ?_⟩
        rintro last ⟨⟩
        exact .inl single
      · rename_i several
        obtain ⟨split, inner, last⟩ := inductionHypothesis
        dsimp only
        cases message : (takeMessage queue).1 with
        | nil =>
            have none : queue = [] := by
              cases queue with
              | nil => rfl
              | cons next queue =>
                  unfold takeMessage at message
                  split at message <;> simp at message
            subst none
            exact ⟨rfl, by simp, fun _ _ => .inr rfl⟩
        | cons next message' =>
            rw [message] at split inner last
            refine ⟨by rw [List.cons_append, ← split], ?_, ?_⟩
            · rw [List.dropLast_cons_of_ne_nil (List.cons_ne_nil _ _), List.forall_mem_cons]
              exact ⟨several, inner⟩
            · rw [List.getLast?_cons_cons]
              exact last

/-! ## The segments moved up -/

/-- `moved` are the first segments of `rcv_buf` and carry the numbers expected next. -/
structure MovedUp (kcp kcp' : Ikcpcb) (moved : List Seg) : Prop where
  buffer : kcp.rcvBuf = moved ++ kcp'.rcvBuf
  queue : kcp'.rcvQueue = kcp.rcvQueue ++ moved
  next : kcp'.rcvNxt = kcp.rcvNxt + moved.length
  numbers : moved.map Seg.sn = (List.range' kcp.rcvNxt moved.length).map (BitVec.ofNat 32)

theorem movedUp_moveAvailable (kcp : Ikcpcb) : ∃ moved, MovedUp kcp (moveAvailable kcp) moved := by
  refine moveAvailable_induct (fun kcp' => ∃ moved, MovedUp kcp kcp' moved)
    (fun kcp' seg rest buffered number holds => ?_) ⟨[], by simp, by simp, by simp, by simp⟩
  obtain ⟨moved, buffer, queue, next, numbers⟩ := holds
  refine ⟨moved ++ [seg], ?_, ?_, ?_, ?_⟩
  · rw [buffer, buffered]
    simp [moveTake]
  · simp [moveTake, queue]
  · simp only [moveTake, next, List.length_append, List.length_singleton]
    omega
  · rw [List.map_append, numbers, List.length_append, List.length_singleton, List.range'_concat,
      List.map_append]
    simp [number, rcvNxt32, next]

theorem movedUp_recvMoved (kcp : Ikcpcb) : ∃ moved,
    MovedUp (recvMerged kcp false) (recvMoved kcp false) moved := by
  obtain ⟨moved, buffer, queue, next, numbers⟩ := movedUp_moveAvailable (recvMerged kcp false)
  unfold recvMoved
  dsimp only
  split
  · exact ⟨moved, buffer, queue, next, numbers⟩
  · exact ⟨moved, buffer, queue, next, numbers⟩

theorem headLength_of_firstMessage {message : Bytes}
    (first : firstMessage kcp.rcvQueue = some message) : kcp.headLength = message.length := by
  rw [firstMessage_eq first, headLength]

end Ikcpcb

namespace Kcp

/-! ## No message is left behind -/

/-- `Kcp::recv_bytes` takes the first message when it is complete, and changes nothing when
it returns nothing, which it does only when there is none. -/
def Unstuck (kcp : Kcp) : Prop :=
  ∃ frame kcp', kcp.recvBytes = some (frame, kcp') ∧
    (frame = none → kcp' = kcp ∧ ¬ kcp.cb.HeadComplete) ∧
    (kcp.cb.HeadComplete → frame.isSome ∧
      kcp'.cb.received = (takeMessage kcp.cb.rcvQueue).2 ++ kcp.cb.rcvBuf)

/-- A complete first message is not empty and its length is a positive C integer. -/
def HeadMeasured (kcp : Kcp) : Prop :=
  kcp.cb.HeadComplete → 0 < kcp.cb.headLength ∧ kcp.cb.headLength < 2 ^ 31

instance (kcp : Kcp) : Decidable kcp.HeadMeasured := inferInstanceAs (Decidable (_ → _))

/-- A complete message is taken exactly when its length is a positive C integer. A longer one is
not taken for one, or written past the end of the buffer. -/
theorem recvBytes_takes (kcp : Kcp) : kcp.Unstuck ↔ kcp.HeadMeasured := by
  constructor
  · rintro ⟨frame, kcp', received, _, taken⟩ complete
    have some := (taken complete).1
    have returns := (recvBytes_isSome_iff kcp).1 (by rw [received]; rfl)
    obtain ⟨rfl, _⟩ | ⟨_, positive, _, _⟩ := recvBytes_eq received
    · cases some
    · have measured := (Ikcpcb.ikcpPeeksize_positive_iff.1 positive).2
      rwa [Nat.mod_eq_of_lt (returns positive)] at measured
  · intro measured
    by_cases complete : kcp.cb.HeadComplete
    · obtain ⟨least, most⟩ := measured complete
      have short : kcp.cb.headLength < 2 ^ 32 := most.trans (by decide)
      have positive := Ikcpcb.ikcpPeeksize_positive_iff.2
        ⟨complete, by rw [Nat.mod_eq_of_lt short]; exact ⟨least, most⟩⟩
      exact ⟨_, _, recvBytes_of_positive positive short, nofun,
        fun _ => ⟨rfl, received_recvMoved kcp.cb⟩⟩
    · have negative := Ikcpcb.ikcpPeeksize_of_incomplete complete
      exact ⟨none, kcp, recvBytes_of_nonpositive (by omega), fun _ => ⟨rfl, complete⟩,
        fun complete' => absurd complete' complete⟩

/-- A peer that sends an empty message blocks everything it sends after it. -/
theorem recvBytes_stuck : ¬ ∀ pinned, kcpMachine.Reachable pinned → pinned.kcp.Unstuck := by
  intro unstuck
  have run : (kcpMachine.exec (fun _ _ => true) (.initialized 1 0)
      [.input (encodePacket [{ conv := 1, cmd := ikcpCmdPush },
        { conv := 1, cmd := ikcpCmdPush, sn := 1, data := [9] }])]).map (fun pinned =>
          (decide pinned.kcp.cb.HeadComplete, pinned.kcp.cb.rcvQueue.map Seg.data,
            pinned.kcp.recvBytes.map Prod.fst)) = some (true, [[], [9]], some none) := by
    decide +kernel
  obtain ⟨pinned, executed, view⟩ := Option.map_eq_some_iff.1 run
  simp only [Prod.mk.injEq, decide_eq_true_eq] at view
  obtain ⟨complete, _, nothing⟩ := view
  obtain ⟨frame, kcp', received, _, taken⟩ := unstuck pinned
    (Machine.reach_of_exec (fun _ _ _ => trivial) (.initial ⟨1, 0, rfl⟩) executed)
  have some := (taken complete).1
  rw [received] at nothing
  cases nothing
  cases some

/-! ## Frames are whole -/

/-- `frame` is written in full by the inner `Kcp::recv`: it is the first message of the receive
queue, which is removed, and segments of `rcv_buf` that carry the next numbers follow what is
left. -/
def Fills (kcp kcp' : Kcp) (frame : Bytes) : Prop :=
  kcp.recv kcp.peekSize = some (.ok kcp.peekSize, frame, kcp') ∧ frame.length = kcp.peekSize ∧
    ∃ message rest moved, Ikcpcb.FirstMessage kcp.cb.rcvQueue message rest ∧ frame = payloadOf message ∧
      kcp'.cb.rcvQueue = rest ++ moved ∧ kcp.cb.rcvBuf = moved ++ kcp'.cb.rcvBuf ∧
      moved.map Seg.sn = (List.range' kcp.cb.rcvNxt moved.length).map (BitVec.ofNat 32)

/-- The first message, when there is one of a positive size, is shorter than `2 ^ 32` bytes. -/
def HeadShort (kcp : Kcp) : Prop :=
  kcp.cb.HeadComplete → 0 < kcp.cb.headLength % 2 ^ 32 → kcp.cb.headLength % 2 ^ 32 < 2 ^ 31 →
    kcp.cb.headLength < 2 ^ 32

instance (kcp : Kcp) : Decidable kcp.HeadShort := inferInstanceAs (Decidable (_ → _))

theorem headShort_iff {kcp : Kcp} :
    kcp.HeadShort ↔ (0 < ikcpPeeksize kcp.cb → kcp.cb.headLength < 2 ^ 32) := by
  rw [Ikcpcb.ikcpPeeksize_positive_iff]
  exact ⟨fun short positive => short positive.1 positive.2.1 positive.2.2,
    fun short complete least most => short ⟨complete, least, most⟩⟩

/-- `Kcp::recv_bytes` returns, and a frame that it returns is written in full. -/
def Filled (kcp : Kcp) : Prop :=
  ∃ frame kcp', kcp.recvBytes = some (frame, kcp') ∧ ∀ bytes ∈ frame, kcp.Fills kcp' bytes

/-- A frame is written in full exactly when its message is shorter than `2 ^ 32` bytes: the
buffer of a longer one is only as large as what the sum of its lengths wraps to. -/
theorem recvBytes_fills (kcp : Kcp) : kcp.Filled ↔ kcp.HeadShort := by
  rw [headShort_iff]
  constructor
  · rintro ⟨frame, kcp', received, _⟩
    exact (recvBytes_isSome_iff kcp).1 (by rw [received]; rfl)
  · intro short
    by_cases positive : 0 < ikcpPeeksize kcp.cb
    · obtain ⟨moved, buffer, queue, _, numbers⟩ := Ikcpcb.movedUp_recvMoved kcp.cb
      refine ⟨_, _, recvBytes_of_positive positive (short positive), ?_⟩
      rintro bytes ⟨⟩
      refine ⟨recv_of_positive positive (short positive), ?_, _, _, moved,
        Ikcpcb.firstMessage_takeMessage kcp.cb.rcvQueue, rfl, queue, buffer, numbers⟩
      rw [peekSize_of_positive positive, Nat.mod_eq_of_lt (short positive)]
      rfl
    · exact ⟨none, kcp, recvBytes_of_nonpositive (Int.not_lt.1 positive), nofun⟩

/-- A packet that queues one data segment. -/
theorem input_queues {kcp : Kcp} (drained : kcp.cb.rcvBuf = []) (room : kcp.cb.nrcvQue < 256)
    (window : kcp.cb.rcvWnd = 256) {frg : Byte} {data : Bytes}
    (short : ikcpOverhead + data.length < 2 ^ 31) : ∃ packet kcp' seg,
      kcp.input packet = some (.ok (), kcp') ∧ Seg.payload seg = ⟨frg, data⟩ ∧
      kcp'.cb.rcvWnd = 256 ∧ kcp'.cb.rcvBuf = [] ∧ kcp'.cb.rcvQueue = kcp.cb.rcvQueue ++ [seg] ∧
      kcp'.cb.nrcvQue = kcp.cb.nrcvQue + 1 := by
  let seg : Seg := { conv := kcp.cb.conv, cmd := ikcpCmdPush, frg, sn := kcp.cb.rcvNxt32, data }
  have wellFormed : WellFormed kcp.cb.conv [seg] := by
    refine ⟨List.cons_ne_nil _ _, by simp [seg], by simp [seg, isCommand], ?_⟩
    rw [encodePacket, List.flatMap_singleton, length_ikcpEncodeSeg]
    exact short
  have queued := receiver_ikcpInput_next wellFormed rfl rfl drained (by omega) (by omega)
  have settings := settings_ikcpInput kcp.cb (encodePacket [seg])
  simp only [Ikcpcb.receiver, Ikcpcb.Receiver.mk.injEq] at queued
  refine ⟨encodePacket [seg], { kcp with cb := (ikcpInput kcp.cb (encodePacket [seg])).2 }, seg, ?_,
    rfl, (congrArg Ikcpcb.Settings.rcvWnd settings).trans window, queued.2.2.1.trans drained,
    queued.1, queued.2.1⟩
  rw [Kcp.input, wellFormed.ikcpInput]
  rfl

/-- Three packets, each with one fragment of a message of more than `2 ^ 32` bytes, lead a `Kcp`
that has received nothing to where the size of its first message has wrapped to fewer than
`2 ^ 31`. -/
theorem inputs_wrap {kcp : Kcp} (drained : kcp.cb.rcvBuf = []) (empty : kcp.cb.rcvQueue = [])
    (zero : kcp.cb.nrcvQue = 0) (window : kcp.cb.rcvWnd = 256) : ∃ packet1 packet2 packet3 k1 k2 k3,
      kcp.input packet1 = some (.ok (), k1) ∧ k1.input packet2 = some (.ok (), k2) ∧
      k2.input packet3 = some (.ok (), k3) ∧ 0 < ikcpPeeksize k3.cb ∧ 2 ^ 32 ≤ k3.cb.headLength := by
  obtain ⟨data, length⟩ : ∃ data : Bytes, data.length = 2 ^ 31 - 25 :=
    ⟨List.replicate _ 0, List.length_replicate⟩
  have short : ikcpOverhead + data.length < 2 ^ 31 := by
    rw [length]
    decide
  obtain ⟨packet1, k1, first, taken1, fragment1, window1, drained1, queue1, count1⟩ :=
    @input_queues kcp drained (by omega) window 2 data short
  rw [empty] at queue1
  rw [zero] at count1
  obtain ⟨packet2, k2, second, taken2, fragment2, window2, drained2, queue2, count2⟩ :=
    @input_queues k1 drained1 (by omega) window1 1 data short
  obtain ⟨packet3, k3, third, taken3, fragment3, _, _, queue3, count3⟩ :=
    @input_queues k2 drained2 (by omega) window2 0 data short
  rw [queue2, queue1] at queue3
  obtain ⟨frg1, data1⟩ := Payload.mk.inj fragment1
  obtain ⟨frg2, data2⟩ := Payload.mk.inj fragment2
  obtain ⟨frg3, data3⟩ := Payload.mk.inj fragment3
  have total : k3.cb.headLength = 3 * (2 ^ 31 - 25) := by
    rw [Ikcpcb.headLength, queue3]
    simp [takeMessage, frg1, frg2, frg3, payloadOf, data1, data2, data3, length]
  have complete : k3.cb.HeadComplete := by
    refine ⟨first, by rw [queue3]; rfl, .inr ?_⟩
    rw [frg1, count3, count2, count1]
    decide
  refine ⟨packet1, packet2, packet3, k1, k2, k3, taken1, taken2, taken3,
    Ikcpcb.ikcpPeeksize_positive_iff.2 ⟨complete, ?_⟩, ?_⟩
  · rw [total]
    decide
  · rw [total]
    decide

/-- Such a message is written past the end of the buffer. -/
theorem recvBytes_overrun : ¬ ∀ pinned, kcpMachine.Reachable pinned → pinned.kcp.Filled := by
  intro fills
  obtain ⟨packet1, packet2, packet3, k1, k2, k3, taken1, taken2, taken3, positive, long⟩ :=
    @inputs_wrap (Pinned.initialized 1 0).kcp rfl rfl rfl rfl
  have called {pinned : Pinned} {packet : Bytes} {kcp : Kcp}
      (reach : kcpMachine.Reachable pinned) (taken : pinned.kcp.input packet = some (.ok (), kcp)) :
      kcpMachine.Reachable { pinned with kcp } := by
    have moved : kcpMachine.step pinned (.input packet) = some { pinned with kcp } := by
      simp [kcpMachine, Pinned.call, taken]
    exact .step reach trivial moved
  have reach := called (called (called (.initial ⟨1, 0, rfl⟩) taken1) taken2) taken3
  obtain ⟨frame, kcp', received, _⟩ := fills _ reach
  rw [recvBytes_of_overrun positive long] at received
  cases received

end Kcp

end KcpRs
