import KcpRs.Engine.State

/-!
# Queueing data: `ikcp_send`
-/

namespace KcpRs

open Lib

/-- The fragment loop of `ikcp_send`: cut `len` bytes of `buffer` into `count`
segments, numbered down to zero in message mode. -/
def sendFragments (mss : Nat) (stream : Bool) : Nat → Bytes → Nat → List Seg
  | 0, _, _ => []
  | count + 1, buffer, len =>
      let size := if mss < len then mss else len
      { frg := if stream then 0 else BitVec.ofNat 8 count, data := buffer.take size } ::
        sendFragments mss stream count (buffer.drop size) (len - size)

/-- Streaming mode of `ikcp_send`: append to the last queued segment while it has
room. Returns the block, the rest of the buffer and what is left to queue. -/
def sendExtend (kcp : Ikcpcb) (buffer : Bytes) (len : Nat) : Ikcpcb × Bytes × Nat :=
  match kcp.sndQueue.getLast? with
  | some old =>
      if old.data.length < kcp.mss then
        let capacity := kcp.mss - old.data.length
        let extend := if len < capacity then len else capacity
        let seg : Seg := { frg := 0, data := old.data ++ buffer.take extend }
        ({ kcp with sndQueue := kcp.sndQueue.dropLast ++ [seg] }, buffer.drop extend,
          len - extend)
      else (kcp, buffer, len)
  | none => (kcp, buffer, len)

/-- The number of fragments `ikcp_send` cuts `len` bytes into. It is at least one, so
the guard `count == 0` of the source never fires. -/
def fragmentCount (mss len : Nat) : Nat :=
  if len ≤ mss then 1 else (len + mss - 1) / mss

/-- The part of `ikcp_send` after the streaming-mode merge. -/
def sendRest (kcp : Ikcpcb) (buffer : Bytes) (len : Nat) : Int × Ikcpcb :=
  let count := fragmentCount kcp.mss len
  if ikcpWndRcv ≤ count then (-2, kcp)
  else
    (0, { kcp with
      sndQueue := kcp.sndQueue ++ sendFragments kcp.mss kcp.stream count buffer len
      nsndQue := kcp.nsndQue + count })

/-- `ikcp_send`. -/
def ikcpSend (kcp : Ikcpcb) (buffer : Bytes) (len : Int) : Int × Ikcpcb :=
  if len < 0 then (-1, kcp)
  else if kcp.stream then
    let (kcp, buffer, len) := sendExtend kcp buffer len.toNat
    if len = 0 then (0, kcp) else sendRest kcp buffer len
  else sendRest kcp buffer len.toNat

/-! ## Fragments -/

@[simp] theorem length_sendFragments (mss : Nat) (stream : Bool) (count : Nat) (buffer : Bytes)
    (len : Nat) : (sendFragments mss stream count buffer len).length = count := by
  induction count generalizing buffer len with
  | zero => rfl
  | succ count inductionHypothesis => simp [sendFragments, inductionHypothesis]

theorem fragmentCount_pos {mss len : Nat} (positive : 0 < mss) : 0 < fragmentCount mss len := by
  unfold fragmentCount
  split
  · exact Nat.one_pos
  · exact Nat.div_pos (by omega) positive

/-- The fragments have room for the whole buffer. -/
theorem le_fragmentCount_mul {mss len : Nat} (positive : 0 < mss) :
    len ≤ fragmentCount mss len * mss := by
  unfold fragmentCount
  split
  · simpa
  · have division := Nat.div_add_mod (len + mss - 1) mss
    have remainder := Nat.mod_lt (len + mss - 1) positive
    rw [Nat.mul_comm] at division
    omega

/-- One fragment fewer would not have room. -/
theorem fragmentCount_pred_mul_lt {mss len : Nat} (positive : 0 < mss) (nonempty : 0 < len) :
    (fragmentCount mss len - 1) * mss < len := by
  unfold fragmentCount
  split
  · simpa
  · have division := Nat.div_mul_le_self (len + mss - 1) mss
    rw [Nat.sub_mul, Nat.one_mul]
    omega

/-- A buffer that fits into `bound` fragments is not cut into more. -/
theorem fragmentCount_le {mss len bound : Nat} (positive : 0 < mss) (least : 0 < bound)
    (fits : len ≤ bound * mss) : fragmentCount mss len ≤ bound := by
  unfold fragmentCount
  split
  · exact least
  · have : (len + mss - 1) / mss < bound + 1 := by
      rw [Nat.div_lt_iff_lt_mul positive, Nat.add_mul]
      omega
    omega

/-- A buffer needs at most `bound` fragments exactly when it fits into as many. -/
theorem fragmentCount_le_iff {mss len bound : Nat} (positive : 0 < mss) (least : 0 < bound) :
    fragmentCount mss len ≤ bound ↔ len ≤ bound * mss :=
  ⟨fun few => (le_fragmentCount_mul positive).trans (Nat.mul_le_mul_right mss few),
    fragmentCount_le positive least⟩

/-- Put together, the fragments of `len` bytes are those bytes. -/
theorem payloadOf_sendFragments_take {mss : Nat} {stream : Bool} {count : Nat} {buffer : Bytes}
    {len : Nat} (fits : len ≤ count * mss) (whole : len ≤ buffer.length) :
    payloadOf (sendFragments mss stream count buffer len) = buffer.take len := by
  induction count generalizing buffer len with
  | zero =>
      have none : len = 0 := by omega
      simp [sendFragments, payloadOf, none]
  | succ count inductionHypothesis =>
      rw [Nat.add_mul] at fits
      by_cases more : mss < len
      · have rest := @inductionHypothesis (buffer.drop mss) (len - mss) (by omega)
          (by rw [List.length_drop]; omega)
        simp only [payloadOf] at rest
        simp only [sendFragments, payloadOf, if_pos more, List.flatMap_cons, rest]
        rw [← List.take_add, Nat.add_sub_cancel' more.le]
      · have rest := @inductionHypothesis (buffer.drop len) 0 (Nat.zero_le _) (Nat.zero_le _)
        simp only [payloadOf] at rest
        simp [sendFragments, payloadOf, more, rest]

/-- Put together, the fragments are the buffer. -/
theorem payloadOf_sendFragments (mss : Nat) (stream : Bool) (count : Nat) (buffer : Bytes)
    (fits : buffer.length ≤ count * mss) :
    payloadOf (sendFragments mss stream count buffer buffer.length) = buffer := by
  rw [payloadOf_sendFragments_take fits le_rfl, List.take_length]

/-- Every fragment fits into a segment. -/
theorem length_data_le_of_mem_sendFragments {mss : Nat} {stream : Bool} {count : Nat}
    {buffer : Bytes} {len : Nat} {seg : Seg}
    (member : seg ∈ sendFragments mss stream count buffer len) : seg.data.length ≤ mss := by
  induction count generalizing buffer len with
  | zero => simp [sendFragments] at member
  | succ count inductionHypothesis =>
      simp only [sendFragments, List.mem_cons] at member
      rcases member with rfl | member
      · simp only [List.length_take]
        split <;> omega
      · exact inductionHypothesis member

/-- No fragment is empty when all of them are needed. -/
theorem data_ne_nil_of_mem_sendFragments {mss : Nat} {stream : Bool} {count : Nat}
    {buffer : Bytes} {seg : Seg} (positive : 0 < mss) (needed : (count - 1) * mss < buffer.length)
    (member : seg ∈ sendFragments mss stream count buffer buffer.length) : seg.data ≠ [] := by
  induction count generalizing buffer with
  | zero => simp [sendFragments] at member
  | succ count inductionHypothesis =>
      simp only [sendFragments, List.mem_cons] at member
      have nonempty : 0 < buffer.length := by omega
      rcases member with rfl | member
      · have taken : 0 < (buffer.take (if mss < buffer.length then mss else buffer.length)).length := by
          rw [List.length_take]
          split <;> omega
        exact List.length_pos_iff.1 taken
      · cases count with
        | zero => simp [sendFragments] at member
        | succ count =>
            rw [Nat.add_sub_cancel, Nat.add_mul] at needed
            have more : mss < buffer.length := by omega
            rw [if_pos more] at member
            have remaining : (count + 1 - 1) * mss < (buffer.drop mss).length := by
              rw [Nat.add_sub_cancel, List.length_drop]
              omega
            exact inductionHypothesis remaining (by rwa [List.length_drop])

/-! ## What queueing data changes -/

/-- Only the send queue changes. -/
theorem ikcpSend_queue (kcp : Ikcpcb) (buffer : Bytes) (len : Int) :
    ∃ queue count, (ikcpSend kcp buffer len).2 =
      { kcp with sndQueue := queue, nsndQue := count } := by
  have rest (kcp : Ikcpcb) (buffer : Bytes) (len : Nat) : ∃ queue count,
      (sendRest kcp buffer len).2 = { kcp with sndQueue := queue, nsndQue := count } := by
    unfold sendRest
    dsimp only
    split
    · exact ⟨kcp.sndQueue, kcp.nsndQue, rfl⟩
    · exact ⟨_, _, rfl⟩
  have extend (len : Nat) : ∃ queue,
      (sendExtend kcp buffer len).1 = { kcp with sndQueue := queue } := by
    unfold sendExtend
    split
    · split
      · exact ⟨_, rfl⟩
      · exact ⟨kcp.sndQueue, rfl⟩
    · exact ⟨kcp.sndQueue, rfl⟩
  unfold ikcpSend
  split
  · exact ⟨kcp.sndQueue, kcp.nsndQue, rfl⟩
  · split
    · obtain ⟨queue, extended⟩ := extend len.toNat
      rcases sent : sendExtend kcp buffer len.toNat with ⟨block, bytes, left⟩
      rw [sent] at extended
      dsimp only at extended ⊢
      split
      · exact ⟨queue, kcp.nsndQue, extended⟩
      · obtain ⟨queue', count, equal⟩ := rest block bytes left
        exact ⟨queue', count, by rw [equal, extended]⟩
    · exact rest kcp buffer len.toNat

/-- The results of `ikcp_send`. -/
theorem ikcpSend_code (kcp : Ikcpcb) (buffer : Bytes) (len : Int) :
    (ikcpSend kcp buffer len).1 = 0 ∨ (ikcpSend kcp buffer len).1 = -1 ∨
      (ikcpSend kcp buffer len).1 = -2 := by
  have rest (kcp : Ikcpcb) (buffer : Bytes) (len : Nat) :
      (sendRest kcp buffer len).1 = 0 ∨ (sendRest kcp buffer len).1 = -1 ∨
        (sendRest kcp buffer len).1 = -2 := by
    unfold sendRest
    dsimp only
    split <;> simp
  unfold ikcpSend
  split
  · simp
  · split
    · dsimp only
      split
      · simp
      · exact rest _ _ _
    · exact rest _ _ _

/-- With nothing queued both modes queue exactly the fragments. -/
theorem ikcpSend_of_empty {kcp : Ikcpcb} (empty : kcp.sndQueue = []) {buffer : Bytes} {len : Int}
    (nonempty : 0 < len) :
    ikcpSend kcp buffer len = sendRest kcp buffer len.toNat := by
  have extended : sendExtend kcp buffer len.toNat = (kcp, buffer, len.toNat) := by
    simp [sendExtend, empty]
  unfold ikcpSend
  rw [if_neg (by omega), extended]
  dsimp only
  split
  · rw [if_neg (by omega)]
  · rfl

/-- Queueing data keeps the counters right. -/
theorem Ikcpcb.Counted.ikcpSend {kcp : Ikcpcb} (counted : kcp.Counted) (buffer : Bytes)
    (len : Int) : (ikcpSend kcp buffer len).2.Counted := by
  have rest {kcp : Ikcpcb} (counted : kcp.Counted) (buffer : Bytes) (len : Nat) :
      (sendRest kcp buffer len).2.Counted := by
    unfold sendRest
    dsimp only
    split
    · exact counted
    · exact ⟨by simp [counted.sndQueue], counted.sndBuf, counted.rcvQueue, counted.rcvBuf⟩
  have extend (len : Nat) : (sendExtend kcp buffer len).1.Counted := by
    unfold sendExtend
    split
    · rename_i old last
      split
      · refine ⟨?_, counted.sndBuf, counted.rcvQueue, counted.rcvBuf⟩
        have occupied : 0 < kcp.sndQueue.length := by
          cases queue : kcp.sndQueue with
          | nil => simp [queue] at last
          | cons => simp
        simp only [List.length_append, List.length_dropLast, List.length_singleton]
        have := counted.sndQueue
        omega
      · exact counted
    · exact counted
  unfold KcpRs.ikcpSend
  split
  · exact counted
  · split
    · dsimp only
      split
      · exact extend _
      · exact rest (extend _) _ _
    · exact rest counted _ _

/-- Queueing data never shortens the send queue. -/
theorem ikcpWaitsnd_le_ikcpSend (kcp : Ikcpcb) (buffer : Bytes) (len : Int) :
    ikcpWaitsnd kcp ≤ ikcpWaitsnd (ikcpSend kcp buffer len).2 := by
  have rest (kcp : Ikcpcb) (buffer : Bytes) (len : Nat) :
      ikcpWaitsnd kcp ≤ ikcpWaitsnd (sendRest kcp buffer len).2 := by
    unfold sendRest ikcpWaitsnd
    dsimp only
    split
    · exact le_refl _
    · simp only
      omega
  have extend (len : Nat) : ikcpWaitsnd (sendExtend kcp buffer len).1 = ikcpWaitsnd kcp := by
    unfold sendExtend
    split
    · split <;> rfl
    · rfl
  unfold ikcpSend
  split
  · exact le_refl _
  · split
    · dsimp only
      split
      · rw [extend]
      · rw [← extend len.toNat]
        exact rest _ _ _
    · exact rest _ _ _

/-- A call of `ikcp_send` queues at most 255 segments, and none when it fails. -/
theorem nsndQue_ikcpSend (kcp : Ikcpcb) (buffer : Bytes) (len : Int) :
    (ikcpSend kcp buffer len).2.nsndQue = kcp.nsndQue ∨ (ikcpSend kcp buffer len).1 = 0 ∧
      (ikcpSend kcp buffer len).2.nsndQue ≤ kcp.nsndQue + 255 := by
  have rest (kcp : Ikcpcb) (buffer : Bytes) (len : Nat) :
      (sendRest kcp buffer len).2.nsndQue = kcp.nsndQue ∨ (sendRest kcp buffer len).1 = 0 ∧
        (sendRest kcp buffer len).2.nsndQue ≤ kcp.nsndQue + 255 := by
    unfold sendRest
    dsimp only
    split
    · exact .inl rfl
    · rename_i few
      refine .inr ⟨rfl, ?_⟩
      simp only [ikcpWndRcv] at few ⊢
      omega
  have extend (len : Nat) : (sendExtend kcp buffer len).1.nsndQue = kcp.nsndQue := by
    unfold sendExtend
    split
    · split <;> rfl
    · rfl
  unfold ikcpSend
  split
  · exact .inl rfl
  · split
    · dsimp only
      split
      · exact .inl (extend _)
      · rw [← extend len.toNat]
        exact rest _ _ _
    · exact rest _ _ _

/-- No queued segment is larger than `mss`. -/
def Ikcpcb.Sized (kcp : Ikcpcb) : Prop := ∀ seg ∈ kcp.sndQueue, seg.data.length ≤ kcp.mss

/-- Queueing data keeps segments small. -/
theorem Ikcpcb.Sized.ikcpSend {kcp : Ikcpcb} (sized : kcp.Sized) (buffer : Bytes) (len : Int) :
    (ikcpSend kcp buffer len).2.Sized := by
  have rest {kcp : Ikcpcb} (sized : kcp.Sized) (buffer : Bytes) (len : Nat) :
      (sendRest kcp buffer len).2.Sized := by
    unfold sendRest
    dsimp only
    split
    · exact sized
    · intro seg member
      rcases List.mem_append.1 member with earlier | fragment
      · exact sized seg earlier
      · exact length_data_le_of_mem_sendFragments fragment
  have extend (len : Nat) : (sendExtend kcp buffer len).1.Sized := by
    unfold sendExtend
    split
    · split
      · rename_i old last room
        intro seg member
        rcases List.mem_append.1 member with earlier | extended
        · exact sized seg (List.mem_of_mem_dropLast earlier)
        · rw [List.mem_singleton.1 extended]
          simp only [List.length_append, List.length_take]
          split <;> omega
      · exact sized
    · exact sized
  unfold KcpRs.ikcpSend
  split
  · exact sized
  · split
    · dsimp only
      split
      · exact extend _
      · exact rest (extend _) _ _
    · exact rest sized _ _

end KcpRs
