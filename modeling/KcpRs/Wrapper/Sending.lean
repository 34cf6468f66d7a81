import KcpRs.Engine.Message
import KcpRs.Wrapper.Receiving

/-!
# What `Kcp::send` queues

`ikcp_send` first fills up the last queued segment, in streaming mode, and then cuts what is left
into at most 255 segments (`ikcpSend_eq`). The limit is checked between the two, so a buffer that
is refused may have left bytes behind (`send_allOrNothing`); buffers of at most `max_frame_size`
bytes are never refused (`send_limit`).
-/

namespace KcpRs

open Lib

namespace Ikcpcb

variable {kcp : Ikcpcb} {buffer : Bytes}

/-- The bytes that streaming mode can append to the last queued segment. -/
def tailRoom (kcp : Ikcpcb) : Nat :=
  match kcp.sndQueue.getLast? with
  | some old => if kcp.stream then kcp.mss - old.data.length else 0
  | none => 0

/-- The block with `bytes` appended to the last queued segment. -/
def fillLast (kcp : Ikcpcb) (bytes : Bytes) : Ikcpcb :=
  match kcp.sndQueue.getLast? with
  | some old =>
      { kcp with sndQueue := kcp.sndQueue.dropLast ++ [{ frg := 0, data := old.data ++ bytes }] }
  | none => kcp

/-- What `ikcp_send` appends to the last queued segment of `len` bytes of `buffer`: nothing when
there is no room. -/
def filled (kcp : Ikcpcb) (buffer : Bytes) (len : Nat) : Ikcpcb :=
  if kcp.tailRoom = 0 then kcp else kcp.fillLast (buffer.take (min len kcp.tailRoom))

theorem tailRoom_of_message (message : kcp.stream = false) : kcp.tailRoom = 0 := by
  unfold tailRoom
  split
  · rw [message, if_neg (by decide)]
  · rfl

theorem tailRoom_of_last {old : Seg} (last : kcp.sndQueue.getLast? = some old)
    (stream : kcp.stream) : kcp.tailRoom = kcp.mss - old.data.length := by
  rw [tailRoom, last]
  exact if_pos stream

theorem fillLast_of_last {old : Seg} (last : kcp.sndQueue.getLast? = some old) (bytes : Bytes) :
    kcp.fillLast bytes = { kcp with
      sndQueue := kcp.sndQueue.dropLast ++ [{ frg := 0, data := old.data ++ bytes }] } := by
  rw [fillLast, last]

/-- The merge of streaming mode fills the room there is. -/
theorem sendExtend_eq (stream : kcp.stream) (buffer : Bytes) (len : Nat) :
    sendExtend kcp buffer len =
      (kcp.filled buffer len, buffer.drop (min len kcp.tailRoom), len - kcp.tailRoom) := by
  cases last : kcp.sndQueue.getLast? with
  | none =>
      have room : kcp.tailRoom = 0 := by rw [tailRoom, last]
      simp [sendExtend, last, filled, room]
  | some old =>
      have room := tailRoom_of_last last stream
      unfold sendExtend filled
      rw [last]
      by_cases more : old.data.length < kcp.mss
      · have extend : (if len < kcp.mss - old.data.length then len
            else kcp.mss - old.data.length) = min len kcp.tailRoom := by
          rw [room]
          split <;> omega
        dsimp only
        rw [if_pos more, extend, if_neg (by omega), fillLast_of_last last]
        congr 2
        omega
      · have full : kcp.tailRoom = 0 := by omega
        simp [more, full]

/-- `ikcp_send` with the merge of streaming mode written out. -/
theorem ikcpSend_eq (kcp : Ikcpcb) (buffer : Bytes) (len : Nat) :
    ikcpSend kcp buffer len = if kcp.stream ∧ len ≤ kcp.tailRoom then (0, kcp.filled buffer len)
      else sendRest (kcp.filled buffer len) (buffer.drop (min len kcp.tailRoom))
        (len - kcp.tailRoom) := by
  unfold ikcpSend
  rw [if_neg (by omega), Int.toNat_natCast]
  cases stream : kcp.stream with
  | false =>
      have room := tailRoom_of_message stream
      rw [if_neg (by decide), if_neg (by simp), filled, if_pos room, room]
      simp
  | true =>
      rw [if_pos rfl, sendExtend_eq stream]
      dsimp only
      by_cases whole : len ≤ kcp.tailRoom
      · rw [if_pos (by omega), if_pos ⟨rfl, whole⟩]
      · rw [if_neg (by omega), if_neg (fun fits => whole fits.2)]

/-- Filling up changes the send queue only. -/
theorem filled_eq (kcp : Ikcpcb) (buffer : Bytes) (len : Nat) :
    ∃ queue, kcp.filled buffer len = { kcp with sndQueue := queue } := by
  unfold filled fillLast
  split
  · exact ⟨kcp.sndQueue, rfl⟩
  · split
    · exact ⟨_, rfl⟩
    · exact ⟨kcp.sndQueue, rfl⟩

theorem payloadOf_filled (kcp : Ikcpcb) (buffer : Bytes) (len : Nat) :
    payloadOf (kcp.filled buffer len).sndQueue =
      payloadOf kcp.sndQueue ++ buffer.take (min len kcp.tailRoom) := by
  unfold filled
  split
  · rename_i full
    simp [full]
  · rename_i room
    cases last : kcp.sndQueue.getLast? with
    | none =>
        rw [tailRoom, last] at room
        exact absurd rfl room
    | some old =>
        obtain ⟨earlier, queue⟩ := List.getLast?_eq_some_iff.1 last
        rw [fillLast_of_last last, queue]
        simp [payloadOf]

/-- Nothing is appended to the last segment exactly when it has no room. -/
theorem filled_eq_self_iff {len : Nat} (nonempty : 0 < len) (whole : len ≤ buffer.length) :
    kcp.filled buffer len = kcp ↔ kcp.tailRoom = 0 := by
  constructor
  · intro same
    have bytes := payloadOf_filled kcp buffer len
    rw [same] at bytes
    have none := congrArg List.length (List.self_eq_append_right.1 bytes)
    rw [List.length_take, List.length_nil] at none
    omega
  · exact fun full => if_pos full

/-- A buffer that fits into the last segment and 255 others is queued. -/
theorem ikcpSend_accepts (positive : 0 < kcp.mss) {len : Nat} (whole : len ≤ buffer.length)
    (fits : len ≤ kcp.tailRoom + 255 * kcp.mss) : (ikcpSend kcp buffer len).1 = 0 ∧
      payloadOf (ikcpSend kcp buffer len).2.sndQueue =
        payloadOf kcp.sndQueue ++ buffer.take len := by
  obtain ⟨queue, equal⟩ := kcp.filled_eq buffer len
  have bytes := kcp.payloadOf_filled buffer len
  have mss : (kcp.filled buffer len).mss = kcp.mss := by rw [equal]
  rw [ikcpSend_eq]
  split
  · rename_i inside
    rw [bytes, min_eq_left inside.2]
    exact ⟨rfl, rfl⟩
  · have few := (fragmentCount_le_iff positive (by decide)).2
      (show len - kcp.tailRoom ≤ 255 * kcp.mss by omega)
    rw [sendRest, mss, if_neg (by rw [ikcpWndRcv]; omega)]
    refine ⟨rfl, ?_⟩
    have split : len = min len kcp.tailRoom + (len - kcp.tailRoom) := by omega
    have left : len - kcp.tailRoom ≤ (buffer.drop (min len kcp.tailRoom)).length := by
      rw [List.length_drop]
      omega
    have fragments := @payloadOf_sendFragments_take kcp.mss (kcp.filled buffer len).stream _ _ _
      (le_fragmentCount_mul positive) left
    dsimp only
    conv_rhs => rw [split, List.take_add]
    simp only [payloadOf] at bytes fragments ⊢
    rw [List.flatMap_append, bytes, fragments, List.append_assoc]

/-- A longer one is refused after the last segment has been filled up. -/
theorem ikcpSend_refuses (positive : 0 < kcp.mss) {len : Nat}
    (long : kcp.tailRoom + 255 * kcp.mss < len) :
    ikcpSend kcp buffer len = (-2, kcp.filled buffer len) := by
  obtain ⟨queue, equal⟩ := kcp.filled_eq buffer len
  have mss : (kcp.filled buffer len).mss = kcp.mss := by rw [equal]
  have many : ¬ fragmentCount kcp.mss (len - kcp.tailRoom) ≤ 255 := fun few => by
    have fits := (fragmentCount_le_iff positive (by decide)).1 few
    omega
  rw [ikcpSend_eq, if_neg (by omega), sendRest, mss, if_pos (by rw [ikcpWndRcv]; omega)]

end Ikcpcb

namespace Kcp

variable {kcp : Kcp} {data : Bytes}

/-- `Kcp::send` queues all of `data` behind what is queued and changes nothing else but the
count, or it fails and changes nothing. -/
def AllOrNothing (kcp : Kcp) (data : Bytes) : Prop :=
  ∃ result kcp', kcp.send data = some (result, kcp') ∧
    match result with
    | .ok _ => payloadOf kcp'.cb.sndQueue = payloadOf kcp.cb.sndQueue ++ data ∧
        ∃ queue count, kcp' = { kcp with cb := { kcp.cb with sndQueue := queue, nsndQue := count } }
    | .error _ => kcp' = kcp

/-- What the length of a buffer wraps to. -/
abbrev wrapped (data : Bytes) : Nat := data.length % 2 ^ 32

/-- The length of `data` is a C integer and the last segment has no room or `data` fits into the
room and 255 segments; or the length is negative as a C integer; or the last segment has no room
and what the length wraps to does not fit into 255 segments. -/
def SendsWhole (kcp : Kcp) (data : Bytes) : Prop :=
  data.length < 2 ^ 31 ∧
      (kcp.cb.tailRoom = 0 ∨ data.length ≤ kcp.cb.tailRoom + 255 * kcp.cb.mss) ∨
    2 ^ 31 ≤ wrapped data ∨
    kcp.cb.tailRoom = 0 ∧ 255 * kcp.cb.mss < wrapped data

/-- The length that `Kcp::send` passes on is negative. -/
theorem send_of_negative (nonempty : data ≠ []) (negative : 2 ^ 31 ≤ wrapped data) :
    kcp.send data = some (.error .invalidInput, kcp) := by
  have length : (BitVec.ofNat 32 data.length).toInt < 0 := by
    unfold wrapped at negative
    rw [BitVec.toInt_eq_toNat_cond, BitVec.toNat_ofNat]
    split <;> omega
  rw [send, if_neg nonempty, ikcpSend, if_pos length]
  rfl

/-- The length that `Kcp::send` passes on is what the length wraps to. -/
theorem send_of_nonnegative (nonempty : data ≠ []) (nonnegative : wrapped data < 2 ^ 31) :
    kcp.send data = (sendResult (ikcpSend kcp.cb data (wrapped data)).1).map fun result =>
      (result, { kcp with cb := (ikcpSend kcp.cb data (wrapped data)).2 }) := by
  have length : (BitVec.ofNat 32 data.length).toInt = (wrapped data) := by
    unfold wrapped at nonnegative ⊢
    rw [BitVec.toInt_eq_toNat_cond, BitVec.toNat_ofNat, if_pos (by omega)]
  rw [send, if_neg nonempty, length]

/-- A buffer that is not refused. -/
theorem send_accepts (nonempty : data ≠ []) (positive : 0 < kcp.cb.mss)
    (nonnegative : wrapped data < 2 ^ 31)
    (fits : wrapped data ≤ kcp.cb.tailRoom + 255 * kcp.cb.mss) :
    kcp.send data = some (.ok 0,
      { kcp with cb := (ikcpSend kcp.cb data (wrapped data)).2 }) := by
  have accepted := (Ikcpcb.ikcpSend_accepts positive (Nat.mod_le _ _) fits).1
  rw [send_of_nonnegative nonempty nonnegative, accepted]
  rfl

/-- A buffer that is refused. -/
theorem send_refuses (nonempty : data ≠ []) (positive : 0 < kcp.cb.mss)
    (nonnegative : wrapped data < 2 ^ 31)
    (long : kcp.cb.tailRoom + 255 * kcp.cb.mss < wrapped data) :
    kcp.send data = some (.error .invalidInput,
      { kcp with cb := kcp.cb.filled data (wrapped data) }) := by
  rw [send_of_nonnegative nonempty nonnegative, Ikcpcb.ikcpSend_refuses positive long]
  rfl

/-- A call of `Kcp::send` is all or nothing exactly when its length is passed on as it is and
fits, or when the call is refused before it has filled up the last segment. -/
theorem send_allOrNothing {pinned : Pinned} (reach : kcpMachine.Reachable pinned) (nonempty : data ≠ []) :
    pinned.kcp.AllOrNothing data ↔ pinned.kcp.SendsWhole data := by
  have positive := (reach_ready reach).positive
  have length := List.length_pos_iff.2 nonempty
  have wraps : wrapped data = data.length % 2 ^ 32 := rfl
  generalize pinned.kcp = kcp at positive
  unfold AllOrNothing SendsWhole
  by_cases nonnegative : wrapped data < 2 ^ 31
  · by_cases fits : wrapped data ≤ kcp.cb.tailRoom + 255 * kcp.cb.mss
    · obtain ⟨_, bytes⟩ := Ikcpcb.ikcpSend_accepts positive (Nat.mod_le _ _) fits
      obtain ⟨queue, count, equal⟩ := ikcpSend_queue kcp.cb data (wrapped data)
      rw [send_accepts nonempty positive nonnegative fits]
      constructor
      · rintro ⟨result, kcp', sent, outcome⟩
        cases sent
        have same := List.append_cancel_left (bytes.symm.trans outcome.1)
        have short : data.length ≤ wrapped data := (List.take_eq_self_iff data).1 same
        omega
      · intro condition
        have short : data.length ≤ wrapped data := by omega
        rw [List.take_of_length_le short] at bytes
        exact ⟨_, _, rfl, bytes, queue, count, by rw [equal]⟩
    · rw [Nat.not_le] at fits
      rw [send_refuses nonempty positive nonnegative fits]
      have unchanged := @Ikcpcb.filled_eq_self_iff kcp.cb data (wrapped data) (by omega)
        (Nat.mod_le _ _)
      constructor
      · rintro ⟨result, kcp', sent, outcome⟩
        cases sent
        have full := unchanged.1 (congrArg Kcp.cb outcome)
        omega
      · intro condition
        have full : kcp.cb.tailRoom = 0 := by omega
        exact ⟨_, _, rfl, by rw [unchanged.2 full]⟩
  · rw [Nat.not_lt] at nonnegative
    rw [send_of_negative nonempty nonnegative]
    exact iff_of_true ⟨_, _, rfl, rfl⟩ (.inr (.inl nonnegative))

/-- A byte is appended to a segment that has room. -/
theorem send_allOrNothing_merged : ∃ pinned, kcpMachine.Reachable pinned ∧
    payloadOf pinned.kcp.cb.sndQueue = [1, 2] ∧ pinned.kcp.AllOrNothing [3] := by
  have run : (kcpMachine.exec (fun _ _ => true) (.initialized 1 0)
      [.setMtu 50 true, .setStream true, .send [1, 2]]).map (fun pinned =>
        (pinned.kcp.cb.tailRoom, payloadOf pinned.kcp.cb.sndQueue)) = some (24, [1, 2]) := by
    decide +kernel
  obtain ⟨pinned, executed, view⟩ := Option.map_eq_some_iff.1 run
  obtain ⟨room, queued⟩ := Prod.mk.inj view
  have reach : kcpMachine.Reachable pinned :=
    Machine.reach_of_exec (fun _ _ _ => trivial) (.initial ⟨1, 0, rfl⟩) executed
  refine ⟨pinned, reach, queued, (send_allOrNothing reach (List.cons_ne_nil _ _)).2 ?_⟩
  exact .inl ⟨by decide, .inr (by rw [room]; exact (by decide : 1 ≤ 24).trans (Nat.le_add_right _ _))⟩

/-- A frame that is refused leaves its first 25 bytes behind. -/
theorem send_leaves : ¬ ∀ pinned data, kcpMachine.Reachable pinned → data ≠ [] →
    pinned.kcp.AllOrNothing data := by
  intro whole
  have run : (kcpMachine.exec (fun _ _ => true) (.initialized 1 0)
      [.setMtu 50 true, .setStream true, .send [1]]).map (fun pinned =>
        (pinned.kcp.cb.tailRoom, pinned.kcp.cb.mss)) = some (25, 26) := by decide +kernel
  obtain ⟨pinned, executed, view⟩ := Option.map_eq_some_iff.1 run
  obtain ⟨room, mss⟩ := Prod.mk.inj view
  have reach : kcpMachine.Reachable pinned :=
    Machine.reach_of_exec (fun _ _ _ => trivial) (.initial ⟨1, 0, rfl⟩) executed
  have length : (List.replicate 6656 (0 : Byte)).length = 6656 := List.length_replicate
  have nonempty : List.replicate 6656 (0 : Byte) ≠ [] := List.ne_nil_of_length_pos (by omega)
  have wraps : wrapped (List.replicate 6656 (0 : Byte)) = 6656 := by
    rw [wrapped, length]
    rfl
  obtain ⟨result, kcp', sent, outcome⟩ := whole pinned _ reach nonempty
  rw [send_refuses nonempty (by omega) (by omega) (by omega)] at sent
  cases sent
  have full := (Ikcpcb.filled_eq_self_iff (by omega) (Nat.mod_le _ _)).1 (congrArg Kcp.cb outcome)
  omega

/-! ## The limit -/

/-- `data` has been queued: its first bytes in the last segment, as far as that has room, and the
others in the new segments `fresh`. -/
structure Queued (kcp kcp' : Kcp) (data : Bytes) (fresh : List Seg) : Prop where
  queue : kcp'.cb.sndQueue = (kcp.cb.filled data data.length).sndQueue ++ fresh
  bytes : data.take kcp.cb.tailRoom ++ payloadOf fresh = data
  sized : ∀ seg ∈ fresh, 1 ≤ seg.data.length ∧ seg.data.length ≤ kcp.cb.mss
  message : kcp.cb.stream = false → kcp'.cb.sndQueue = kcp.cb.sndQueue ++ fresh ∧
    payloadOf fresh = data ∧ fresh.length ≤ 255 ∧
    fresh.map (fun seg => seg.frg.toNat) = (List.range fresh.length).reverse

end Kcp

/-- Fragments of message mode count down to zero. -/
theorem frg_sendFragments {mss count : Nat} (few : count ≤ 256) (buffer : Bytes) (len : Nat) :
    (sendFragments mss false count buffer len).map (fun seg => seg.frg.toNat) =
      (List.range count).reverse := by
  induction count generalizing buffer len with
  | zero => rfl
  | succ count inductionHypothesis =>
      rw [sendFragments, List.map_cons, inductionHypothesis (by omega), List.range_succ,
        List.reverse_append, List.reverse_singleton, List.singleton_append]
      simp only [Bool.false_eq_true, if_false, BitVec.toNat_ofNat]
      rw [Nat.mod_eq_of_lt (by omega)]

/-- Fragments that count down to zero are taken as one message, whatever follows them. -/
theorem takeMessage_of_countdown {fresh segs : List Seg} {count : Nat}
    (numbers : fresh.map (fun seg => seg.frg.toNat) = (List.range (count + 1)).reverse)
    (queued : fresh.map Seg.payload <+: segs.map Seg.payload) :
    (takeMessage segs).1.map Seg.payload = fresh.map Seg.payload := by
  induction count generalizing fresh segs with
  | zero =>
      obtain ⟨last, single, number⟩ := List.map_eq_singleton_iff.1 numbers
      subst single
      cases segs with
      | nil => simp at queued
      | cons seg rest =>
          rw [List.map_cons, List.map_cons, List.cons_prefix_cons] at queued
          have zero : seg.frg = 0 :=
            BitVec.eq_of_toNat_eq ((congrArg (fun payload => payload.frg.toNat) queued.1).symm.trans number)
          rw [takeMessage, if_pos zero, List.map_singleton, List.map_singleton, queued.1]
  | succ count inductionHypothesis =>
      rw [List.range_succ, List.reverse_append, List.reverse_singleton, List.singleton_append] at numbers
      obtain ⟨first, later, rfl, number, numbers⟩ := List.map_eq_cons_iff.1 numbers
      cases segs with
      | nil => simp at queued
      | cons seg rest =>
          rw [List.map_cons, List.map_cons, List.cons_prefix_cons] at queued
          have same : seg.frg = first.frg := congrArg Payload.frg queued.1.symm
          have several : seg.frg ≠ 0 := by
            rintro zero
            rw [← same, zero] at number
            simp at number
          rw [takeMessage, if_neg several, List.map_cons, List.map_cons, queued.1,
            inductionHypothesis numbers queued.2]

namespace Kcp

variable {kcp kcp' : Kcp} {data : Bytes} {fresh : List Seg}

/-- What a call of `ikcp_send` that is not refused makes of the send queue. -/
theorem queued_ikcpSend (positive : 0 < kcp.cb.mss) (nonempty : data ≠ [])
    (fits : data.length ≤ kcp.cb.tailRoom + 255 * kcp.cb.mss) : ∃ fresh,
      kcp.Queued { kcp with cb := (ikcpSend kcp.cb data data.length).2 } data fresh := by
  have length := List.length_pos_iff.2 nonempty
  obtain ⟨queue, equal⟩ := kcp.cb.filled_eq data data.length
  have mss : (kcp.cb.filled data data.length).mss = kcp.cb.mss := by rw [equal]
  have mode : (kcp.cb.filled data data.length).stream = kcp.cb.stream := by rw [equal]
  rw [Ikcpcb.ikcpSend_eq]
  by_cases inside : kcp.cb.stream ∧ data.length ≤ kcp.cb.tailRoom
  · rw [if_pos inside]
    refine ⟨[], (List.append_nil _).symm, ?_, by simp, fun message => ?_⟩
    · rw [List.take_of_length_le inside.2]
      exact List.append_nil _
    · rw [message] at inside
      exact absurd inside.1 (by decide)
  · have more : kcp.cb.tailRoom < data.length := by
      cases stream : kcp.cb.stream with
      | false =>
          rw [Ikcpcb.tailRoom_of_message stream]
          exact length
      | true => exact Nat.lt_of_not_le fun less => inside ⟨stream, less⟩
    have left : (data.drop kcp.cb.tailRoom).length = data.length - kcp.cb.tailRoom := List.length_drop
    have few : fragmentCount kcp.cb.mss (data.drop kcp.cb.tailRoom).length ≤ 255 :=
      (fragmentCount_le_iff positive (by decide)).2 (by omega)
    rw [if_neg inside, min_eq_right more.le, ← left, sendRest, mss,
      if_neg (by rw [ikcpWndRcv]; omega), mode]
    have joined := payloadOf_sendFragments kcp.cb.mss kcp.cb.stream
      (fragmentCount kcp.cb.mss (data.drop kcp.cb.tailRoom).length) (data.drop kcp.cb.tailRoom)
      (le_fragmentCount_mul positive)
    refine ⟨_, rfl, by rw [joined, List.take_append_drop], fun seg member => ⟨?_, ?_⟩,
      fun message => ?_⟩
    · have needed := fragmentCount_pred_mul_lt positive
        (show 0 < (data.drop kcp.cb.tailRoom).length by omega)
      exact List.length_pos_iff.2 (data_ne_nil_of_mem_sendFragments positive needed member)
    · exact length_data_le_of_mem_sendFragments member
    · have room := Ikcpcb.tailRoom_of_message message
      refine ⟨?_, by rw [joined, room, List.drop_zero], by rw [length_sendFragments]; exact few, ?_⟩
      · dsimp only
        rw [Ikcpcb.filled, if_pos room]
      · rw [length_sendFragments, message, frg_sendFragments (by omega)]

/-- A receive queue that starts with the fragments of a frame gives the frame back. -/
theorem recvBytes_of_countdown (counted : kcp.cb.Counted) (bytes : payloadOf fresh = data)
    (nonempty : data ≠ []) (short : data.length < 2 ^ 31)
    (numbers : fresh.map (fun seg => seg.frg.toNat) = (List.range fresh.length).reverse)
    (queued : fresh.map Seg.payload <+: kcp.cb.rcvQueue.map Seg.payload) :
    ∃ next, kcp.recvBytes = some (some data, next) := by
  obtain ⟨first, later, rfl⟩ : ∃ first later, fresh = first :: later := by
    cases fresh with
    | nil => exact absurd bytes.symm nonempty
    | cons first later => exact ⟨first, later, rfl⟩
  have taken := takeMessage_of_countdown numbers queued
  have message : payloadOf (takeMessage kcp.cb.rcvQueue).1 = data := by
    rw [← bytesOf_map_payload, taken, bytesOf_map_payload, bytes]
  have length := List.length_pos_iff.2 nonempty
  have complete : kcp.cb.HeadComplete := by
    have enough := queued.length_le
    rw [List.length_map, List.length_map, ← counted.rcvQueue, List.length_cons] at enough
    rw [List.length_cons, List.range_succ, List.reverse_append, List.reverse_singleton,
      List.singleton_append, List.map_cons, List.cons.injEq] at numbers
    cases queue : kcp.cb.rcvQueue with
    | nil => simp [queue] at queued
    | cons seg rest =>
        rw [queue, List.map_cons, List.map_cons, List.cons_prefix_cons] at queued
        have same : seg.frg = first.frg := congrArg Payload.frg queued.1.symm
        exact ⟨seg, by rw [queue]; rfl, .inr (by rw [same, numbers.1]; exact enough)⟩
  have size : kcp.cb.headLength = data.length := congrArg List.length message
  have positive := Ikcpcb.ikcpPeeksize_positive_iff.2 ⟨complete, by rw [size]; omega⟩
  have received := recvBytes_of_positive positive (by omega)
  rw [message] at received
  exact ⟨_, received⟩

/-- `max_frame_size` of an mtu for which it does not overflow. -/
theorem toNat_maxFrameSize {mtu : U32} (least : 50 ≤ mtu.toNat)
    (bounded : (mtu.toNat - ikcpOverhead) * 255 < 2 ^ 31) :
    (maxFrameSize mtu).toNat = (mtu.toNat - ikcpOverhead) * 255 := by
  have header : (24 : U32).toNat = ikcpOverhead := rfl
  have below : (24 : U32) ≤ mtu := BitVec.le_def.2 (by rw [header, ikcpOverhead]; omega)
  rw [maxFrameSize, BitVec.toNat_mul, BitVec.toNat_sub_of_le below, header,
    show (255 : U32).toNat = 255 from rfl, Nat.mod_eq_of_lt (by omega)]

/-- `max_frame_size` is the limit of `Kcp::send`. In message mode a buffer is accepted exactly when
it is not longer, in streaming mode whenever it is not longer; a buffer that is accepted is
queued in segments of `1` to `mss` bytes, and in message mode every receiver whose queue starts
with them takes it as one frame. -/
theorem send_limit {pinned : Pinned} (reach : kcpMachine.Reachable pinned) {mtu : U32}
    (current : pinned.kcp.cb.mtu = mtu.toNat) (bounded : (mtu.toNat - ikcpOverhead) * 255 < 2 ^ 31)
    (nonempty : data ≠ []) (short : data.length ≤ 2 ^ 31 - 1) :
    ∃ result kcp', pinned.kcp.send data = some (result, kcp') ∧
      (pinned.kcp.cb.stream = false →
        (result.isOk ↔ data.length ≤ (maxFrameSize mtu).toNat)) ∧
      (pinned.kcp.cb.stream = true → data.length ≤ (maxFrameSize mtu).toNat → result.isOk) ∧
      (result.isOk → ∃ fresh, pinned.kcp.Queued kcp' data fresh ∧
        (pinned.kcp.cb.stream = false → ∀ receiver, kcpMachine.Reachable receiver →
          fresh.map Seg.payload <+: receiver.kcp.cb.rcvQueue.map Seg.payload →
            ∃ next, receiver.kcp.recvBytes = some (some data, next))) := by
  have ready := reach_ready reach
  have positive := ready.positive
  have limit : (maxFrameSize mtu).toNat = 255 * pinned.kcp.cb.mss := by
    rw [ready.mss, current, toNat_maxFrameSize (current ▸ ready.least) bounded, Nat.mul_comm]
  have wraps : wrapped data = data.length := Nat.mod_eq_of_lt (by omega)
  rw [limit]
  by_cases fits : data.length ≤ pinned.kcp.cb.tailRoom + 255 * pinned.kcp.cb.mss
  · refine ⟨.ok 0, _, send_accepts nonempty positive (by omega) (by rwa [wraps]), fun message => ?_,
      fun _ _ => rfl, fun _ => ?_⟩
    · rw [Ikcpcb.tailRoom_of_message message] at fits
      exact iff_of_true rfl (by omega)
    · obtain ⟨fresh, queued⟩ := queued_ikcpSend positive nonempty fits
      rw [wraps]
      refine ⟨fresh, queued, fun message receiver reach' arrived => ?_⟩
      obtain ⟨_, bytes, _, numbers⟩ := queued.message message
      exact recvBytes_of_countdown (reach_ready reach').counted bytes nonempty (by omega) numbers
        arrived
  · rw [Nat.not_le] at fits
    refine ⟨_, _, send_refuses nonempty positive (by omega) (by rwa [wraps]), fun _ => ?_,
      fun _ less => by omega, nofun⟩
    exact iff_of_false (by simp [Except.isOk, Except.toBool]) (by omega)

/-- A frame of 255 full segments, in message mode. -/
theorem send_limit_reached : ∃ pinned, kcpMachine.Reachable pinned ∧
    (List.replicate 6630 (7 : Byte)).length = (maxFrameSize 50).toNat ∧
    ∃ result kcp', pinned.kcp.send (List.replicate 6630 7) = some (result, kcp') ∧ result.isOk := by
  have run : (kcpMachine.exec (fun _ _ => true) (.initialized 1 0) [.setMtu 50 true]).map
      (fun pinned => (pinned.kcp.cb.mtu, pinned.kcp.cb.stream)) = some (50, false) := by
    decide +kernel
  obtain ⟨pinned, executed, view⟩ := Option.map_eq_some_iff.1 run
  obtain ⟨mtu, message⟩ := Prod.mk.inj view
  have reach : kcpMachine.Reachable pinned :=
    Machine.reach_of_exec (fun _ _ _ => trivial) (.initial ⟨1, 0, rfl⟩) executed
  have length : (List.replicate 6630 (7 : Byte)).length = 6630 := List.length_replicate
  have limit : (maxFrameSize 50).toNat = 6630 := by decide
  obtain ⟨result, kcp', sent, accepted, _⟩ := @send_limit (List.replicate 6630 7) _ reach 50 mtu
    (by decide) (List.ne_nil_of_length_pos (by omega)) (by omega)
  exact ⟨pinned, reach, length.trans limit.symm, result, kcp', sent,
    (accepted message).2 (length.trans limit.symm).le⟩

end Kcp

end KcpRs
