import KcpRs.Engine.Reassembly
import KcpRs.Stream.Memory

/-!
# The memory of the receive side

Nothing is assumed of the peer: it may ignore the window that it is told, repeat numbers and skip
them. The receive queue is bounded because nothing is moved into it when it is full, and the receive
buffer because its numbers are distinct and lie in the window behind `rcv_nxt` (`Windowed`). What
could be moved to the queue has been moved after every call (`Stored`).
-/

namespace KcpRs

open Lib

namespace Ikcpcb

/-- The receive queue is not too long, and the receive buffer is a part of the window, in order. -/
structure Windowed (kcp : Ikcpcb) : Prop where
  queue : kcp.nrcvQue ≤ kcp.rcvWnd
  near : ∀ seg ∈ kcp.rcvBuf, ahead kcp.rcvNxt32 seg.sn < kcp.rcvWnd
  sorted : kcp.rcvBuf.Pairwise fun a b => ahead kcp.rcvNxt32 a.sn < ahead kcp.rcvNxt32 b.sn

/-- The next segment is in the buffer only if the queue is full. -/
structure Stored (kcp : Ikcpcb) : Prop extends Windowed kcp where
  moved : ∀ seg ∈ kcp.rcvBuf, seg.sn = kcp.rcvNxt32 → kcp.nrcvQue = kcp.rcvWnd

variable {kcp kcp' : Ikcpcb} {seg : Seg} {rest : List Seg}

/-- Only the receive side matters. -/
theorem Stored.congr (stored : kcp.Stored) (same : kcp'.receiver = kcp.receiver)
    (window : kcp'.rcvWnd = kcp.rcvWnd) : kcp'.Stored := by
  simp only [receiver, Receiver.mk.injEq] at same
  obtain ⟨_, count, buffer, _, next⟩ := same
  have next32 : kcp'.rcvNxt32 = kcp.rcvNxt32 := by rw [rcvNxt32, rcvNxt32, next]
  constructor
  · constructor
    · rw [count, window]
      exact stored.queue
    · rw [buffer, next32, window]
      exact stored.near
    · rw [buffer, next32]
      exact stored.sorted
  · rw [buffer, next32, count, window]
    exact stored.moved

namespace Windowed

/-- The numbers of the buffer are distinct and lie in the window. -/
theorem length_le (windowed : kcp.Windowed) : kcp.rcvBuf.length ≤ kcp.rcvWnd := by
  have window : Window (fun seg number => number = ahead kcp.rcvNxt32 seg.sn) 0 kcp.rcvWnd
      kcp.rcvBuf := by
    refine ⟨kcp.rcvBuf.map fun seg => ahead kcp.rcvNxt32 seg.sn, ?_, ?_, ?_⟩
    · exact List.forall₂_map_right_iff.2 (List.forall₂_same.2 fun _ _ => rfl)
    · exact List.pairwise_map.2 windowed.sorted
    · intro number member
      obtain ⟨seg, inside, rfl⟩ := List.mem_map.1 member
      exact ⟨Nat.zero_le _, windowed.near seg inside⟩
  simpa using window.length_le

theorem moveTake (windowed : kcp.Windowed) (buffered : kcp.rcvBuf = seg :: rest)
    (available : seg.sn = kcp.rcvNxt32) (room : kcp.nrcvQue < kcp.rcvWnd) :
    (moveTake kcp seg rest).Windowed := by
  obtain ⟨_, near, sorted⟩ := windowed
  rw [buffered] at near sorted
  rw [List.forall_mem_cons] at near
  rw [List.pairwise_cons] at sorted
  have next32 : (KcpRs.moveTake kcp seg rest).rcvNxt32 = kcp.rcvNxt32 + 1 := by
    simp only [KcpRs.moveTake, rcvNxt32, BitVec.ofNat_add]
    rfl
  have behind (other : Seg) (member : other ∈ rest) :
      ahead (kcp.rcvNxt32 + 1) other.sn = ahead kcp.rcvNxt32 other.sn - 1 ∧
        0 < ahead kcp.rcvNxt32 other.sn := by
    have positive := sorted.1 other member
    rw [available, ahead_self] at positive
    exact ⟨ahead_succ positive, positive⟩
  constructor
  · exact room
  · intro other member
    rw [next32, (behind other member).1]
    exact (Nat.sub_le _ _).trans_lt (near.2 other member)
  · rw [next32]
    refine sorted.2.imp_of_mem fun left right less => ?_
    have one := behind _ left
    have two := behind _ right
    omega

/-- All segments that are available are moved. -/
theorem moveReady {fuel : Nat} (windowed : kcp.Windowed) (enough : kcp.rcvBuf.length ≤ fuel) :
    (moveReady fuel kcp).Stored := by
  induction fuel generalizing kcp with
  | zero =>
      have empty : kcp.rcvBuf = [] := List.eq_nil_of_length_eq_zero (by omega)
      refine ⟨windowed, fun seg member => ?_⟩
      rw [KcpRs.moveReady, empty] at member
      cases member
  | succ fuel inductionHypothesis =>
      unfold KcpRs.moveReady
      split
      · rename_i empty
        refine ⟨windowed, fun seg member => ?_⟩
        rw [empty] at member
        cases member
      · rename_i seg rest buffered
        rw [buffered, List.length_cons] at enough
        split
        · rename_i available
          exact inductionHypothesis (windowed.moveTake buffered available.1 available.2)
            (Nat.le_of_succ_le_succ enough)
        · rename_i stays
          rw [not_and, Nat.not_lt] at stays
          have full (next : seg.sn = kcp.rcvNxt32) : kcp.nrcvQue = kcp.rcvWnd :=
            le_antisymm windowed.queue (stays next)
          refine ⟨windowed, fun other member same => ?_⟩
          rw [buffered] at member
          rcases List.mem_cons.1 member with rfl | later
          · exact full same
          · -- The first segment of the buffer is the least, so no other one is the next.
            have sorted := windowed.sorted
            rw [buffered, List.pairwise_cons] at sorted
            have less := sorted.1 other later
            rw [same, ahead_self] at less
            cases less

theorem moveAvailable (windowed : kcp.Windowed) : (moveAvailable kcp).Stored :=
  windowed.moveReady le_rfl

/-- A segment of the window joins the buffer. -/
theorem insert {newseg : Seg} {inserted : List Seg} (windowed : kcp.Windowed)
    (width : kcp.rcvWnd < 2 ^ 31) (near : ahead kcp.rcvNxt32 newseg.sn < kcp.rcvWnd)
    (insertion : insertFromBack newseg kcp.rcvBuf.reverse = some inserted) (nrcvBuf : Nat) :
    { kcp with rcvBuf := inserted.reverse, nrcvBuf }.Windowed := by
  have perm := perm_insertFromBack insertion
  have ordered := pairwise_insertFromBack (near.trans width)
    (fun seg member => (windowed.near seg (List.mem_reverse.1 member)).trans width)
    (List.pairwise_reverse.2 windowed.sorted) insertion
  refine ⟨windowed.queue, fun seg member => ?_, List.pairwise_reverse.2 ordered⟩
  rcases List.mem_cons.1 (perm.mem_iff.1 (List.mem_reverse.1 member)) with rfl | old
  · exact near
  · exact windowed.near seg (List.mem_reverse.1 old)

end Windowed

/-- A number that `ikcp_parse_data` does not turn away lies in the window. -/
theorem ahead_lt_of_admitted {base sn : U32} {width : Nat} (small : width < 2 ^ 31)
    (inside : itimediff sn (base + BitVec.ofNat 32 width) < 0)
    (forward : 0 ≤ itimediff sn base) : ahead base sn < width := by
  have last : ahead base (base + BitVec.ofNat 32 width) = width := by
    rw [ahead, add_sub_cancel_left, BitVec.toNat_ofNat, Nat.mod_eq_of_lt (by omega)]
  have distance : itimediff sn (base + BitVec.ofNat 32 width) =
      (ahead base sn : Int) - ahead base (base + BitVec.ofNat 32 width) :=
    itimediff_eq_ahead (ahead_lt_of_itimediff forward) (by omega)
  omega

theorem Stored.ikcpParseData (stored : kcp.Stored) (width : kcp.rcvWnd < 2 ^ 31) (newseg : Seg) :
    (ikcpParseData kcp newseg).Stored := by
  unfold KcpRs.ikcpParseData
  split
  · exact stored
  · rename_i admitted
    rw [not_or, Int.not_le, Int.not_lt] at admitted
    have near := ahead_lt_of_admitted width admitted.1 admitted.2
    split
    · rename_i inserted insertion
      exact (stored.insert width near insertion _).moveAvailable
    · exact stored.moveAvailable

theorem Stored.inputPush (stored : kcp.Stored) (width : kcp.rcvWnd < 2 ^ 31) (head : Head)
    (data : Bytes) : (inputPush kcp head data).Stored := by
  unfold KcpRs.inputPush
  dsimp only
  have noted : (ikcpAckPush kcp head.sn head.ts).Stored := stored.congr rfl rfl
  split
  · split
    · exact noted.ikcpParseData width _
    · exact noted
  · exact stored

theorem Stored.ikcpInput (stored : kcp.Stored) (width : kcp.rcvWnd < 2 ^ 31) (data : Bytes) :
    (ikcpInput kcp data).2.Stored := by
  have stable : InputStable (fun block => block.Stored ∧ block.rcvWnd = kcp.rcvWnd)
      (accepted kcp.conv data.length data) := by
    constructor
    case push =>
      intro segment _ _ block holds
      obtain ⟨_, equal⟩ := inputPush_eq block segment.1 segment.2
      refine ⟨holds.1.inputPush (holds.2.trans_lt width) _ _, ?_⟩
      rw [equal]
      exact holds.2
    case shrink =>
      intro block holds
      unfold ikcpShrinkBuf
      split <;> exact ⟨holds.1.congr rfl rfl, holds.2⟩
    case ack =>
      intro segment _ _ block holds
      unfold ikcpParseAck
      split
      · exact holds
      · exact ⟨holds.1.congr rfl rfl, holds.2⟩
    case fastack =>
      intro block sn holds
      unfold ikcpParseFastack
      split
      · exact holds
      · exact ⟨holds.1.congr rfl rfl, holds.2⟩
    all_goals
      intros
      rename_i holds
      exact ⟨holds.1.congr rfl rfl, holds.2⟩
  exact (stable.ikcpInput ⟨stored, rfl⟩).1

/-- A message leaves the queue and what has become available is moved. -/
theorem Stored.recvMoved (stored : kcp.Stored) : (recvMoved kcp false).Stored := by
  have merged : (recvMerged kcp false).Windowed :=
    ⟨(Nat.sub_le _ _).trans stored.queue, stored.near, stored.sorted⟩
  have moved := merged.moveAvailable
  unfold KcpRs.recvMoved
  dsimp only
  split
  · exact moved.congr rfl rfl
  · exact moved

theorem engineStable_stored : EngineStable fun kcp => kcp.rcvWnd < 2 ^ 31 → kcp.Stored := by
  have kept (kcp kcp' : Ikcpcb) (same : kcp'.receiver = kcp.receiver)
      (settings : kcp'.settings = kcp.settings) (holds : kcp.rcvWnd < 2 ^ 31 → kcp.Stored)
      (width : kcp'.rcvWnd < 2 ^ 31) : kcp'.Stored := by
    have window : kcp'.rcvWnd = kcp.rcvWnd := congrArg Settings.rcvWnd settings
    exact (holds (window ▸ width)).congr same window
  constructor
  case update => exact fun kcp now => kept _ _ (receiver_ikcpUpdate kcp now) (settings_ikcpUpdate kcp now)
  case flush => exact fun kcp => kept _ _ (receiver_ikcpFlush kcp) (settings_ikcpFlush kcp)
  case send =>
    intro kcp data len holds
    obtain ⟨queue, count, equal⟩ := ikcpSend_queue kcp data len
    rw [equal]
    intro width
    exact (holds width).congr rfl rfl
  case input =>
    intro kcp data holds width
    have window : (KcpRs.ikcpInput kcp data).2.rcvWnd = kcp.rcvWnd :=
      congrArg Settings.rcvWnd (settings_ikcpInput kcp data)
    rw [window] at width
    exact (holds width).ikcpInput width data
  case recv =>
    intro kcp holds width
    obtain ⟨_, equal⟩ := recvMoved_eq kcp false
    have window : (KcpRs.recvMoved kcp false).rcvWnd = kcp.rcvWnd := by
      rw [equal]
      rfl
    rw [window] at width
    exact (holds width).recvMoved
  case nodelay =>
    intro kcp _ _ _ _ holds width
    exact (holds width).congr rfl rfl
  case conv =>
    intro kcp _ holds width
    exact (holds width).congr rfl rfl

end Ikcpcb

/-- Receive-side memory is bounded, whatever the peer sends. In every reachable task both counters
are the lengths of their queues and at most the receive window, the buffer holds distinct numbers of
the window from `rcv_nxt` on in their order, and the next number is in it only while the queue is
full. -/
theorem receive_side_bounded (config : Config) {t : Task}
    (reach : (taskMachine config).Reachable t) :
    let kcp := t.kcp.cb
    kcp.rcvWnd = config.receiveWindow ∧ kcp.nrcvQue = kcp.rcvQueue.length ∧
      kcp.nrcvBuf = kcp.rcvBuf.length ∧ kcp.nrcvQue ≤ kcp.rcvWnd ∧ kcp.nrcvBuf ≤ kcp.rcvWnd ∧
      (∀ seg ∈ kcp.rcvBuf, ahead kcp.rcvNxt32 seg.sn < kcp.rcvWnd) ∧
      (kcp.rcvBuf.Pairwise fun a b => ahead kcp.rcvNxt32 a.sn < ahead kcp.rcvNxt32 b.sn) ∧
      ∀ seg ∈ kcp.rcvBuf, seg.sn = kcp.rcvNxt32 → kcp.nrcvQue = kcp.rcvWnd := by
  intro kcp
  have window : kcp.rcvWnd = config.receiveWindow := reach_rcvWnd reach
  have counted : kcp.Counted := reach_counted reach
  have stored : kcp.Stored := by
    refine Ikcpcb.engineStable_stored.reach (fun kcp empty _ _ _ => ?_) reach
      (window.trans_lt (receiveWindow_lt config))
    refine ⟨⟨?_, ?_, ?_⟩, ?_⟩
    · rw [empty.counted.rcvQueue, empty.rcvQueue]
      exact Nat.zero_le _
    all_goals
      rw [empty.rcvBuf]
      simp
  have buffer : kcp.nrcvBuf ≤ kcp.rcvWnd := by
    rw [counted.rcvBuf]
    exact stored.length_le
  exact ⟨window, counted.rcvQueue, counted.rcvBuf, stored.queue, buffer, stored.near, stored.sorted,
    stored.moved⟩

/-- A client that has been sent two segments behind a gap, in the wrong order. -/
theorem receive_side_bounded_gap : ∃ t, (taskMachine sampleConfig).Reachable t ∧
    t.kcp.cb.nrcvBuf = 2 ∧ t.kcp.cb.nrcvBuf ≤ t.kcp.cb.rcvWnd := by
  have run : (clientRun sampleConfig [7] (fun _ => 0) (fun _ _ => true) [.drain .sent, .tau,
      .packet (encodePacket [pushSeg 1 2 1 [8], pushSeg 1 1 1 [7]]), .noPacket]).map
        (fun t => decide (t.kcp.cb.nrcvBuf = 2)) = some true := by decide +kernel
  obtain ⟨t, executed, two⟩ := Option.map_eq_some_iff.1 run
  have reach : (taskMachine sampleConfig).Reachable t :=
    reach_of_clientRun (fun _ _ _ => trivial) rfl executed
  obtain ⟨_, _, _, _, buffer, _⟩ := receive_side_bounded sampleConfig reach
  exact ⟨t, reach, of_decide_eq_true two, buffer⟩

end KcpRs
