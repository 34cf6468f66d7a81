import KcpRs.Engine.Arrival

/-!
# What a new receiver makes of a packet

Nothing is assumed of the packet: numbers may repeat, leave gaps, go backwards or lie beyond the
window. In the receive queue of a block that has received nothing, `ikcp_input` puts for each
number from zero on the first data segment with it, up to the first number without one or the
end of the window (`rcvQueue_ikcpInput`).
-/

namespace KcpRs

open Lib

/-- The first data segment with the number `sn`. -/
def firstPush (segments : List (Head × Bytes)) (sn : U32) : Option Seg :=
  (segments.find? fun segment => segment.1.cmd = ikcpCmdPush && segment.1.sn = sn).map
    fun segment => segment.1.segment segment.2

/-- The first data segments with `number` and the numbers after it, at most `room` of them. -/
def assembled (segments : List (Head × Bytes)) : Nat → Nat → List Seg
  | 0, _ => []
  | room + 1, number =>
      match firstPush segments (BitVec.ofNat 32 number) with
      | none => []
      | some seg => seg :: assembled segments room (number + 1)

/-- How far a number is ahead of `base`. -/
def ahead (base sn : U32) : Nat := (sn - base).toNat

section Ahead

variable {base a b : U32}

theorem ahead_inj (same : ahead base a = ahead base b) : a = b := by
  have equal : a - base = b - base := BitVec.eq_of_toNat_eq same
  exact sub_left_injective equal

/-- Numbers less than half the circle ahead are compared as they should be. -/
theorem itimediff_eq_ahead (near : ahead base a < 2 ^ 31) (near' : ahead base b < 2 ^ 31) :
    itimediff a b = (ahead base a : Int) - ahead base b := by
  have difference : a - b = BitVec.ofNat 32 (ahead base a) - BitVec.ofNat 32 (ahead base b) := by
    simp only [ahead, BitVec.ofNat_toNat, BitVec.setWidth_eq]
    exact (sub_sub_sub_cancel_right a b base).symm
  rw [itimediff, serialDiff, difference]
  exact serialDiff_of_near (by decide) (by simp only [Nat.reduceSub]; omega)
    (by simp only [Nat.reduceSub]; omega)

/-- A number that is not behind is less than half the circle ahead. -/
theorem ahead_lt_of_itimediff (forward : 0 ≤ itimediff a base) : ahead base a < 2 ^ 31 := by
  rw [itimediff, serialDiff, BitVec.toInt_eq_toNat_cond] at forward
  unfold ahead
  split at forward <;> omega

theorem ahead_self (base : U32) : ahead base base = 0 := by simp [ahead]

/-- The base moves up by one. -/
theorem ahead_succ (positive : 0 < ahead base a) : ahead (base + 1) a = ahead base a - 1 := by
  unfold ahead at positive ⊢
  have step : a - (base + 1) = a - base - 1 := (sub_sub a base 1).symm
  have bound := (a - base).isLt
  rw [step, BitVec.toNat_sub, show (1 : U32).toNat = 1 from rfl]
  omega

end Ahead

/-- The walk of `ikcp_parse_data` keeps the receive buffer in order. -/
theorem pairwise_insertFromBack {base : U32} {newseg : Seg} {segs inserted : List Seg}
    (near : ahead base newseg.sn < 2 ^ 31) (nears : ∀ seg ∈ segs, ahead base seg.sn < 2 ^ 31)
    (sorted : segs.Pairwise fun a b => ahead base b.sn < ahead base a.sn)
    (insertion : insertFromBack newseg segs = some inserted) :
    inserted.Pairwise fun a b => ahead base b.sn < ahead base a.sn := by
  induction segs generalizing inserted with
  | nil =>
      cases insertion
      exact List.pairwise_singleton _ _
  | cons seg rest inductionHypothesis =>
      rw [List.forall_mem_cons] at nears
      rw [List.pairwise_cons] at sorted
      have distance := itimediff_eq_ahead near nears.1
      unfold insertFromBack at insertion
      split at insertion
      · cases insertion
      · rename_i distinct
        split at insertion
        · rename_i later
          cases insertion
          have above : ahead base seg.sn < ahead base newseg.sn := by omega
          refine List.pairwise_cons.2 ⟨?_, List.pairwise_cons.2 sorted⟩
          rw [List.forall_mem_cons]
          exact ⟨above, fun other member => (sorted.1 other member).trans above⟩
        · rename_i earlier
          obtain ⟨tail, inner, rfl⟩ := Option.map_eq_some_iff.1 insertion
          have below : ahead base newseg.sn < ahead base seg.sn := by
            have apart : ahead base newseg.sn ≠ ahead base seg.sn :=
              fun same => distinct (ahead_inj same).symm
            omega
          refine List.pairwise_cons.2 ⟨fun other member => ?_,
            inductionHypothesis nears.2 sorted.2 inner⟩
          rcases List.mem_cons.1 ((perm_insertFromBack inner).mem_iff.1 member) with rfl | behind
          · exact below
          · exact sorted.1 other behind

variable {done : List (Head × Bytes)} {segment : Head × Bytes} {sn : U32} {kcp : Ikcpcb}

/-! ## The first segment with a number -/

theorem firstPush_append (done more : List (Head × Bytes)) (sn : U32) :
    firstPush (done ++ more) sn = (firstPush done sn).or (firstPush more sn) := by
  simp only [firstPush, List.find?_append]
  cases done.find? fun segment => segment.1.cmd = ikcpCmdPush && segment.1.sn = sn <;> rfl

/-- What has come first stays first. -/
theorem firstPush_of_append {seg : Seg} (first : firstPush done sn = some seg) :
    firstPush (done ++ [segment]) sn = some seg := by
  rw [firstPush_append, first, Option.some_or]

theorem firstPush_of_none (none : firstPush done segment.1.sn = none)
    (push : segment.1.cmd = ikcpCmdPush) :
    firstPush (done ++ [segment]) segment.1.sn = some (segment.1.segment segment.2) := by
  rw [firstPush_append, none]
  simp [firstPush, push]

/-- A number is there after a segment if it was there before or is its number. -/
theorem isSome_firstPush_append (there : (firstPush (done ++ [segment]) sn).isSome) :
    (firstPush done sn).isSome ∨ segment.1.cmd = ikcpCmdPush ∧ segment.1.sn = sn := by
  rw [firstPush_append] at there
  cases before : firstPush done sn with
  | some seg => exact .inl rfl
  | none =>
      right
      by_contra other
      rw [before, Option.none_or, firstPush, List.find?_singleton] at there
      simp only [Bool.and_eq_true, decide_eq_true_eq, if_neg other, Option.map_none,
        Option.isSome_none, Bool.false_eq_true] at there

/-! ## The receiver -/

/-- The receive side after the segments `done`: the queue holds the first segment with each of
its numbers, and so does the buffer for the numbers of the first window. -/
structure Reassembles (done : List (Head × Bytes)) (kcp : Ikcpcb) : Prop where
  counted : kcp.nrcvQue = kcp.rcvQueue.length
  width : kcp.rcvWnd < 2 ^ 31
  next : kcp.rcvNxt = kcp.rcvQueue.length
  most : kcp.rcvNxt ≤ kcp.rcvWnd
  queue : ∀ index seg, kcp.rcvQueue[index]? = some seg →
    firstPush done (BitVec.ofNat 32 index) = some seg
  buffer : ∀ seg ∈ kcp.rcvBuf, seg.sn.toNat < kcp.rcvWnd → firstPush done seg.sn = some seg
  near : ∀ seg ∈ kcp.rcvBuf, ahead kcp.rcvNxt32 seg.sn < 2 ^ 31
  sorted : kcp.rcvBuf.Pairwise fun a b => ahead kcp.rcvNxt32 a.sn < ahead kcp.rcvNxt32 b.sn
  known : ∀ number < kcp.rcvWnd, (firstPush done (BitVec.ofNat 32 number)).isSome →
    number < kcp.rcvNxt ∨ ∃ seg ∈ kcp.rcvBuf, seg.sn = BitVec.ofNat 32 number

/-- No segment is left in the buffer that could be moved to the queue. -/
def Emptied (kcp : Ikcpcb) : Prop :=
  ∀ seg ∈ kcp.rcvBuf, seg.sn = kcp.rcvNxt32 → kcp.rcvWnd ≤ kcp.rcvNxt

theorem Emptied.congr {kcp' : Ikcpcb} (emptied : Emptied kcp) (same : kcp'.receiver = kcp.receiver)
    (window : kcp'.rcvWnd = kcp.rcvWnd) : Emptied kcp' := by
  simp only [Ikcpcb.receiver, Ikcpcb.Receiver.mk.injEq] at same
  obtain ⟨_, _, buffer, _, next⟩ := same
  unfold Emptied Ikcpcb.rcvNxt32
  rw [buffer, next, window]
  exact emptied

namespace Reassembles

/-- Only the receive side matters. -/
theorem congr {kcp' : Ikcpcb} (holds : Reassembles done kcp) (same : kcp'.receiver = kcp.receiver)
    (window : kcp'.rcvWnd = kcp.rcvWnd) : Reassembles done kcp' := by
  simp only [Ikcpcb.receiver, Ikcpcb.Receiver.mk.injEq] at same
  obtain ⟨queue, count, buffer, _, next⟩ := same
  have next32 : kcp'.rcvNxt32 = kcp.rcvNxt32 := by rw [Ikcpcb.rcvNxt32, Ikcpcb.rcvNxt32, next]
  constructor
  · rw [count, queue, holds.counted]
  · rw [window]
    exact holds.width
  · rw [next, queue, holds.next]
  · rw [next, window]
    exact holds.most
  · rw [queue]
    exact holds.queue
  · rw [buffer, window]
    exact holds.buffer
  · rw [buffer, next32]
    exact holds.near
  · rw [buffer, next32]
    exact holds.sorted
  · rw [buffer, window, next]
    exact holds.known

/-- The next segment is moved to the queue. -/
theorem moveTake {seg : Seg} {rest : List Seg} (holds : Reassembles done kcp)
    (buffered : kcp.rcvBuf = seg :: rest) (available : seg.sn = kcp.rcvNxt32)
    (room : kcp.rcvNxt < kcp.rcvWnd) : Reassembles done (moveTake kcp seg rest) := by
  obtain ⟨counted, width, next, most, queue, buffer, near, sorted, known⟩ := holds
  rw [buffered] at buffer near sorted known
  rw [List.forall_mem_cons] at buffer near
  rw [List.pairwise_cons] at sorted
  have number : seg.sn.toNat = kcp.rcvNxt := by
    rw [available, Ikcpcb.rcvNxt32, BitVec.toNat_ofNat, Nat.mod_eq_of_lt (by omega)]
  have first := buffer.1 (by omega)
  have next32 : (KcpRs.moveTake kcp seg rest).rcvNxt32 = kcp.rcvNxt32 + 1 := by
    simp only [KcpRs.moveTake, Ikcpcb.rcvNxt32, BitVec.ofNat_add]
    rfl
  have behind (other : Seg) (member : other ∈ rest) :
      ahead (kcp.rcvNxt32 + 1) other.sn = ahead kcp.rcvNxt32 other.sn - 1 ∧
        0 < ahead kcp.rcvNxt32 other.sn := by
    have positive := sorted.1 other member
    rw [available, ahead_self] at positive
    exact ⟨ahead_succ positive, positive⟩
  constructor
  · simp [KcpRs.moveTake, counted]
  · exact width
  · simp [KcpRs.moveTake, next]
  · exact room
  · intro index other here
    rw [show (KcpRs.moveTake kcp seg rest).rcvQueue = kcp.rcvQueue ++ [seg] from rfl,
      List.getElem?_append] at here
    split at here
    · exact queue index other here
    · rename_i past
      obtain ⟨bound, equal⟩ := List.getElem?_eq_some_iff.1 here
      rw [List.length_singleton] at bound
      rw [List.getElem_singleton] at equal
      have last : index = kcp.rcvNxt := by omega
      rw [last, show BitVec.ofNat 32 kcp.rcvNxt = seg.sn from available.symm, first, equal]
  · exact buffer.2
  · intro other member
    rw [next32, (behind other member).1]
    have bound := near.2 other member
    omega
  · rw [next32]
    refine sorted.2.imp_of_mem fun left right less => ?_
    have one := behind _ left
    have two := behind _ right
    omega
  · intro other inside there
    obtain before | ⟨held, member, same⟩ := known other inside there
    · exact .inl (Nat.lt_succ_of_lt before)
    · rcases List.mem_cons.1 member with rfl | later
      · left
        have value : held.sn.toNat = other := by
          have bound : other < kcp.rcvWnd := inside
          rw [same, BitVec.toNat_ofNat, Nat.mod_eq_of_lt (by omega)]
        exact Nat.lt_succ_of_le (by omega)
      · exact .inr ⟨held, later, same⟩

/-- All segments that are available are moved. -/
theorem moveReady {fuel : Nat} (holds : Reassembles done kcp) (enough : kcp.rcvBuf.length ≤ fuel) :
    Reassembles done (moveReady fuel kcp) ∧ Emptied (KcpRs.moveReady fuel kcp) := by
  induction fuel generalizing kcp with
  | zero =>
      have empty : kcp.rcvBuf = [] := List.eq_nil_of_length_eq_zero (by omega)
      refine ⟨holds, fun seg member => ?_⟩
      rw [KcpRs.moveReady, empty] at member
      cases member
  | succ fuel inductionHypothesis =>
      unfold KcpRs.moveReady
      split
      · rename_i empty
        refine ⟨holds, fun seg member => ?_⟩
        rw [empty] at member
        cases member
      · rename_i seg rest buffered
        rw [buffered, List.length_cons] at enough
        split
        · rename_i available
          rw [holds.counted, ← holds.next] at available
          exact inductionHypothesis (holds.moveTake buffered available.1 available.2)
            (Nat.le_of_succ_le_succ enough)
        · rename_i stays
          rw [holds.counted, ← holds.next, not_and, Nat.not_lt] at stays
          refine ⟨holds, fun other member same => ?_⟩
          rw [buffered] at member
          rcases List.mem_cons.1 member with rfl | later
          · exact stays same
          · -- The first segment of the buffer is the least, so it is the next one too.
            have sorted := holds.sorted
            rw [buffered, List.pairwise_cons] at sorted
            have less := sorted.1 other later
            rw [same, ahead_self] at less
            cases less

theorem moveAvailable (holds : Reassembles done kcp) :
    Reassembles done (moveAvailable kcp) ∧ Emptied (KcpRs.moveAvailable kcp) :=
  holds.moveReady le_rfl

/-- A segment whose number is there already changes nothing. -/
theorem skip (holds : Reassembles done kcp)
    (covered : ∀ number < kcp.rcvWnd, segment.1.cmd = ikcpCmdPush →
      segment.1.sn = BitVec.ofNat 32 number →
        number < kcp.rcvNxt ∨ ∃ seg ∈ kcp.rcvBuf, seg.sn = BitVec.ofNat 32 number) :
    Reassembles (done ++ [segment]) kcp := by
  obtain ⟨counted, width, next, most, queue, buffer, near, sorted, known⟩ := holds
  refine ⟨counted, width, next, most, fun index seg here => firstPush_of_append (queue index seg here),
    fun seg member inside => firstPush_of_append (buffer seg member inside), near, sorted,
    fun number inside there => ?_⟩
  obtain before | ⟨push, same⟩ := isSome_firstPush_append there
  · exact known number inside before
  · exact covered number inside push same

/-- A segment joins the buffer. -/
theorem insert {inserted : List Seg} (holds : Reassembles done kcp)
    (push : segment.1.cmd = ikcpCmdPush) (forward : 0 ≤ itimediff segment.1.sn kcp.rcvNxt32)
    (insertion : insertFromBack (segment.1.segment segment.2) kcp.rcvBuf.reverse = some inserted)
    (nrcvBuf : Nat) : Reassembles (done ++ [segment])
      { kcp with rcvBuf := inserted.reverse, nrcvBuf } := by
  obtain ⟨counted, width, next, most, queue, buffer, near, sorted, known⟩ := holds
  have near' : ahead kcp.rcvNxt32 (segment.1.segment segment.2).sn < 2 ^ 31 :=
    ahead_lt_of_itimediff forward
  have perm := perm_insertFromBack insertion
  have members (seg : Seg) : seg ∈ inserted.reverse ↔
      seg = segment.1.segment segment.2 ∨ seg ∈ kcp.rcvBuf := by
    rw [List.mem_reverse, perm.mem_iff, List.mem_cons, List.mem_reverse]
  have ordered := pairwise_insertFromBack near' (fun seg member => near seg (List.mem_reverse.1 member))
    (List.pairwise_reverse.2 sorted) insertion
  -- The numbers in the buffer are distinct, so the new one was not there.
  have distinct : ∀ seg ∈ kcp.rcvBuf, seg.sn ≠ segment.1.sn := by
    have apart : inserted.Pairwise fun a b => a.sn ≠ b.sn :=
      ordered.imp fun less same => by rw [same] at less; exact lt_irrefl _ less
    rw [perm.pairwise_iff fun different => Ne.symm different, List.pairwise_cons] at apart
    exact fun seg member same => apart.1 seg (List.mem_reverse.2 member) same.symm
  have fresh (inside : segment.1.sn.toNat < kcp.rcvWnd) : firstPush done segment.1.sn = none := by
    by_contra there
    have number : segment.1.sn = BitVec.ofNat 32 segment.1.sn.toNat := by simp
    rw [← ne_eq, ← Option.isSome_iff_ne_none, number] at there
    obtain before | ⟨seg, member, same⟩ := known _ inside there
    · have behind : itimediff (BitVec.ofNat 32 segment.1.sn.toNat) kcp.rcvNxt32 =
          (segment.1.sn.toNat : Int) - kcp.rcvNxt :=
        serialDiff_of_near (by decide) (by simp only [Nat.reduceSub]; omega)
          (by simp only [Nat.reduceSub]; omega)
      rw [← number] at behind
      omega
    · exact distinct seg member (same.trans number.symm)
  refine ⟨counted, width, next, most, fun index seg here => firstPush_of_append (queue index seg here),
    fun seg member inside => ?_, fun seg member => ?_, List.pairwise_reverse.2 ordered,
    fun number inside there => ?_⟩
  · rcases (members seg).1 member with rfl | old
    · exact firstPush_of_none (fresh inside) push
    · exact firstPush_of_append (buffer seg old inside)
  · rcases (members seg).1 member with rfl | old
    · exact near'
    · exact near seg old
  · obtain before | ⟨_, same⟩ := isSome_firstPush_append there
    · refine (known number inside before).imp_right ?_
      rintro ⟨seg, member, same⟩
      exact ⟨seg, (members seg).2 (.inr member), same⟩
    · exact .inr ⟨_, (members _).2 (.inl rfl), same⟩

/-- A data segment of the window joins what has arrived. -/
theorem ikcpParseData (holds : Reassembles done kcp) (push : segment.1.cmd = ikcpCmdPush)
    (inside : itimediff segment.1.sn (kcp.rcvNxt32 + BitVec.ofNat 32 kcp.rcvWnd) < 0)
    (forward : 0 ≤ itimediff segment.1.sn kcp.rcvNxt32) :
    Reassembles (done ++ [segment]) (ikcpParseData kcp (segment.1.segment segment.2)) ∧
      Emptied (KcpRs.ikcpParseData kcp (segment.1.segment segment.2)) := by
  have admitted : ¬ (0 ≤ itimediff (segment.1.segment segment.2).sn
        (kcp.rcvNxt32 + BitVec.ofNat 32 kcp.rcvWnd) ∨
      itimediff (segment.1.segment segment.2).sn kcp.rcvNxt32 < 0) := by
    rw [not_or, Int.not_le, Int.not_lt]
    exact ⟨inside, forward⟩
  unfold KcpRs.ikcpParseData
  rw [if_neg admitted]
  split
  · rename_i inserted insertion
    exact (holds.insert push forward insertion _).moveAvailable
  · rename_i left
    refine (holds.skip fun number _ _ same => .inr ?_).moveAvailable
    obtain ⟨seg, member, equal⟩ := mem_of_insertFromBack_none left
    exact ⟨seg, List.mem_reverse.1 member, equal.trans same⟩

/-- A data segment beside the window has a number that is too large, or one that is there. -/
theorem inputPush (holds : Reassembles done kcp) (emptied : Emptied kcp)
    (push : segment.1.cmd = ikcpCmdPush) :
    Reassembles (done ++ [segment]) (inputPush kcp segment.1 segment.2) ∧
      Emptied (KcpRs.inputPush kcp segment.1 segment.2) := by
  have width := holds.width
  have most := holds.most
  unfold KcpRs.inputPush
  dsimp only
  split
  · rename_i inside
    have noted : Reassembles done (ikcpAckPush kcp segment.1.sn segment.1.ts) := holds.congr rfl rfl
    split
    · rename_i forward
      exact noted.ikcpParseData push inside forward
    · rename_i behind
      refine ⟨noted.skip fun number inside _ same => .inl ?_, emptied⟩
      by_contra least
      have bound : number < kcp.rcvWnd := inside
      have distance : itimediff segment.1.sn kcp.rcvNxt32 = (number : Int) - kcp.rcvNxt := by
        rw [same]
        exact serialDiff_of_near (by decide) (by simp only [Nat.reduceSub]; omega)
          (by simp only [Nat.reduceSub]; omega)
      have ordered : kcp.rcvNxt ≤ number := Nat.not_lt.1 least
      exact behind (show 0 ≤ itimediff segment.1.sn kcp.rcvNxt32 by omega)
  · rename_i outside
    refine ⟨holds.skip fun number inside _ same => .inl ?_, emptied⟩
    by_contra least
    have distance : itimediff segment.1.sn (kcp.rcvNxt32 + BitVec.ofNat 32 kcp.rcvWnd) =
        (number : Int) - (kcp.rcvNxt + kcp.rcvWnd : Nat) := by
      rw [same, Ikcpcb.rcvNxt32, ← BitVec.ofNat_add]
      exact serialDiff_of_near (by decide) (by simp only [Nat.reduceSub]; omega)
        (by simp only [Nat.reduceSub]; omega)
    omega

end Reassembles

/-! ## Packets -/

/-- What is kept while the other statements of `ikcp_input` run. -/
theorem inputStable_receiver (receiver : Ikcpcb.Receiver) (rcvWnd : Nat) {segments : List (Head × Bytes)}
    (none : ∀ segment ∈ segments, segment.1.cmd ≠ ikcpCmdPush) :
    InputStable (fun kcp => kcp.receiver = receiver ∧ kcp.rcvWnd = rcvWnd) segments := by
  constructor
  case push =>
    intro segment member push
    exact absurd push (none segment member)
  case shrink =>
    intro kcp holds
    unfold ikcpShrinkBuf
    split <;> exact holds
  case ack =>
    intro segment _ _ kcp holds
    unfold ikcpParseAck
    split <;> exact holds
  case fastack =>
    intro kcp sn holds
    unfold ikcpParseFastack
    split <;> exact holds
  all_goals
    intros
    assumption

namespace Reassembles

/-- A segment of a packet is processed. -/
theorem inputSegment {st : InputState} (holds : Reassembles done st.kcp) (emptied : Emptied st.kcp) :
    Reassembles (done ++ [segment]) (inputSegment st segment.1 segment.2).kcp ∧
      Emptied (KcpRs.inputSegment st segment.1 segment.2).kcp := by
  by_cases push : segment.1.cmd = ikcpCmdPush
  · have data : ¬ segment.1.cmd = ikcpCmdAck := by
      rw [push]
      decide
    unfold KcpRs.inputSegment
    dsimp only
    rw [if_neg data, if_pos push]
    have shrunk (kcp : Ikcpcb) : (ikcpShrinkBuf kcp).receiver = kcp.receiver ∧
        (ikcpShrinkBuf kcp).rcvWnd = kcp.rcvWnd := by
      unfold ikcpShrinkBuf
      split <;> exact ⟨rfl, rfl⟩
    obtain ⟨same, window⟩ := shrunk (ikcpParseUna { st.kcp with rmtWnd := segment.1.wnd.toNat }
      segment.1.una)
    have holds' := holds.congr same window
    exact holds'.inputPush (emptied.congr same window) push
  · have stable : InputStable _ [segment] :=
      inputStable_receiver st.kcp.receiver st.kcp.rcvWnd (by simpa using push)
    obtain ⟨same, window⟩ := stable.inputSegment (List.mem_singleton.2 rfl) ⟨rfl, rfl⟩
    have holds' := holds.congr same window
    exact ⟨holds'.skip fun _ _ is => absurd is push, emptied.congr same window⟩

/-- All segments of a packet are processed. -/
theorem foldl {st : InputState} (holds : Reassembles done st.kcp) (emptied : Emptied st.kcp)
    (segments : List (Head × Bytes)) :
    Reassembles (done ++ segments)
        (segments.foldl (fun st segment => KcpRs.inputSegment st segment.1 segment.2) st).kcp ∧
      Emptied (segments.foldl (fun st segment => KcpRs.inputSegment st segment.1 segment.2) st).kcp := by
  induction segments using List.reverseRecOn with
  | nil =>
      rw [List.append_nil]
      exact ⟨holds, emptied⟩
  | append_singleton segments segment inductionHypothesis =>
      rw [List.foldl_append, List.foldl_cons, List.foldl_nil, ← List.append_assoc]
      exact inductionHypothesis.1.inputSegment inductionHypothesis.2

/-- A packet is processed: what follows the loop leaves the receive side alone. -/
theorem ikcpInput {data : Bytes} (holds : Reassembles done kcp) (emptied : Emptied kcp)
    (long : ¬ (BitVec.ofNat 32 data.length).toInt < ikcpOverhead) :
    Reassembles (done ++ accepted kcp.conv data.length data) (ikcpInput kcp data).2 ∧
      Emptied (KcpRs.ikcpInput kcp data).2 := by
  obtain ⟨holds, emptied⟩ := @foldl _ { kcp } holds emptied (accepted kcp.conv data.length data)
  rw [← @inputLoop_state data.length { kcp } data] at holds emptied
  have stable : InputStable _ [] := inputStable_receiver (inputLoop data.length { kcp } data).2.kcp.receiver
    (inputLoop data.length { kcp } data).2.kcp.rcvWnd (by simp)
  obtain ⟨same, window⟩ := stable.ikcpInput_of_loop ⟨rfl, rfl⟩ fun short => absurd short long
  exact ⟨holds.congr same window, emptied.congr same window⟩

/-- A block that has received nothing. -/
theorem empty (rcvQueue : kcp.rcvQueue = []) (rcvBuf : kcp.rcvBuf = []) (rcvNxt : kcp.rcvNxt = 0)
    (nrcvQue : kcp.nrcvQue = 0) (width : kcp.rcvWnd < 2 ^ 31) : Reassembles [] kcp ∧ Emptied kcp := by
  refine ⟨⟨by rw [nrcvQue, rcvQueue]; rfl, width, by rw [rcvNxt, rcvQueue]; rfl,
    by rw [rcvNxt]; exact Nat.zero_le _, ?_, ?_, ?_, ?_, ?_⟩, ?_⟩
  · simp [rcvQueue]
  · simp [rcvBuf]
  · simp [rcvBuf]
  · simp [rcvBuf]
  · simp [firstPush]
  · simp [Emptied, rcvBuf]

end Reassembles

/-- A list of first segments up to the end of the room or to the first gap. -/
theorem eq_assembled {segments : List (Head × Bytes)} {room number : Nat} {queue : List Seg}
    (first : ∀ index seg, queue[index]? = some seg →
      firstPush segments (BitVec.ofNat 32 (number + index)) = some seg)
    (most : queue.length ≤ room)
    (ends : queue.length < room →
      firstPush segments (BitVec.ofNat 32 (number + queue.length)) = none) :
    queue = assembled segments room number := by
  induction queue generalizing room number with
  | nil =>
      cases room with
      | zero => rfl
      | succ room =>
          have gap := ends (Nat.succ_pos _)
          rw [List.length_nil, Nat.add_zero] at gap
          rw [assembled, gap]
  | cons seg rest inductionHypothesis =>
      rw [List.length_cons] at most ends
      cases room with
      | zero => cases most
      | succ room =>
          have here := first 0 seg rfl
          rw [Nat.add_zero] at here
          rw [assembled, here]
          refine congrArg (seg :: ·) (inductionHypothesis (fun index other found => ?_)
            (Nat.le_of_succ_le_succ most) fun less => ?_)
          · have later := first (index + 1) other (by simpa using found)
            rwa [← Nat.add_assoc, Nat.add_right_comm] at later
          · have gap := ends (Nat.succ_lt_succ less)
            rwa [← Nat.add_assoc, Nat.add_right_comm] at gap

/-- The queue holds what the first segments put in order. -/
theorem Reassembles.rcvQueue_eq (holds : Reassembles done kcp) (emptied : Emptied kcp) :
    kcp.rcvQueue = assembled done kcp.rcvWnd 0 := by
  have next := holds.next
  have most := holds.most
  refine eq_assembled (fun index seg here => ?_) (by omega) fun less => ?_
  · rw [Nat.zero_add]
    exact holds.queue index seg here
  · rw [Nat.zero_add, ← next]
    by_contra there
    rw [← ne_eq, ← Option.isSome_iff_ne_none] at there
    obtain before | ⟨seg, member, same⟩ := holds.known kcp.rcvNxt (by omega) there
    · exact lt_irrefl _ before
    · have full := emptied seg member same
      omega

/-- The receive queue of a block that has received nothing, after a packet. -/
theorem rcvQueue_ikcpInput {data : Bytes} (rcvQueue : kcp.rcvQueue = []) (rcvBuf : kcp.rcvBuf = [])
    (rcvNxt : kcp.rcvNxt = 0) (nrcvQue : kcp.nrcvQue = 0) (width : kcp.rcvWnd < 2 ^ 31)
    (long : ¬ (BitVec.ofNat 32 data.length).toInt < ikcpOverhead) :
    (ikcpInput kcp data).2.rcvQueue = assembled (accepted kcp.conv data.length data) kcp.rcvWnd 0 ∧
      (ikcpInput kcp data).2.nrcvQue = (ikcpInput kcp data).2.rcvQueue.length := by
  obtain ⟨start, none⟩ := Reassembles.empty rcvQueue rcvBuf rcvNxt nrcvQue width
  obtain ⟨holds, emptied⟩ := start.ikcpInput none long
  refine ⟨?_, holds.counted⟩
  rw [holds.rcvQueue_eq emptied, List.nil_append]
  congr 1
  exact congrArg Ikcpcb.Settings.rcvWnd (settings_ikcpInput kcp data)

end KcpRs
