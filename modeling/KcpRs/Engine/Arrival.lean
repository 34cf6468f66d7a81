import KcpRs.Engine.Window

/-!
# The receive window

Segments are numbered by their sender, and `Sent` says which payload goes under which number.
`Arrived` says that the receive side holds such payloads, in order and without gaps in the
receive queue; `Has` is the set of numbers that have arrived. Numbers are compared on a
circle, so this is about fewer than `2 ^ 31` segments.
-/

namespace KcpRs

open Lib

namespace Ikcpcb

/-- The number of segments that have been taken out of the receive queue. -/
def taken (kcp : Ikcpcb) : Nat := kcp.rcvNxt - kcp.rcvQueue.length

/-- The segment with this number has arrived. -/
def Has (kcp : Ikcpcb) (number : Nat) : Prop :=
  number < kcp.rcvNxt ∨ ∃ seg ∈ kcp.rcvBuf, seg.sn = BitVec.ofNat 32 number

/-- The receive side holds what was sent under the first `limit` numbers: the receive queue
without gaps, the segments ahead of it in order. -/
structure Arrived (Sent : Nat → Payload → Prop) (limit : Nat) (kcp : Ikcpcb) : Prop where
  least : kcp.rcvQueue.length ≤ kcp.rcvNxt
  most : kcp.rcvNxt ≤ limit
  queue : ∀ index seg, kcp.rcvQueue[index]? = some seg → Sent (kcp.taken + index) seg.payload
  buffer : Window (Stands Sent) kcp.rcvNxt limit (kcp.rcvBuf.map Seg.view)

variable {Sent Sent' : Nat → Payload → Prop} {limit limit' : Nat} {kcp kcp' : Ikcpcb}

theorem taken_congr (same : kcp'.receiver = kcp.receiver) : kcp'.taken = kcp.taken :=
  congrArg (fun receiver : Receiver => receiver.rcvNxt - receiver.rcvQueue.length) same

theorem has_congr (same : kcp'.receiver = kcp.receiver) (number : Nat) :
    kcp'.Has number ↔ kcp.Has number := by
  simp only [receiver, Receiver.mk.injEq] at same
  simp only [Has, same]

theorem Arrived.congr (arrived : kcp.Arrived Sent limit) (same : kcp'.receiver = kcp.receiver) :
    kcp'.Arrived Sent limit := by
  have taken := taken_congr same
  simp only [receiver, Receiver.mk.injEq] at same
  obtain ⟨queue, _, buffer, _, next⟩ := same
  refine ⟨?_, ?_, ?_, ?_⟩
  · rw [queue, next]
    exact arrived.least
  · rw [next]
    exact arrived.most
  · rw [queue, taken]
    exact arrived.queue
  · rw [buffer, next]
    exact arrived.buffer

/-- More has been sent. -/
theorem Arrived.mono (arrived : kcp.Arrived Sent limit) (more : limit ≤ limit')
    (same : ∀ number payload, number < limit → Sent number payload → Sent' number payload) :
    kcp.Arrived Sent' limit' where
  least := arrived.least
  most := arrived.most.trans more
  queue index seg queued := by
    refine same _ _ ?_ (arrived.queue index seg queued)
    obtain ⟨inside, _⟩ := List.getElem?_eq_some_iff.1 queued
    have least := arrived.least
    have most := arrived.most
    unfold taken
    omega
  buffer := by
    have window := @Window.map _ _ _ _ _ _ (Stands Sent') id arrived.buffer
      fun view number stands _ most => ⟨stands.1, same _ _ most stands.2⟩
    rw [List.map_id] at window
    exact window.widen more

theorem Arrived.rcvNxt_eq (arrived : kcp.Arrived Sent limit) :
    kcp.rcvNxt = kcp.taken + kcp.rcvQueue.length := by
  have least := arrived.least
  unfold taken
  omega

/-- Only what was sent has arrived. -/
theorem Arrived.lt_of_has (arrived : kcp.Arrived Sent limit) (small : limit ≤ 2 ^ 31) {number : Nat}
    (near : number < 2 ^ 31) (has : kcp.Has number) : number < limit := by
  rcases has with below | ⟨seg, member, sn⟩
  · exact below.trans_le arrived.most
  · obtain ⟨other, stands, _, most⟩ := arrived.buffer.exists_number (List.mem_map_of_mem member)
    have same : number = other := ofNat_inj_of_lt (by omega) (by omega) (sn.symm.trans stands.1)
    omega

/-- The first segment of the receive buffer is the one expected next. -/
theorem Arrived.moveTake {seg : Seg} {rest : List Seg} (arrived : kcp.Arrived Sent limit)
    (small : limit < 2 ^ 31) (buffered : kcp.rcvBuf = seg :: rest)
    (available : seg.sn = kcp.rcvNxt32) : (moveTake kcp seg rest).Arrived Sent limit := by
  have window := arrived.buffer
  rw [buffered, List.map_cons] at window
  obtain ⟨number, ⟨sn, sent⟩, least, most, _, later⟩ := window.head
  have next : kcp.rcvNxt = number :=
    ofNat_inj_of_lt (by omega) (by omega) (available.symm.trans sn)
  have taken : (KcpRs.moveTake kcp seg rest).taken = kcp.taken := by
    simp only [Ikcpcb.taken, KcpRs.moveTake, List.length_append, List.length_singleton]
    omega
  refine ⟨?_, ?_, fun index other queued => ?_, ?_⟩
  · simpa [KcpRs.moveTake] using arrived.least
  · simp only [KcpRs.moveTake]
    omega
  · rw [taken]
    rcases Nat.lt_or_ge index kcp.rcvQueue.length with earlier | last
    · refine arrived.queue index other ?_
      rwa [KcpRs.moveTake, List.getElem?_append_left earlier] at queued
    · rw [KcpRs.moveTake, List.getElem?_append_right last, List.getElem?_singleton] at queued
      split at queued
      · rename_i first
        cases queued
        have position : kcp.taken + index = number := by
          have least := arrived.least
          unfold Ikcpcb.taken
          omega
        rw [position]
        exact sent
      · cases queued
  · simp only [KcpRs.moveTake, next]
    exact later

theorem has_moveTake {seg : Seg} {rest : List Seg} {number : Nat} (near : number < 2 ^ 31)
    (arrived : kcp.Arrived Sent limit) (small : limit < 2 ^ 31)
    (buffered : kcp.rcvBuf = seg :: rest) (available : seg.sn = kcp.rcvNxt32) :
    (moveTake kcp seg rest).Has number ↔ kcp.Has number := by
  have most := arrived.most
  unfold Has
  rw [buffered, List.exists_mem_cons_iff]
  constructor
  · rintro (below | later)
    · rcases Nat.lt_succ_iff_lt_or_eq.1 below with earlier | rfl
      · exact .inl earlier
      · exact .inr (.inl available)
    · exact .inr (.inr later)
  · rintro (below | same | later)
    · exact .inl (Nat.lt_succ_of_lt below)
    · have equal := ofNat_inj_of_lt (by omega) (by omega) (available.symm.trans same)
      exact .inl (Nat.lt_succ_of_le equal.ge)
    · exact .inr later

/-- Moving available data changes neither what has arrived nor what has been taken. -/
theorem Arrived.moveAvailable (arrived : kcp.Arrived Sent limit) (small : limit < 2 ^ 31) :
    (moveAvailable kcp).Arrived Sent limit ∧ (moveAvailable kcp).taken = kcp.taken ∧
      ∀ number < 2 ^ 31, (moveAvailable kcp).Has number ↔ kcp.Has number := by
  refine moveAvailable_induct (fun moved => moved.Arrived Sent limit ∧ moved.taken = kcp.taken ∧
    ∀ number < 2 ^ 31, moved.Has number ↔ kcp.Has number) ?_
    ⟨arrived, rfl, fun _ _ => Iff.rfl⟩
  rintro block seg rest buffered available ⟨arrived, taken, has⟩
  refine ⟨arrived.moveTake small buffered available, ?_, fun number near => ?_⟩
  · rw [← taken]
    simp only [Ikcpcb.taken, KcpRs.moveTake, List.length_append, List.length_singleton]
    omega
  · exact (has_moveTake near arrived small buffered available).trans (has number near)

end Ikcpcb

/-! ## Taking in a data segment -/

section Insertion

variable {Sent : Nat → Payload → Prop} {base next : Nat}

/-- The walk of `ikcp_parse_data` finds the place of a segment by its number. -/
theorem window_insertFromBack {newseg : Seg} {number : Nat} (small : next ≤ 2 ^ 31)
    (stands : Stands Sent newseg.view number) (least : base ≤ number) (most : number < next)
    {segs inserted : List Seg}
    (window : Window (Stands Sent) base next (segs.reverse.map Seg.view))
    (insertion : insertFromBack newseg segs = some inserted) :
    Window (Stands Sent) base next (inserted.reverse.map Seg.view) := by
  induction segs generalizing next inserted with
  | nil =>
      cases insertion
      exact (Window.nil _ _ _).cons stands least most
  | cons seg rest inductionHypothesis =>
      rw [List.reverse_cons, List.map_append, List.map_singleton] at window
      obtain ⟨last, ⟨sn, sent⟩, after, before, inner⟩ := Window.concat_iff.1 window
      have distance : itimediff newseg.sn seg.sn = (number : Int) - last := by
        rw [show newseg.sn = BitVec.ofNat 32 number from stands.1,
          show seg.sn = BitVec.ofNat 32 last from sn]
        exact serialDiff_of_near (by decide) (by simp only [Nat.reduceSub]; omega)
          (by simp only [Nat.reduceSub]; omega)
      unfold insertFromBack at insertion
      split at insertion
      · cases insertion
      · rename_i distinct
        split at insertion
        · rename_i later
          cases insertion
          rw [List.reverse_cons, List.reverse_cons, List.map_append, List.map_append,
            List.map_singleton, List.map_singleton]
          refine Window.concat_iff.2 ⟨number, stands, least, most, ?_⟩
          exact Window.concat_iff.2 ⟨last, ⟨sn, sent⟩, after, by omega, inner⟩
        · rename_i earlier
          obtain ⟨tail, inner', rfl⟩ := Option.map_eq_some_iff.1 insertion
          have below : number < last := by
            rcases Nat.lt_or_ge number last with less | least
            · exact less
            · have same : number = last := by omega
              refine absurd ?_ distinct
              rw [show seg.sn = BitVec.ofNat 32 last from sn, ← same]
              exact stands.1.symm
          rw [List.reverse_cons, List.map_append, List.map_singleton]
          exact Window.concat_iff.2 ⟨last, ⟨sn, sent⟩, after, before,
            inductionHypothesis (by omega) below inner inner'⟩

/-- A segment is left out only when its number is there. -/
theorem mem_of_insertFromBack_none {newseg : Seg} {segs : List Seg}
    (left : insertFromBack newseg segs = none) : ∃ seg ∈ segs, seg.sn = newseg.sn := by
  induction segs with
  | nil => cases left
  | cons seg rest inductionHypothesis =>
      unfold insertFromBack at left
      split at left
      · rename_i same
        exact ⟨seg, List.mem_cons_self, same⟩
      · split at left
        · cases left
        · obtain ⟨other, member, same⟩ := inductionHypothesis (Option.map_eq_none_iff.1 left)
          exact ⟨other, List.mem_cons_of_mem _ member, same⟩

end Insertion

namespace Ikcpcb

variable {Sent Sent' : Nat → Payload → Prop} {limit limit' : Nat} {kcp kcp' : Ikcpcb}

/-- A data segment is in the receive window or before it. -/
def admitsNumber (kcp : Ikcpcb) (sn : U32) : Bool :=
  itimediff sn (kcp.rcvNxt32 + BitVec.ofNat 32 kcp.rcvWnd) < 0

/-- What a data segment with number `number` does to the receive side. -/
structure Took (Sent : Nat → Payload → Prop) (limit number : Nat) (kcp kcp' : Ikcpcb) : Prop where
  arrived : kcp'.Arrived Sent limit
  taken : kcp'.taken = kcp.taken
  grows : ∀ other < 2 ^ 31, kcp.Has other → kcp'.Has other
  only : ∀ other < 2 ^ 31, kcp'.Has other → kcp.Has other ∨ other = number

theorem Took.refl (arrived : kcp.Arrived Sent limit) (number : Nat) :
    Took Sent limit number kcp kcp :=
  ⟨arrived, rfl, fun _ _ has => has, fun _ _ has => .inl has⟩

/-- A data segment that was sent joins what has arrived. -/
theorem Arrived.ikcpParseData {newseg : Seg} {number : Nat} (arrived : kcp.Arrived Sent limit)
    (small : limit < 2 ^ 31) (stands : Stands Sent newseg.view number) (most : number < limit) :
    Took Sent limit number kcp (ikcpParseData kcp newseg) ∧
      (kcp.admitsNumber newseg.sn → (ikcpParseData kcp newseg).Has number) := by
  have next := arrived.most
  have sn : newseg.sn = BitVec.ofNat 32 number := stands.1
  have distance : itimediff newseg.sn kcp.rcvNxt32 = (number : Int) - kcp.rcvNxt := by
    rw [sn]
    exact serialDiff_of_near (by decide) (by simp only [Nat.reduceSub]; omega)
      (by simp only [Nat.reduceSub]; omega)
  unfold KcpRs.ikcpParseData
  split
  · rename_i outside
    refine ⟨Took.refl arrived number, fun inside => .inl ?_⟩
    simp only [admitsNumber, decide_eq_true_eq] at inside
    rcases outside with above | below <;> omega
  · rename_i inside
    have least : kcp.rcvNxt ≤ number := by omega
    split
    · rename_i inserted insertion
      have window := arrived.buffer
      rw [← List.reverse_reverse kcp.rcvBuf] at window
      have joined := window_insertFromBack (by omega) stands least most window insertion
      have members (seg : Seg) : seg ∈ inserted.reverse ↔ seg = newseg ∨ seg ∈ kcp.rcvBuf := by
        rw [List.mem_reverse, (perm_insertFromBack insertion).mem_iff, List.mem_cons,
          List.mem_reverse]
      have arrived' : Arrived Sent limit
          { kcp with rcvBuf := inserted.reverse, nrcvBuf := kcp.nrcvBuf + 1 } :=
        ⟨arrived.least, next, arrived.queue, joined⟩
      obtain ⟨moved, taken, has⟩ := arrived'.moveAvailable small
      refine ⟨⟨moved, taken, fun other near arrived => (has other near).2 ?_,
        fun other near arrived => ?_⟩, fun _ => (has number (by omega)).2 ?_⟩
      · rcases arrived with below | ⟨seg, member, same⟩
        · exact .inl below
        · exact .inr ⟨seg, (members seg).2 (.inr member), same⟩
      · rcases (has other near).1 arrived with below | ⟨seg, member, same⟩
        · exact .inl (.inl below)
        · rcases (members seg).1 member with rfl | earlier
          · exact .inr (ofNat_inj_of_lt (by omega) (by omega) (same.symm.trans sn))
          · exact .inl (.inr ⟨seg, earlier, same⟩)
      · exact .inr ⟨newseg, (members newseg).2 (.inl rfl), sn⟩
    · rename_i there
      obtain ⟨moved, taken, has⟩ := arrived.moveAvailable small
      refine ⟨⟨moved, taken, fun other near => (has other near).2,
        fun other near arrived => .inl ((has other near).1 arrived)⟩,
        fun _ => (has number (by omega)).2 (.inr ?_)⟩
      obtain ⟨seg, member, same⟩ := mem_of_insertFromBack_none there
      exact ⟨seg, List.mem_reverse.1 member, same.trans sn⟩

/-- A data segment is acknowledged only if it has arrived. -/
theorem Arrived.inputPush {head : Head} {data : Bytes} {number : Nat}
    (arrived : kcp.Arrived Sent limit) (small : limit < 2 ^ 31)
    (sn : head.sn = BitVec.ofNat 32 number) (sent : Sent number (head.segment data).payload)
    (most : number < limit) : Took Sent limit number kcp (inputPush kcp head data) ∧
      (kcp.admitsNumber head.sn → (inputPush kcp head data).Has number) ∧
      ∀ ack ∈ (inputPush kcp head data).acklist,
        ack ∈ kcp.acklist ∨ ack.1 = head.sn ∧ (inputPush kcp head data).Has number := by
  have next := arrived.most
  have distance : itimediff head.sn kcp.rcvNxt32 = (number : Int) - kcp.rcvNxt := by
    rw [sn]
    exact serialDiff_of_near (by decide) (by simp only [Nat.reduceSub]; omega)
      (by simp only [Nat.reduceSub]; omega)
  have pushed : (ikcpAckPush kcp head.sn head.ts).Arrived Sent limit := arrived.congr rfl
  have acks {block : Ikcpcb} (same : block.acklist = (ikcpAckPush kcp head.sn head.ts).acklist)
      (has : block.Has number) : ∀ ack ∈ block.acklist,
        ack ∈ kcp.acklist ∨ ack.1 = head.sn ∧ block.Has number := by
    intro ack member
    rw [same] at member
    rcases List.mem_append.1 member with earlier | last
    · exact .inl earlier
    · rw [List.mem_singleton.1 last]
      exact .inr ⟨rfl, has⟩
  unfold KcpRs.inputPush
  dsimp only
  split
  · rename_i inside
    split
    · obtain ⟨took, has⟩ := @Arrived.ikcpParseData Sent limit _ (head.segment data) number pushed
        small ⟨sn, sent⟩ most
      have arrived' := has (decide_eq_true inside)
      refine ⟨⟨took.arrived, took.taken, took.grows, took.only⟩, fun _ => arrived', ?_⟩
      exact acks (by rw [ikcpParseData_eq]; rfl) arrived'
    · rename_i below
      have arrived' : (ikcpAckPush kcp head.sn head.ts).Has number := by
        refine .inl (show number < kcp.rcvNxt from ?_)
        have below' : ¬ 0 ≤ itimediff head.sn kcp.rcvNxt32 := below
        omega
      exact ⟨⟨pushed, rfl, fun _ _ has => has, fun _ _ has => .inl has⟩, fun _ => arrived',
        acks rfl arrived'⟩
  · rename_i outside
    refine ⟨Took.refl arrived number, fun inside => ?_, fun ack member => .inl member⟩
    simp only [admitsNumber, decide_eq_true_eq] at inside
    exact absurd inside outside

/-! ## Taking in a packet, and taking out a message -/

/-- The data segments among `segments` are of what was sent. -/
def AllSent (Sent : Nat → Payload → Prop) (limit : Nat) (segments : List (Head × Bytes)) : Prop :=
  ∀ segment ∈ segments, segment.1.cmd = ikcpCmdPush → ∃ number < limit,
    Stands Sent (segment.1.segment segment.2).view number

/-- What is kept while a packet is processed: `Known` has arrived, and the receive window does not
move back. -/
structure Keeps (Sent : Nat → Payload → Prop) (limit : Nat) (Known : Nat → Prop) (kcp block : Ikcpcb) :
    Prop where
  arrived : block.Arrived Sent limit
  known : ∀ number < 2 ^ 31, Known number → block.Has number
  next : kcp.rcvNxt ≤ block.rcvNxt
  rcvWnd : block.rcvWnd = kcp.rcvWnd

variable {Known : Nat → Prop}

theorem Keeps.congr {block block' : Ikcpcb} (keeps : Keeps Sent limit Known kcp block)
    (receiver : block'.receiver = block.receiver) (window : block'.rcvWnd = block.rcvWnd) :
    Keeps Sent limit Known kcp block' where
  arrived := keeps.arrived.congr receiver
  known number near there := (has_congr receiver number).2 (keeps.known number near there)
  next := keeps.next.trans_eq (congrArg Receiver.rcvNxt receiver).symm
  rcvWnd := window.trans keeps.rcvWnd

theorem rcvNxt_le_moveAvailable (kcp : Ikcpcb) : kcp.rcvNxt ≤ (KcpRs.moveAvailable kcp).rcvNxt :=
  moveAvailable_induct (fun moved => kcp.rcvNxt ≤ moved.rcvNxt)
    (fun _ _ _ _ _ least => Nat.le_succ_of_le least) le_rfl

theorem rcvNxt_le_ikcpParseData (kcp : Ikcpcb) (newseg : Seg) :
    kcp.rcvNxt ≤ (KcpRs.ikcpParseData kcp newseg).rcvNxt := by
  unfold KcpRs.ikcpParseData
  split
  · exact le_rfl
  · split
    · rename_i inserted _
      exact rcvNxt_le_moveAvailable { kcp with rcvBuf := inserted.reverse, nrcvBuf := kcp.nrcvBuf + 1 }
    · exact rcvNxt_le_moveAvailable kcp

theorem rcvNxt_le_inputPush (kcp : Ikcpcb) (head : Head) (data : Bytes) :
    kcp.rcvNxt ≤ (KcpRs.inputPush kcp head data).rcvNxt := by
  unfold KcpRs.inputPush
  dsimp only
  split
  · split
    · exact rcvNxt_le_ikcpParseData (ikcpAckPush kcp head.sn head.ts) (head.segment data)
    · exact le_rfl
  · exact le_rfl

theorem taken_moveAvailable (kcp : Ikcpcb) : (KcpRs.moveAvailable kcp).taken = kcp.taken := by
  refine moveAvailable_induct (fun moved => moved.taken = kcp.taken) (fun block seg rest _ _ same => ?_)
    rfl
  rw [← same]
  simp only [taken, moveTake, List.length_append, List.length_singleton]
  omega

theorem taken_ikcpParseData (kcp : Ikcpcb) (newseg : Seg) :
    (KcpRs.ikcpParseData kcp newseg).taken = kcp.taken := by
  unfold KcpRs.ikcpParseData
  split
  · rfl
  · split
    · rename_i inserted _
      exact taken_moveAvailable { kcp with rcvBuf := inserted.reverse, nrcvBuf := kcp.nrcvBuf + 1 }
    · exact taken_moveAvailable kcp

theorem taken_inputPush (kcp : Ikcpcb) (head : Head) (data : Bytes) :
    (KcpRs.inputPush kcp head data).taken = kcp.taken := by
  unfold KcpRs.inputPush
  dsimp only
  split
  · split
    · exact taken_ikcpParseData (ikcpAckPush kcp head.sn head.ts) (head.segment data)
    · rfl
  · rfl

/-- Input takes nothing out of the receive queue. -/
theorem taken_ikcpInput (kcp : Ikcpcb) (data : Bytes) : (KcpRs.ikcpInput kcp data).2.taken = kcp.taken := by
  have stable : InputStable (fun block => block.taken = kcp.taken)
      (accepted kcp.conv data.length data) :=
    .of_receiver (fun receiver => receiver.rcvNxt - receiver.rcvQueue.length = kcp.taken) _
      fun segment _ _ block same => (taken_inputPush block segment.1 segment.2).trans same
  exact stable.ikcpInput rfl

theorem inputStable_keeps (small : limit < 2 ^ 31) {segments : List (Head × Bytes)}
    (sent : AllSent Sent limit segments) :
    InputStable (Keeps Sent limit Known kcp) segments := by
  constructor
  case push =>
    intro segment member command block keeps
    obtain ⟨number, most, sn, payload⟩ := sent segment member command
    obtain ⟨took, _⟩ := keeps.arrived.inputPush small sn payload most
    obtain ⟨acklist, equal⟩ := inputPush_eq block segment.1 segment.2
    refine ⟨took.arrived, fun other near there => took.grows other near (keeps.known other near there),
      keeps.next.trans (rcvNxt_le_inputPush block segment.1 segment.2), ?_⟩
    rw [equal]
    exact keeps.rcvWnd
  case shrink =>
    intro block keeps
    unfold ikcpShrinkBuf
    split <;> exact keeps.congr rfl rfl
  case ack =>
    intro segment _ _ block keeps
    unfold ikcpParseAck
    split
    · exact keeps
    · exact keeps.congr rfl rfl
  case fastack =>
    intro block sn keeps
    unfold ikcpParseFastack
    split
    · exact keeps
    · exact keeps.congr rfl rfl
  all_goals
    intros
    rename_i keeps
    exact keeps.congr rfl rfl

/-- A packet of what was sent adds to what has arrived. -/
theorem Arrived.ikcpInput (arrived : kcp.Arrived Sent limit) (small : limit < 2 ^ 31) {data : Bytes}
    (sent : AllSent Sent limit (accepted kcp.conv data.length data)) :
    (ikcpInput kcp data).2.Arrived Sent limit ∧
      ∀ number < 2 ^ 31, kcp.Has number → (ikcpInput kcp data).2.Has number := by
  have keeps := (inputStable_keeps small sent).ikcpInput
    (⟨arrived, fun _ _ has => has, le_rfl, rfl⟩ : Keeps Sent limit kcp.Has kcp kcp)
  exact ⟨keeps.arrived, keeps.known⟩

/-- A number in the receive window is admitted. -/
theorem admitsNumber_of_lt (width : kcp.rcvWnd < 2 ^ 31) {number : Nat} (least : kcp.rcvNxt ≤ number)
    (inside : number < kcp.rcvNxt + kcp.rcvWnd) : kcp.admitsNumber (BitVec.ofNat 32 number) := by
  rw [Ikcpcb.admitsNumber, rcvNxt32, ← BitVec.ofNat_add]
  refine decide_eq_true ?_
  unfold itimediff
  rw [serialDiff_of_near (by decide) (by simp only [Nat.reduceSub]; omega)
    (by simp only [Nat.reduceSub]; omega)]
  omega

/-- A data segment of a packet arrives if its number is below the end of the window. -/
theorem Arrived.has_ikcpInput (arrived : kcp.Arrived Sent limit) (small : limit < 2 ^ 31)
    (width : kcp.rcvWnd < 2 ^ 31) {data : Bytes}
    (sent : AllSent Sent limit (accepted kcp.conv data.length data)) {segment : Head × Bytes}
    (member : segment ∈ accepted kcp.conv data.length data) (push : segment.1.cmd = ikcpCmdPush)
    {number : Nat} (sn : segment.1.sn = BitVec.ofNat 32 number) (most : number < limit)
    (inside : number < kcp.rcvNxt + kcp.rcvWnd)
    (long : ¬ (BitVec.ofNat 32 data.length).toInt < ikcpOverhead) :
    (KcpRs.ikcpInput kcp data).2.Has number := by
  have earlier := @inputStable_keeps Sent limit kcp (fun _ => False) small _ sent
  have later := @inputStable_keeps Sent limit kcp (· = number) small _ sent
  suffices keeps : Keeps Sent limit (· = number) kcp (KcpRs.ikcpInput kcp data).2 from
    keeps.known number (by omega) rfl
  refine later.ikcpInput_of_loop ?_ fun short => absurd short long
  rw [inputLoop_state]
  obtain ⟨before, after, whole⟩ := List.append_of_mem member
  have left : before ⊆ accepted kcp.conv data.length data := by
    rw [whole]
    exact List.subset_append_left _ _
  have right : after ⊆ accepted kcp.conv data.length data := by
    rw [whole]
    exact fun _ inside => List.mem_append_right _ (List.mem_cons_of_mem _ inside)
  have reached := @InputStable.foldl _ _ earlier _ left { kcp } ⟨arrived, nofun, le_rfl, rfl⟩
  rw [show accepted (InputState.mk kcp false 0 0).kcp.conv data.length data =
    before ++ segment :: after from whole, List.foldl_append, List.foldl_cons]
  refine later.foldl right ?_
  generalize before.foldl (fun st segment => inputSegment st segment.1 segment.2) { kcp } = st at reached
  -- The block to which the segment is pushed.
  have ready := earlier.shrink _ (earlier.una segment member _
    (earlier.window _ segment.1.wnd.toNat reached))
  unfold inputSegment
  dsimp only
  rw [push, if_neg (by decide), if_pos rfl]
  generalize KcpRs.ikcpShrinkBuf _ = block at ready
  obtain ⟨number', most', sn', payload⟩ := sent segment member push
  have same : number' = number := ofNat_inj_of_lt (by omega) (by omega) (sn'.symm.trans sn)
  subst same
  obtain ⟨took, has, _⟩ := ready.arrived.inputPush small sn payload most
  have kept := earlier.push segment member push block ready
  refine ⟨kept.arrived, fun other near same => ?_, kept.next, kept.rcvWnd⟩
  subst same
  by_cases arrivedBefore : other < block.rcvNxt
  · exact took.grows other near (.inl arrivedBefore)
  · refine has ?_
    rw [sn]
    have next := ready.next
    have window := ready.rcvWnd
    exact admitsNumber_of_lt (by omega) (by omega) (by omega)

/-- Taking a message takes its segments. -/
theorem Arrived.recvMoved (arrived : kcp.Arrived Sent limit) (small : limit < 2 ^ 31) :
    (recvMoved kcp false).Arrived Sent limit ∧
      (recvMoved kcp false).taken = kcp.taken + (takeMessage kcp.rcvQueue).1.length ∧
      ∀ number < 2 ^ 31, (recvMoved kcp false).Has number ↔ kcp.Has number := by
  have split := length_takeMessage kcp.rcvQueue
  have least := arrived.least
  have left (index : Nat) : kcp.rcvQueue[(takeMessage kcp.rcvQueue).1.length + index]? =
      (takeMessage kcp.rcvQueue).2[index]? := by
    have behind : ((takeMessage kcp.rcvQueue).1 ++ (takeMessage kcp.rcvQueue).2)[
        (takeMessage kcp.rcvQueue).1.length + index]? = (takeMessage kcp.rcvQueue).2[index]? := by
      rw [List.getElem?_append_right (Nat.le_add_right _ _), Nat.add_sub_cancel_left]
    rwa [takeMessage_append] at behind
  have taken : (recvMerged kcp false).taken = kcp.taken + (takeMessage kcp.rcvQueue).1.length := by
    simp only [Ikcpcb.taken, recvMerged, Bool.false_eq_true, if_false]
    omega
  have merged : (recvMerged kcp false).Arrived Sent limit := by
    refine ⟨?_, arrived.most, fun index seg queued => ?_, arrived.buffer⟩
    · simp only [recvMerged, Bool.false_eq_true, if_false]
      omega
    · rw [taken, Nat.add_assoc]
      exact arrived.queue _ seg ((left index).trans queued)
  obtain ⟨moved, same, has⟩ := merged.moveAvailable small
  have receiver : (KcpRs.recvMoved kcp false).receiver =
      (KcpRs.moveAvailable (recvMerged kcp false)).receiver := by
    unfold KcpRs.recvMoved
    dsimp only
    split <;> rfl
  exact ⟨moved.congr receiver, (taken_congr receiver).trans (same.trans taken),
    fun number near => (has_congr receiver number).trans (has number near)⟩

end Ikcpcb

end KcpRs
