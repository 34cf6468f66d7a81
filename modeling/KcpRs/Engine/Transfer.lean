import KcpRs.Engine.Arrival
import KcpRs.Engine.Packet
import KcpRs.Engine.Stable

/-!
# What two engines know of each other

A packet is `Honest` when its numbers mean what they should: data segments carry what was
sent under their number, and acknowledgements speak of segments that have arrived. As long as
all packets are honest, what its sender does not hold any more has arrived (`Tied`), what has
arrived only grows, and what is sent is honest again.
-/

namespace KcpRs

open Lib

/-! ## Honest packets -/

/-- What a segment says is true: `Sent` is what its sender has sent under the first `limit`
numbers, and `Held` what it has of its receiver. -/
structure Seg.Honest (Sent : Nat → Payload → Prop) (limit : Nat) (Held : Nat → Prop) (seg : Seg) :
    Prop where
  una : ∃ number < 2 ^ 31, seg.una = BitVec.ofNat 32 number ∧ ∀ other < number, Held other
  ack : seg.cmd = ikcpCmdAck → ∃ number < 2 ^ 31, seg.sn = BitVec.ofNat 32 number ∧ Held number
  push : seg.cmd = ikcpCmdPush → ∃ number < limit, Stands Sent seg.view number

/-- What was true stays true. -/
theorem Seg.Honest.mono {Sent Sent' : Nat → Payload → Prop} {limit limit' : Nat}
    {Held Held' : Nat → Prop} {seg : Seg} (honest : seg.Honest Sent limit Held)
    (more : limit ≤ limit')
    (same : ∀ number payload, number < limit → Sent number payload → Sent' number payload)
    (grows : ∀ number < 2 ^ 31, Held number → Held' number) : seg.Honest Sent' limit' Held' where
  una := by
    obtain ⟨number, near, una, held⟩ := honest.una
    exact ⟨number, near, una, fun other below => grows other (by omega) (held other below)⟩
  ack command := by
    obtain ⟨number, near, sn, held⟩ := honest.ack command
    exact ⟨number, near, sn, grows number near held⟩
  push command := by
    obtain ⟨number, below, sn, sent⟩ := honest.push command
    exact ⟨number, by omega, sn, same number _ below sent⟩

namespace Ikcpcb

variable {Sent Sent' Peer Peer' : Nat → Payload → Prop} {Held Held' : Nat → Prop}
  {limit limit' : Nat} {kcp kcp' : Ikcpcb}

/-- Everything that was sent is in flight or has arrived at the peer, and what the peer will be
told has arrived. -/
structure Tied (Sent : Nat → Payload → Prop) (Held : Nat → Prop) (Peer : Nat → Payload → Prop)
    (limit : Nat) (kcp : Ikcpcb) : Prop where
  flying : kcp.Flying Sent
  covered : ∀ number < kcp.sndNxt,
    Held number ∨ ∃ seg ∈ kcp.sndBuf, seg.sn = BitVec.ofNat 32 number
  arrived : kcp.Arrived Peer limit
  acks : ∀ ack ∈ kcp.acklist, ∃ number < 2 ^ 31, ack.1 = BitVec.ofNat 32 number ∧ kcp.Has number

/-- The part of `Tied` that input concerns, and what it adds to what has arrived. -/
structure Tying (Held : Nat → Prop) (Peer : Nat → Payload → Prop) (limit : Nat)
    (kcp block : Ikcpcb) : Prop where
  next : block.sndNxt = kcp.sndNxt
  covered : ∀ number < kcp.sndNxt,
    Held number ∨ ∃ seg ∈ block.sndBuf, seg.sn = BitVec.ofNat 32 number
  arrived : block.Arrived Peer limit
  acks : ∀ ack ∈ block.acklist, ∃ number < 2 ^ 31, ack.1 = BitVec.ofNat 32 number ∧ block.Has number
  taken : block.taken = kcp.taken
  grows : ∀ number < 2 ^ 31, kcp.Has number → block.Has number

theorem Tied.tying (tied : kcp.Tied Sent Held Peer limit) : Tying Held Peer limit kcp kcp :=
  ⟨rfl, tied.covered, tied.arrived, tied.acks, rfl, fun _ _ has => has⟩

/-- Statements of input that do not concern the numbers. -/
theorem Tying.congr {block block' : Ikcpcb} (tying : Tying Held Peer limit kcp block)
    (next : block'.sndNxt = block.sndNxt) (acklist : block'.acklist = block.acklist)
    (receiver : block'.receiver = block.receiver)
    (buffer : ∀ number < kcp.sndNxt, (∃ seg ∈ block.sndBuf, seg.sn = BitVec.ofNat 32 number) →
      Held number ∨ ∃ seg ∈ block'.sndBuf, seg.sn = BitVec.ofNat 32 number) :
    Tying Held Peer limit kcp block' where
  next := next.trans tying.next
  covered number below := (tying.covered number below).elim .inl (buffer number below)
  arrived := tying.arrived.congr receiver
  acks ack member := by
    obtain ⟨number, near, equal, has⟩ := tying.acks ack (acklist ▸ member)
    exact ⟨number, near, equal, (has_congr receiver number).2 has⟩
  taken := (taken_congr receiver).trans tying.taken
  grows number near has := (has_congr receiver number).2 (tying.grows number near has)

/-- What `ikcp_parse_una` removes is below the acknowledgement. -/
theorem mem_parseUnaLoop {una : U32} {segs : List Seg} {seg : Seg} (member : seg ∈ segs) :
    0 < itimediff una seg.sn ∨ seg ∈ (parseUnaLoop una segs).1 := by
  induction segs with
  | nil => cases member
  | cons first rest inductionHypothesis =>
      unfold parseUnaLoop
      split
      · rename_i past
        rcases List.mem_cons.1 member with rfl | later
        · exact .inl past
        · exact inductionHypothesis later
      · exact .inr member

/-- What `ikcp_parse_ack` removes has the number acknowledged. -/
theorem mem_parseAckLoop {sn : U32} {segs : List Seg} {seg : Seg} (member : seg ∈ segs) :
    sn = seg.sn ∨ seg ∈ (parseAckLoop sn segs).1 := by
  induction segs with
  | nil => cases member
  | cons first rest inductionHypothesis =>
      unfold parseAckLoop
      split
      · rename_i same
        rcases List.mem_cons.1 member with rfl | later
        · exact .inl same
        · exact .inr later
      · split
        · exact .inr member
        · rcases List.mem_cons.1 member with rfl | later
          · exact .inr List.mem_cons_self
          · exact (inductionHypothesis later).imp_right (List.mem_cons_of_mem _)

/-- Every statement of `ikcp_input` keeps what honest segments are about. -/
theorem inputStable_tying (small : limit < 2 ^ 31) (short : kcp.sndNxt < 2 ^ 31)
    {segments : List (Head × Bytes)}
    (honest : ∀ segment ∈ segments, (segment.1.segment segment.2).Honest Peer limit Held) :
    InputStable (Tying Held Peer limit kcp) segments := by
  constructor
  case una =>
    intro segment member block tying
    refine tying.congr rfl rfl rfl fun number below inside => ?_
    obtain ⟨seg, flying, sn⟩ := inside
    obtain ⟨bound, near, una, held⟩ := (honest segment member).una
    refine (mem_parseUnaLoop flying).imp (fun past => held number ?_)
      fun stays => ⟨seg, stays, sn⟩
    rw [show segment.1.una = BitVec.ofNat 32 bound from una, sn] at past
    unfold itimediff at past
    rw [serialDiff_of_near (by decide) (by simp only [Nat.reduceSub]; omega)
      (by simp only [Nat.reduceSub]; omega)] at past
    omega
  case ack =>
    intro segment member command block tying
    unfold ikcpParseAck
    split
    · exact tying
    · refine tying.congr rfl rfl rfl fun number below inside => ?_
      obtain ⟨seg, flying, sn⟩ := inside
      obtain ⟨acked, near, equal, held⟩ := (honest segment member).ack command
      refine (mem_parseAckLoop flying).imp (fun same => ?_) fun stays => ⟨seg, stays, sn⟩
      have number' : acked = number := ofNat_inj_of_lt (by omega) (by omega)
        (equal.symm.trans (same.trans sn))
      rwa [← number']
  case push =>
    intro segment member command block tying
    obtain ⟨number, most, sn, sent⟩ := (honest segment member).push command
    obtain ⟨took, has, acks⟩ := tying.arrived.inputPush small sn sent most
    obtain ⟨acklist, equal⟩ := inputPush_eq block segment.1 segment.2
    refine ⟨?_, ?_, took.arrived, fun ack inside => ?_, took.taken.trans tying.taken,
      fun other near has => took.grows other near (tying.grows other near has)⟩
    · rw [equal]
      exact tying.next
    · rw [equal]
      exact tying.covered
    · rcases acks ack inside with earlier | ⟨same, has⟩
      · obtain ⟨other, near, equal, has⟩ := tying.acks ack earlier
        exact ⟨other, near, equal, took.grows other near has⟩
      · exact ⟨number, by omega, same.trans sn, has⟩
  case shrink =>
    intro block tying
    unfold ikcpShrinkBuf
    split <;> exact tying.congr rfl rfl rfl fun _ _ inside => .inr inside
  case fastack =>
    intro block sn tying
    unfold ikcpParseFastack
    split
    · exact tying
    · refine tying.congr rfl rfl rfl fun number _ inside => .inr ?_
      obtain ⟨seg, flying, equal⟩ := inside
      have kept : seg.sn ∈ (parseFastackLoop sn block.sndBuf).map Seg.sn := by
        rw [map_parseFastackLoop Seg.sn fun _ _ => rfl]
        exact List.mem_map_of_mem flying
      obtain ⟨other, stays, same⟩ := List.mem_map.1 kept
      exact ⟨other, stays, same.trans equal⟩
  all_goals
    intros
    rename_i tying
    exact tying.congr rfl rfl rfl fun _ _ inside => .inr inside

/-- An honest packet keeps the two ends tied. -/
theorem Tied.ikcpInput (tied : kcp.Tied Sent Held Peer limit) (small : limit < 2 ^ 31)
    (short : kcp.sndNxt < 2 ^ 31) {data : Bytes}
    (honest : ∀ segment ∈ accepted kcp.conv data.length data,
      (segment.1.segment segment.2).Honest Peer limit Held) :
    (ikcpInput kcp data).2.Tied Sent Held Peer limit ∧
      (ikcpInput kcp data).2.taken = kcp.taken ∧
      ∀ number < 2 ^ 31, kcp.Has number → (ikcpInput kcp data).2.Has number := by
  have tying := (inputStable_tying small short honest).ikcpInput tied.tying
  refine ⟨⟨tied.flying.ikcpInput data, ?_, tying.arrived, tying.acks⟩, tying.taken, tying.grows⟩
  rw [tying.next]
  exact tying.covered

/-- A segment that input adds to what has arrived came with the packet. -/
theorem has_of_ikcpInput {data : Bytes} {number : Nat} (has : (KcpRs.ikcpInput kcp data).2.Has number) :
    kcp.Has number ∨ ∃ segment ∈ accepted kcp.conv data.length data,
      segment.1.cmd = ikcpCmdPush ∧ segment.1.sn = BitVec.ofNat 32 number := by
  let Came := kcp.Has number ∨ ∃ segment ∈ accepted kcp.conv data.length data,
    segment.1.cmd = ikcpCmdPush ∧ segment.1.sn = BitVec.ofNat 32 number
  have moved {block : Ikcpcb} (came : block.Has number → Came) :
      (moveAvailable block).Has number → Came := by
    refine moveAvailable_induct (fun block => block.Has number → Came) ?_ came
    rintro block seg rest buffered available came (below | ⟨other, member, same⟩)
    · rcases Nat.lt_succ_iff_lt_or_eq.1 below with earlier | rfl
      · exact came (.inl earlier)
      · exact came (.inr ⟨seg, by rw [buffered]; exact List.mem_cons_self, available⟩)
    · exact came (.inr ⟨other, by rw [buffered]; exact List.mem_cons_of_mem _ member, same⟩)
  have stable : InputStable (fun block => block.Has number → Came)
      (accepted kcp.conv data.length data) := by
    refine .of_receiver (fun receiver => (number < receiver.rcvNxt ∨
      ∃ seg ∈ receiver.rcvBuf, seg.sn = BitVec.ofNat 32 number) → Came) _
      fun segment inside command block came => ?_
    show (inputPush block segment.1 segment.2).Has number → Came
    unfold KcpRs.inputPush
    dsimp only
    split
    · split
      · unfold KcpRs.ikcpParseData
        split
        · exact came
        · split
          · rename_i inserted insertion
            refine moved ?_
            rintro (below | ⟨seg, member, same⟩)
            · exact came (.inl below)
            · rw [List.mem_reverse, (perm_insertFromBack insertion).mem_iff, List.mem_cons,
                List.mem_reverse] at member
              rcases member with rfl | earlier
              · exact .inr ⟨segment, inside, command, same⟩
              · exact came (.inr ⟨seg, earlier, same⟩)
          · exact moved came
      · exact came
    · exact came
  exact stable.ikcpInput (fun has => .inl has) has

/-- Operations that touch neither the segments in flight nor the receive side. -/
theorem Tied.congr (tied : kcp.Tied Sent Held Peer limit) (flying : kcp'.Flying Sent)
    (next : kcp'.sndNxt = kcp.sndNxt) (buffer : kcp'.sndBuf = kcp.sndBuf)
    (receiver : kcp'.receiver = kcp.receiver) (acklist : kcp'.acklist = kcp.acklist) :
    kcp'.Tied Sent Held Peer limit where
  flying := flying
  covered := by
    rw [next, buffer]
    exact tied.covered
  arrived := tied.arrived.congr receiver
  acks ack member := by
    obtain ⟨number, near, equal, has⟩ := tied.acks ack (acklist ▸ member)
    exact ⟨number, near, equal, (has_congr receiver number).2 has⟩

/-- The peer has sent or received more, or what will be sent is known better. -/
theorem Tied.mono (tied : kcp.Tied Sent Held Peer limit) (short : kcp.sndNxt ≤ 2 ^ 31)
    (known : ∀ number payload, number < kcp.sndNxt → Sent number payload → Sent' number payload)
    (grows : ∀ number < 2 ^ 31, Held number → Held' number) (more : limit ≤ limit')
    (same : ∀ number payload, number < limit → Peer number payload → Peer' number payload) :
    kcp.Tied Sent' Held' Peer' limit' where
  flying := by
    obtain ⟨una, flight⟩ := tied.flying
    have window := @Window.map _ _ _ _ _ _ (Stands Sent') id flight.window
      fun view number stands _ most => ⟨stands.1, known _ _ most stands.2⟩
    rw [List.map_id] at window
    exact ⟨una, flight.base, flight.most, flight.span, flight.width, window⟩
  covered number below :=
    (tied.covered number below).imp_left (grows number (by omega))
  arrived := tied.arrived.mono more same
  acks := tied.acks

/-- The segments to acknowledge are told by every flush. -/
theorem acklist_ikcpFlush (updated : kcp.updated = true) : (ikcpFlush kcp).1.acklist = [] := by
  have congested (block : Ikcpcb) (cwnd change : Nat) (lost : Bool) :
      (flushCwnd block cwnd change lost).acklist = block.acklist := by
    unfold flushCwnd
    dsimp only
    repeat' split
    all_goals rfl
  have probed : (flushProbed kcp).acklist = [] := by
    unfold flushProbed flushProbe
    repeat' split
    all_goals rfl
  have moved : (flushMoved kcp).acklist = [] :=
    flushMove_induct (fun moved => moved.acklist = []) (fun _ _ _ _ holds => holds) _ _ probed
  rw [ikcpFlush, if_neg (by simp [updated]), congested]
  exact moved

/-- A flush numbers what it puts into flight. -/
theorem Tied.ikcpFlush (tied : kcp.Tied Sent Held Peer limit) (queued : kcp.Queued Sent) :
    (ikcpFlush kcp).1.Tied Sent Held Peer limit := by
  have receiver := receiver_ikcpFlush kcp
  cases updated : kcp.updated with
  | false =>
      rw [KcpRs.ikcpFlush, if_pos updated]
      exact tied
  | true =>
      have next : (KcpRs.ikcpFlush kcp).1.sndNxt = (flushMoved kcp).sndNxt :=
        congrArg Sender.sndNxt (sender_ikcpFlush updated)
      have moved : ∀ number < (flushMoved kcp).sndNxt,
          Held number ∨ ∃ seg ∈ (flushMoved kcp).sndBuf, seg.sn = BitVec.ofNat 32 number := by
        refine flushMove_induct (fun block => ∀ number < block.sndNxt,
          Held number ∨ ∃ seg ∈ block.sndBuf, seg.sn = BitVec.ofNat 32 number) ?_ _ _ ?_
        · intro block newseg rest _ covered number below
          simp only [flushTake] at below ⊢
          rcases Nat.lt_succ_iff_lt_or_eq.1 below with earlier | rfl
          · refine (covered number earlier).imp_right ?_
            rintro ⟨seg, member, sn⟩
            exact ⟨seg, List.mem_append_left _ member, sn⟩
          · exact .inr ⟨_, List.mem_append_right _ (List.mem_singleton.2 rfl), rfl⟩
        · have sender := sender_flushProbed kcp
          simp only [Ikcpcb.sender, Sender.mk.injEq] at sender
          obtain ⟨_, _, buffer, _, same⟩ := sender
          rw [same, buffer]
          exact tied.covered
      refine ⟨tied.flying.ikcpFlush queued, ?_, tied.arrived.congr receiver, ?_⟩
      · rw [next, sndBuf_ikcpFlush updated]
        refine fun number below => (moved number below).imp_right ?_
        rintro ⟨seg, member, sn⟩
        exact ⟨_, List.mem_map_of_mem member, (flushVisit_kept _ _ seg).2.1.trans sn⟩
      · simp [acklist_ikcpFlush updated]

theorem Tied.ikcpUpdate (tied : kcp.Tied Sent Held Peer limit) (queued : kcp.Queued Sent)
    (current : U32) : (ikcpUpdate kcp current).1.Tied Sent Held Peer limit := by
  obtain ⟨tsFlush, idle | flush⟩ := ikcpUpdate_cases kcp current
  · rw [idle]
    exact tied.congr (tied.flying.fewer rfl rfl rfl (List.Sublist.refl _)) rfl rfl rfl rfl
  · have started : Tied Sent Held Peer limit { kcp with current, updated := true, tsFlush } :=
      tied.congr (tied.flying.fewer rfl rfl rfl (List.Sublist.refl _)) rfl rfl rfl rfl
    rw [flush]
    exact started.ikcpFlush queued

/-- What a flush emits is honest. -/
theorem Tied.honest (tied : kcp.Tied Sent Held Peer limit) (small : limit < 2 ^ 31)
    (flying : kcp'.Flying Sent) (sound : kcp'.Sound) {seg : Seg}
    (emitted : Emitted kcp.conv kcp.rcvNxt32 kcp.acklist kcp'.sndBuf seg) :
    seg.Honest Sent kcp'.sndNxt kcp.Has := by
  have most := tied.arrived.most
  obtain ⟨una, source⟩ := emitted
  refine ⟨⟨kcp.rcvNxt, by omega, una, fun _ below => .inl below⟩, fun command => ?_, fun command => ?_⟩
  · rcases source with inside | ⟨_, ack | ask | tell⟩
    · exact absurd (command.symm.trans (sound.push seg inside)) (by decide)
    · exact tied.acks _ ack.2
    · exact absurd (command.symm.trans ask) (by decide)
    · exact absurd (command.symm.trans tell) (by decide)
  · rcases source with inside | ⟨_, ack | ask | tell⟩
    · obtain ⟨una, flight⟩ := flying
      obtain ⟨number, stands, _, below⟩ := flight.window.exists_number (List.mem_map_of_mem inside)
      exact ⟨number, below, stands⟩
    · exact absurd (command.symm.trans ack.1) (by decide)
    · exact absurd (command.symm.trans ask) (by decide)
    · exact absurd (command.symm.trans tell) (by decide)

/-- Taking a message takes its segments. -/
theorem Tied.recvMoved (tied : kcp.Tied Sent Held Peer limit) (small : limit < 2 ^ 31) :
    (recvMoved kcp false).Tied Sent Held Peer limit ∧
      (recvMoved kcp false).taken = kcp.taken + (takeMessage kcp.rcvQueue).1.length ∧
      ∀ number < 2 ^ 31, (recvMoved kcp false).Has number ↔ kcp.Has number := by
  obtain ⟨arrived, taken, has⟩ := tied.arrived.recvMoved small
  obtain ⟨probe, equal⟩ := recvMoved_eq kcp false
  refine ⟨⟨?_, ?_, arrived, fun ack member => ?_⟩, taken, has⟩
  · rw [equal]
    exact tied.flying.fewer rfl rfl rfl (List.Sublist.refl _)
  · rw [equal]
    exact tied.covered
  · rw [equal] at member
    obtain ⟨number, near, same, there⟩ := tied.acks ack member
    exact ⟨number, near, same, (has number near).2 there⟩

end Ikcpcb
end KcpRs
