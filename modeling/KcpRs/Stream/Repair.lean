import KcpRs.Engine.Probing
import KcpRs.Engine.Timer
import KcpRs.Engine.Transfer
import KcpRs.Stream.Packing

/-!
# Losses are repaired

A segment in flight that nobody acknowledges is sent again when its timer has run out, at the latest
by the next flush (`lost_segment_resent`). A data segment that has been processed is acknowledged, at
the latest by the next flush, and who processes the acknowledgement has the segment no longer in
flight (`received_segment_acknowledged`).
-/

namespace KcpRs

open Lib

variable {kcp : Ikcpcb} {conv : U32}

/-- A call flushes the block as it is or with its clock set, or it is input, or it leaves alone what
is in flight and what has to be acknowledged. -/
theorem respond_flush (kcp : Ikcpcb) (call : EngineCall) :
    (∃ block, kcp.Retimed block ∧
      engine.respond kcp call = ((ikcpFlush block).1, { packets := (ikcpFlush block).2 })) ∨
    (∃ packet, call = .input packet) ∨
    (engine.respond kcp call).1.sndBuf = kcp.sndBuf ∧
      (engine.respond kcp call).1.acklist = kcp.acklist := by
  cases call with
  | input packet => exact .inr (.inl ⟨packet, rfl⟩)
  | send data len =>
      obtain ⟨queue, count, equal⟩ := ikcpSend_queue kcp data len
      simp only [engine, EngineCall.run]
      rw [equal]
      exact .inr (.inr ⟨rfl, rfl⟩)
  | recv len =>
      simp only [engine, EngineCall.run]
      rcases ikcpRecv_moved kcp len with same | moved
      · rw [same]
        exact .inr (.inr ⟨rfl, rfl⟩)
      · obtain ⟨probe, equal⟩ := recvMoved_eq kcp (len < 0)
        rw [moved, equal]
        exact .inr (.inr ⟨rfl, rfl⟩)
  | update current =>
      simp only [engine, EngineCall.run]
      obtain ⟨tsFlush, idle | flush⟩ := ikcpUpdate_cases kcp current
      · rw [idle]
        exact .inr (.inr ⟨rfl, rfl⟩)
      · rw [flush]
        exact .inl ⟨_, ⟨current, true, tsFlush, fun _ => rfl, rfl⟩, rfl⟩
  | flush => exact .inl ⟨kcp, .refl kcp, rfl⟩
  | check | nodelay | wndsize => exact .inr (.inr ⟨rfl, rfl⟩)

/-- A block of a session for `conv` that has been updated once. -/
structure Ikcpcb.Open (conv : U32) (kcp : Ikcpcb) : Prop where
  regular : kcp.Regular
  own : kcp.Own
  updated : kcp.updated
  conv : kcp.conv = conv

theorem Ikcpcb.Own.respond (own : kcp.Own) (call : EngineCall) :
    (engine.respond kcp call).1.Own := by
  cases call with
  | send data len =>
      obtain ⟨queue, count, equal⟩ := ikcpSend_queue kcp data len
      simp only [engine, EngineCall.run]
      rw [equal]
      exact own
  | input packet =>
      intro seg member
      exact (own.ikcpInput kcp.conv packet seg member).trans
        (congrArg InputKept.conv (inputKept_ikcpInput kcp packet)).symm
  | recv len =>
      simp only [engine, EngineCall.run]
      rcases ikcpRecv_moved kcp len with same | moved
      · rw [same]
        exact own
      · obtain ⟨probe, equal⟩ := recvMoved_eq kcp (len < 0)
        rw [moved, equal]
        exact own
  | update current => exact own.ikcpUpdate current
  | flush => exact own.ikcpFlush
  | check | nodelay | wndsize => exact own

theorem Ikcpcb.Open.respond (opened : kcp.Open conv) (call : EngineCall) :
    (engine.respond kcp call).1.Open conv := by
  have started : (engine.respond kcp call).1.updated ∧ (engine.respond kcp call).1.conv = conv := by
    rcases respond_cases kcp call with ⟨block, ⟨current, updated, tsFlush, before, rfl⟩, flushed⟩ |
        quiet
    · rw [flushed]
      exact ⟨(updated_ikcpFlush _).trans (before opened.updated),
        (conv_ikcpFlush _).trans opened.conv⟩
    · exact ⟨quiet.updated opened.updated, quiet.conv.trans opened.conv⟩
  exact ⟨opened.regular.respond call, opened.own.respond call, started.1, started.2⟩

theorem Ikcpcb.Open.retimed {block : Ikcpcb} (opened : kcp.Open conv) (retimed : kcp.Retimed block) :
    block.Open conv := by
  have regular := opened.regular.retimed retimed
  obtain ⟨current, updated, tsFlush, before, rfl⟩ := retimed
  exact ⟨regular, opened.own, before opened.updated, opened.conv⟩

/-- The blocks of a session from its first update on. -/
theorem open_run {mtu : Int} (most : mtu < 2 ^ 30) {calls : List EngineCall}
    (updated : (engine.run (engineStart conv mtu) calls).1.updated) :
    (engine.run (engineStart conv mtu) calls).1.Open conv := by
  obtain ⟨regular, same⟩ := regular_run most calls
  have start : (engineStart conv mtu).Own := by
    unfold engineStart ikcpSetmtu
    split <;> exact List.forall_mem_nil _
  exact ⟨regular, Transducer.invariant (fun _ call own => Ikcpcb.Own.respond own call) start,
    updated, same⟩

/-- Everything that a flush has to send is processed by a peer of the conv. -/
theorem Ikcpcb.Open.carried (opened : kcp.Open conv) {seg : Seg} (member : seg ∈ sentSegs kcp) :
    ∃ packet ∈ (ikcpFlush kcp).2, packet.length < 2 ^ 31 ∧
      (seg.head, seg.data) ∈ accepted conv packet.length packet := by
  obtain ⟨groups, whole, _, packets⟩ := ikcpFlush_groups opened.updated
  rw [← whole] at member
  obtain ⟨group, inside, present⟩ := List.mem_flatten.1 member
  have flushed : encodePacket group ∈ (ikcpFlush kcp).2 := by
    rw [packets]
    exact List.mem_map_of_mem inside
  have wellFormed : ∀ other ∈ group, other.conv = conv ∧ isCommand other.cmd := by
    intro other among
    rw [← opened.conv]
    refine wellFormed_sentSegs opened.own.ikcpFlush opened.regular.sound.ikcpFlush opened.updated
      other ?_
    rw [← whole]
    exact List.mem_flatten_of_mem inside among
  have short := (opened.regular.short flushed).2
  refine ⟨_, flushed, short, ?_⟩
  rw [(accepted_encodePacket (length_le_length_encodePacket group)
    (fun seg member => (wellFormed seg member).1) (fun seg member => (wellFormed seg member).2)
    short).1]
  exact List.mem_map_of_mem present

/-! ## What is lost is sent again -/

/-- The call is not an input of a packet that acknowledges the number. -/
def EngineCall.Spares (conv sn : U32) : EngineCall → Prop
  | .input packet => ∀ segment ∈ accepted conv packet.length packet,
      itimediff segment.1.una sn ≤ 0 ∧ (segment.1.cmd = ikcpCmdAck → segment.1.sn ≠ sn)
  | _ => True

/-- The call sends a packet that carries the data of the segment under its number. -/
def EngineCall.Repeats (conv : U32) (seg : Seg) (kcp : Ikcpcb) (call : EngineCall) : Prop :=
  ∃ packet ∈ (engine.respond kcp call).2.packets, packet.length < 2 ^ 31 ∧
    ∃ segment ∈ accepted conv packet.length packet, segment.1.cmd = ikcpCmdPush ∧
      segment.1.sn = seg.sn ∧ segment.1.frg = seg.frg ∧ segment.2 = seg.data

/-- The segment is in flight, and its timer is what it was. -/
def Ikcpcb.Carrying (seg : Seg) (kcp : Ikcpcb) : Prop :=
  ∃ other ∈ kcp.sndBuf, other.view = seg.view ∧ (other.xmit = 0 ∨ other.resendts = seg.resendts)

/-- Only an acknowledgement takes a segment out of flight. -/
theorem inputStable_carrying {seg : Seg} {segments : List (Head × Bytes)}
    (spared : ∀ segment ∈ segments, itimediff segment.1.una seg.sn ≤ 0 ∧
      (segment.1.cmd = ikcpCmdAck → segment.1.sn ≠ seg.sn)) :
    InputStable (Ikcpcb.Carrying seg) segments := by
  constructor
  case una =>
    rintro segment member block ⟨other, inside, same, timer⟩
    refine ⟨other, (Ikcpcb.mem_parseUnaLoop inside).resolve_left fun past => ?_, same, timer⟩
    rw [show other.sn = seg.sn from congrArg Prod.fst same] at past
    exact absurd (spared segment member).1 (not_le.2 past)
  case ack =>
    rintro segment member ack block ⟨other, inside, same, timer⟩
    unfold ikcpParseAck
    split
    · exact ⟨other, inside, same, timer⟩
    · refine ⟨other, (Ikcpcb.mem_parseAckLoop inside).resolve_left fun acked => ?_, same, timer⟩
      exact (spared segment member).2 ack (acked.trans (congrArg Prod.fst same))
  case push =>
    intro segment _ _ block holds
    obtain ⟨acklist, equal⟩ := inputPush_eq block segment.1 segment.2
    rw [equal]
    exact holds
  case shrink =>
    intro block holds
    unfold ikcpShrinkBuf
    split <;> exact holds
  case fastack =>
    rintro block sn ⟨other, inside, same, timer⟩
    unfold ikcpParseFastack
    split
    · exact ⟨other, inside, same, timer⟩
    · have kept := map_parseFastackLoop (fun seg => (seg.view, seg.xmit, seg.resendts))
        (fun _ _ => rfl) sn block.sndBuf
      have mapped := List.mem_map_of_mem (f := fun seg => (seg.view, seg.xmit, seg.resendts)) inside
      rw [← kept] at mapped
      obtain ⟨again, inside, equal⟩ := List.mem_map.1 mapped
      simp only [Prod.mk.injEq] at equal
      obtain ⟨view, xmit, resendts⟩ := equal
      exact ⟨again, inside, view.trans same, by rwa [xmit, resendts]⟩
  all_goals
    intros
    assumption

/-- The segment is in flight in a session. -/
structure Ikcpcb.Outstanding (conv : U32) (seg : Seg) (kcp : Ikcpcb) : Prop where
  opened : kcp.Open conv
  carrying : kcp.Carrying seg

/-- A flush sends a segment in flight, or its timer still runs. -/
theorem Ikcpcb.Outstanding.flush {seg : Seg} (outstanding : kcp.Outstanding conv seg) :
    EngineCall.flush.Repeats conv seg kcp ∨
      itimediff kcp.current seg.resendts < 0 ∧ (ikcpFlush kcp).1.Carrying seg := by
  obtain ⟨opened, other, inside, same, timer⟩ := outstanding
  obtain ⟨fresh, moved, _⟩ := sndBuf_flushMoved kcp
  have inside : other ∈ (flushMoved kcp).sndBuf := by
    rw [moved]
    exact List.mem_append_left _ inside
  have visited : flushVisit (flushMoved kcp) (flushSeg kcp).wnd other ∈ (ikcpFlush kcp).1.sndBuf := by
    rw [sndBuf_ikcpFlush opened.updated]
    exact List.mem_map_of_mem inside
  by_cases due : resendKind (flushMoved kcp) other = .none
  · have current : (flushMoved kcp).current = kcp.current :=
      congrArg FlushKept.current (flushKept_flushMoved kcp)
    have still : flushVisit (flushMoved kcp) (flushSeg kcp).wnd other = other := by
      unfold flushVisit
      rw [if_pos due, due]
      rfl
    rw [still] at visited
    unfold resendKind at due
    rw [current] at due
    split at due
    · cases due
    · rename_i sent
      rw [timer.resolve_left sent] at due
      split at due
      · cases due
      · rename_i running
        exact .inr ⟨not_le.1 running, other, visited, same, timer⟩
  · have sent : flushVisit (flushMoved kcp) (flushSeg kcp).wnd other ∈ sentSegs kcp :=
      List.mem_append_right _ (List.mem_map_of_mem
        (List.mem_filter.2 ⟨inside, decide_eq_true due⟩))
    obtain ⟨packet, flushed, short, processed⟩ := opened.carried sent
    obtain ⟨payload, sn, _⟩ := flushVisit_kept (flushMoved kcp) (flushSeg kcp).wnd other
    have equal : (flushVisit (flushMoved kcp) (flushSeg kcp).wnd other).payload = seg.payload :=
      payload.trans (congrArg Prod.snd same)
    exact .inl ⟨packet, flushed, short, _, processed,
      opened.regular.sound.ikcpFlush.push _ visited, sn.trans (congrArg Prod.fst same),
      congrArg Payload.frg equal, congrArg Payload.data equal⟩

/-- A call that spares a segment in flight sends it, or leaves it in flight. -/
theorem Ikcpcb.Outstanding.respond {seg : Seg} (outstanding : kcp.Outstanding conv seg)
    {call : EngineCall} (spares : call.Spares conv seg.sn) :
    call.Repeats conv seg kcp ∨ (engine.respond kcp call).1.Outstanding conv seg := by
  have opened := outstanding.opened.respond call
  rcases respond_flush kcp call with ⟨block, retimed, flushed⟩ | ⟨packet, rfl⟩ | ⟨buffer, _⟩
  · have ready := outstanding.opened.retimed retimed
    obtain ⟨current, updated, tsFlush, _, rfl⟩ := retimed
    rcases Outstanding.flush ⟨ready, outstanding.carrying⟩ with repeats | ⟨_, carrying⟩
    · refine .inl ?_
      unfold EngineCall.Repeats
      rw [flushed]
      exact repeats
    · rw [flushed] at opened ⊢
      exact .inr ⟨opened, carrying⟩
  · rw [← outstanding.opened.conv] at spares
    exact .inr ⟨opened, (inputStable_carrying spares).ikcpInput outstanding.carrying⟩
  · refine .inr ⟨opened, ?_⟩
    rw [Carrying, buffer]
    exact outstanding.carrying

/-- What is lost is sent again. In a session, take a segment that is in flight, and any calls that input
no packet which acknowledges it. When its retransmission timer has run out at the end and the block
is flushed, one of these calls has sent the segment again, with its number and its data. -/
theorem lost_segment_resent {conv : U32} {mtu : Int} (most : mtu < 2 ^ 30)
    {before calls : List EngineCall} {seg : Seg}
    (updated : (engine.run (engineStart conv mtu) before).1.updated)
    (flying : seg ∈ (engine.run (engineStart conv mtu) before).1.sndBuf)
    (spared : ∀ call ∈ calls, call.Spares conv seg.sn)
    (late : 0 ≤ itimediff
      (engine.run (engine.run (engineStart conv mtu) before).1 calls).1.current seg.resendts) :
    let kcp := (engine.run (engineStart conv mtu) before).1
    ∃ during call after, calls ++ [.flush] = during ++ call :: after ∧
      call.Repeats conv seg (engine.run kcp during).1 := by
  intro kcp
  have outstanding : kcp.Outstanding conv seg :=
    ⟨open_run most updated, seg, flying, rfl, .inr rfl⟩
  refine Transducer.met_by (fun _ call member _ outstanding =>
    outstanding.respond (spared call member)) (Transducer.along_true calls) outstanding ?_
  exact fun outstanding => outstanding.flush.resolve_right fun running => not_le.2 running.1 late

/-- The SYN frame of a new session is lost, and a probe of the peer arrives before it is sent again. -/
theorem lost_segment_resent_first :
    let start := [EngineCall.update 0, .send [7] 1, .flush]
    let probe : Seg := { conv := 1, cmd := ikcpCmdWask, wnd := 256 }
    let calls := [EngineCall.input (encodePacket [probe]), .update 100, .update 900]
    ∃ seg ∈ (engine.run (engineStart 1 1400) start).1.sndBuf, seg.data = [7] ∧
      ∃ during call after, calls ++ [EngineCall.flush] = during ++ call :: after ∧
        call.Repeats 1 seg (engine.run (engine.run (engineStart 1 1400) start).1 during).1 := by
  intro start probe calls
  have updated : (engine.run (engineStart 1 1400) start).1.updated := by decide +kernel
  have flying : ∃ seg ∈ (engine.run (engineStart 1 1400) start).1.sndBuf,
      seg.data = [7] ∧ seg.sn = 0 ∧ 0 ≤ itimediff
        (engine.run (engine.run (engineStart 1 1400) start).1 calls).1.current seg.resendts := by
    decide +kernel
  have processed : ∀ segment ∈ accepted 1 (encodePacket [probe]).length (encodePacket [probe]),
      itimediff segment.1.una 0 ≤ 0 ∧ (segment.1.cmd = ikcpCmdAck → segment.1.sn ≠ 0) := by
    decide +kernel
  have spared : ∀ call ∈ calls, call.Spares 1 0 := by simpa [calls, EngineCall.Spares] using processed
  obtain ⟨seg, inside, data, sn, late⟩ := flying
  rw [← sn] at spared
  exact ⟨seg, inside, data, lost_segment_resent (by decide) updated inside spared late⟩

/-! ## What has been received is acknowledged -/

/-- Only data segments concern the receive side and what has to be acknowledged. -/
theorem inputStable_of_push {Invariant : Ikcpcb → Prop} {segments : List (Head × Bytes)}
    (congr : ∀ block block' : Ikcpcb, block'.receiver = block.receiver →
      block'.acklist = block.acklist → block'.rcvWnd = block.rcvWnd → Invariant block →
      Invariant block')
    (push : ∀ segment ∈ segments, ∀ block, Invariant block →
      Invariant (inputPush block segment.1 segment.2)) : InputStable Invariant segments := by
  constructor
  case push => exact fun segment member _ => push segment member
  case shrink =>
    intro block holds
    unfold ikcpShrinkBuf
    split <;> exact congr block _ rfl rfl rfl holds
  case ack =>
    intro segment _ _ block holds
    unfold ikcpParseAck
    split <;> exact congr block _ rfl rfl rfl holds
  case fastack =>
    intro block sn holds
    unfold ikcpParseFastack
    split <;> exact congr block _ rfl rfl rfl holds
  all_goals
    intros
    rename_i holds
    refine congr _ _ ?_ ?_ ?_ holds <;> rfl

theorem inputStable_acklist (ack : U32 × U32) (segments : List (Head × Bytes)) :
    InputStable (fun block => ack ∈ block.acklist) segments := by
  refine inputStable_of_push (fun _ _ _ same _ owed => same.symm ▸ owed) ?_
  intro segment _ block owed
  unfold inputPush ikcpAckPush
  dsimp only
  split_ifs
  · rw [ikcpParseData_eq]
    exact List.mem_append_left _ owed
  · exact List.mem_append_left _ owed
  · exact owed

/-- The receive window does not move back. -/
theorem inputStable_rcvNxt (least width : Nat) (segments : List (Head × Bytes)) :
    InputStable (fun block => least ≤ block.rcvNxt ∧ block.rcvWnd = width) segments := by
  refine inputStable_of_push (fun block block' receiver _ wnd ⟨behind, same⟩ => ?_) ?_
  · have next : block'.rcvNxt = block.rcvNxt := congrArg Ikcpcb.Receiver.rcvNxt receiver
    exact ⟨next.symm ▸ behind, wnd.trans same⟩
  · intro segment _ block ⟨behind, same⟩
    have later := Ikcpcb.rcvNxt_le_inputPush block segment.1 segment.2
    obtain ⟨acklist, equal⟩ := inputPush_eq block segment.1 segment.2
    refine ⟨behind.trans later, ?_⟩
    rw [equal]
    exact same

/-- A data segment in the receive window or before it has to be acknowledged. -/
theorem owed_inputSegment (st : InputState) {segment : Head × Bytes}
    (push : segment.1.cmd = ikcpCmdPush)
    (inside : itimediff segment.1.sn (st.kcp.rcvNxt32 + BitVec.ofNat 32 st.kcp.rcvWnd) < 0) :
    (segment.1.sn, segment.1.ts) ∈ (inputSegment st segment.1 segment.2).kcp.acklist := by
  have shrunk (kcp : Ikcpcb) : (ikcpShrinkBuf kcp).rcvNxt32 = kcp.rcvNxt32 ∧
      (ikcpShrinkBuf kcp).rcvWnd = kcp.rcvWnd := by
    unfold ikcpShrinkBuf
    split <;> exact ⟨rfl, rfl⟩
  unfold inputSegment
  rw [if_neg (by rw [push]; decide), if_pos push]
  unfold inputPush
  rw [(shrunk _).1, (shrunk _).2, if_pos (by exact inside)]
  dsimp only
  split
  · rw [ikcpParseData_eq]
    exact List.mem_append_right _ List.mem_cons_self
  · exact List.mem_append_right _ List.mem_cons_self

/-- A data segment with a number below the end of the receive window has to be acknowledged when its
packet has been processed. -/
theorem owed_ikcpInput {packet : Bytes} (short : packet.length < 2 ^ 31) {segment : Head × Bytes}
    (processed : segment ∈ accepted kcp.conv packet.length packet)
    (push : segment.1.cmd = ikcpCmdPush) {number : Nat} (sn : segment.1.sn = BitVec.ofNat 32 number)
    (inside : number < kcp.rcvNxt + kcp.rcvWnd)
    (near : (ikcpInput kcp packet).2.rcvNxt + kcp.rcvWnd ≤ number + 2 ^ 31) :
    (segment.1.sn, segment.1.ts) ∈ (ikcpInput kcp packet).2.acklist := by
  have long := not_short_of_accepted short processed
  obtain ⟨st, back, kept, looped⟩ := inputLoop_split processed
  have before := kept _ (inputStable_rcvNxt kcp.rcvNxt kcp.rcvWnd) ⟨le_rfl, rfl⟩
  have after : st.kcp.rcvNxt ≤ (ikcpInput kcp packet).2.rcvNxt := by
    have window := inputStable_rcvNxt st.kcp.rcvNxt st.kcp.rcvWnd (segment :: back)
    refine (window.ikcpInput_of_loop ?_ (absurd · long)).1
    rw [looped]
    exact window.foldl (List.subset_cons_self _ _)
      (window.inputSegment List.mem_cons_self ⟨le_rfl, rfl⟩)
  have owed := inputStable_acklist (segment.1.sn, segment.1.ts) back
  refine owed.ikcpInput_of_loop ?_ (absurd · long)
  rw [looped]
  refine owed.foldl (List.Subset.refl _) (owed_inputSegment st push ?_)
  rw [sn, before.2, Ikcpcb.rcvNxt32, ← BitVec.ofNat_add, itimediff,
    serialDiff_of_near (by decide) (by simp only [Nat.reduceSub]; omega)
      (by simp only [Nat.reduceSub]; omega)]
  omega

/-- The call sends a packet that acknowledges the segment, and who processes the packet has it no
longer in flight. -/
def EngineCall.Acknowledges (conv : U32) (ack : U32 × U32) (kcp : Ikcpcb) (call : EngineCall) : Prop :=
  ∃ reply ∈ (engine.respond kcp call).2.packets, reply.length < 2 ^ 31 ∧
    (∃ segment ∈ accepted conv reply.length reply, segment.1.cmd = ikcpCmdAck ∧
      (segment.1.sn, segment.1.ts) = ack) ∧
    ∀ peer : Ikcpcb, peer.conv = conv → peer.Flying (fun _ _ => True) →
      ∀ seg ∈ (ikcpInput peer reply).2.sndBuf, seg.sn ≠ ack.1

/-- The segment has been processed in a session and has not been acknowledged. -/
structure Ikcpcb.Owing (conv : U32) (ack : U32 × U32) (kcp : Ikcpcb) : Prop where
  opened : kcp.Open conv
  owed : ack ∈ kcp.acklist

/-- A flush acknowledges what has to be acknowledged. -/
theorem Ikcpcb.Owing.flush {ack : U32 × U32} (owing : kcp.Owing conv ack) :
    EngineCall.flush.Acknowledges conv ack kcp := by
  have member : { flushSeg kcp with sn := ack.1, ts := ack.2 } ∈ sentSegs kcp :=
    List.mem_append_left _ (List.mem_append_left _ (List.mem_map_of_mem owing.owed))
  obtain ⟨reply, flushed, short, processed⟩ := owing.opened.carried member
  refine ⟨reply, flushed, short, ⟨_, processed, rfl, rfl⟩, fun peer same flying => ?_⟩
  exact acked_ikcpInput flying (same.symm ▸ processed) (not_short_of_accepted short processed) rfl

theorem Ikcpcb.Owing.respond {ack : U32 × U32} (owing : kcp.Owing conv ack) (call : EngineCall) :
    call.Acknowledges conv ack kcp ∨ (engine.respond kcp call).1.Owing conv ack := by
  have opened := owing.opened.respond call
  rcases respond_flush kcp call with ⟨block, retimed, flushed⟩ | ⟨packet, rfl⟩ | ⟨_, same⟩
  · have ready := owing.opened.retimed retimed
    obtain ⟨current, updated, tsFlush, _, rfl⟩ := retimed
    have acknowledges := Owing.flush ⟨ready, owing.owed⟩
    refine .inl ?_
    unfold EngineCall.Acknowledges
    rw [flushed]
    exact acknowledges
  · exact .inr ⟨opened, (inputStable_acklist ack _).ikcpInput owing.owed⟩
  · refine .inr ⟨opened, ?_⟩
    rw [same]
    exact owing.owed

/-- What has been received is acknowledged. In a session, take a data segment of a packet that is
processed, with a number below the end of the receive window (it may have been received before).
Whatever calls come then, one of them not later than the next flush sends a packet that acknowledges
the segment; and every block of the conv that processes this packet, at any time, has nothing in
flight under the number any more. -/
theorem received_segment_acknowledged {conv : U32} {mtu : Int} (most : mtu < 2 ^ 30)
    {before calls : List EngineCall} {packet : Bytes} (short : packet.length < 2 ^ 31)
    {segment : Head × Bytes} (processed : segment ∈ accepted conv packet.length packet)
    (push : segment.1.cmd = ikcpCmdPush) {number : Nat} (sn : segment.1.sn = BitVec.ofNat 32 number)
    (updated : (engine.run (engineStart conv mtu) before).1.updated)
    (inside : number < (engine.run (engineStart conv mtu) before).1.rcvNxt +
      (engine.run (engineStart conv mtu) before).1.rcvWnd)
    (near : (ikcpInput (engine.run (engineStart conv mtu) before).1 packet).2.rcvNxt +
      (engine.run (engineStart conv mtu) before).1.rcvWnd ≤ number + 2 ^ 31) :
    let kcp := (ikcpInput (engine.run (engineStart conv mtu) before).1 packet).2
    ∃ during call after, calls ++ [.flush] = during ++ call :: after ∧
      call.Acknowledges conv (segment.1.sn, segment.1.ts) (engine.run kcp during).1 := by
  intro kcp
  have opened := @open_run conv mtu most before updated
  rw [← opened.conv] at processed
  have owing : kcp.Owing conv (segment.1.sn, segment.1.ts) :=
    ⟨opened.respond (.input packet), owed_ikcpInput short processed push sn inside near⟩
  exact Transducer.met_by (fun _ call _ _ owing => owing.respond call)
    (Transducer.along_true calls) owing fun owing => owing.flush

/-- A new session receives its second segment first, and the application tries to read before the next
flush. -/
theorem received_segment_acknowledged_ahead :
    let data : Seg := { conv := 1, cmd := ikcpCmdPush, wnd := 128, ts := 5, sn := 1, data := [7] }
    let received := (ikcpInput (engine.run (engineStart 1 1400) [.update 0]).1 (encodePacket [data])).2
    ∃ during call after, [EngineCall.recv 100, .flush] = during ++ call :: after ∧
      call.Acknowledges 1 (1, 5) (engine.run received during).1 := by
  intro data received
  have processed : (data.head, data.data) ∈
      accepted 1 (encodePacket [data]).length (encodePacket [data]) := by decide +kernel
  exact @received_segment_acknowledged 1 1400 (by decide) [.update 0] [.recv 100] _ (by decide +kernel)
    _ processed rfl 1 rfl (by decide +kernel) (by decide +kernel) (by decide +kernel)

end KcpRs
