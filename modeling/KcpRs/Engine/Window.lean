import KcpRs.Lib.Window
import KcpRs.Engine.Send
import KcpRs.Engine.Input
import KcpRs.Engine.Flush

/-!
# The send window

The segments in flight stand for growing numbers between `snd_una` and `snd_nxt`, and these
two are never further apart than the send window (`Flight`). Acknowledgements are chosen by
the peer and compared on a circle, but they can only take segments out; new ones enter at
`snd_nxt` while the window is open.
-/

namespace KcpRs

open Lib

/-- The number and the payload of a segment, which nothing changes while it is in flight. -/
def Seg.view (seg : Seg) : U32 × Payload := (seg.sn, seg.payload)

/-- The residue is that of `number`, and the payload is what `Sent` says was sent under it. -/
def Stands (Sent : Nat → Payload → Prop) (view : U32 × Payload) (number : Nat) : Prop :=
  view.1 = BitVec.ofNat 32 number ∧ Sent number view.2

/-- What is in flight stands for numbers of the window that starts at `una`. -/
structure Ikcpcb.Flight (Sent : Nat → Payload → Prop) (kcp : Ikcpcb) (una : Nat) : Prop where
  base : kcp.sndUna = BitVec.ofNat 32 una
  most : una ≤ kcp.sndNxt
  span : kcp.sndNxt ≤ una + kcp.sndWnd
  width : kcp.sndWnd < 2 ^ 31
  window : Window (Stands Sent) una kcp.sndNxt (kcp.sndBuf.map Seg.view)

/-- What is in flight stands for numbers of the send window. -/
def Ikcpcb.Flying (Sent : Nat → Payload → Prop) (kcp : Ikcpcb) : Prop := ∃ una, kcp.Flight Sent una

variable {Sent : Nat → Payload → Prop} {kcp kcp' : Ikcpcb} {una : Nat}

namespace Ikcpcb

/-- The send window bounds what is in flight. -/
theorem Flying.length_le (flying : kcp.Flying Sent) : kcp.sndBuf.length ≤ kcp.sndWnd := by
  obtain ⟨una, flight⟩ := flying
  have count := flight.window.length_le
  have span := flight.span
  rw [List.length_map] at count
  omega

/-- Segments leave the window, or change what does not matter. -/
theorem Flight.fewer (flight : kcp.Flight Sent una) (base : kcp'.sndUna = kcp.sndUna)
    (next : kcp'.sndNxt = kcp.sndNxt) (width : kcp'.sndWnd = kcp.sndWnd)
    (fewer : (kcp'.sndBuf.map Seg.view).Sublist (kcp.sndBuf.map Seg.view)) :
    kcp'.Flight Sent una where
  base := base.trans flight.base
  most := flight.most.trans_eq next.symm
  span := by
    rw [next, width]
    exact flight.span
  width := width.symm ▸ flight.width
  window := next.symm ▸ flight.window.sublist fewer

theorem Flying.fewer (flying : kcp.Flying Sent) (base : kcp'.sndUna = kcp.sndUna)
    (next : kcp'.sndNxt = kcp.sndNxt) (width : kcp'.sndWnd = kcp.sndWnd)
    (fewer : (kcp'.sndBuf.map Seg.view).Sublist (kcp.sndBuf.map Seg.view)) :
    kcp'.Flying Sent := by
  obtain ⟨una, flight⟩ := flying
  exact ⟨una, flight.fewer base next width fewer⟩

/-- `ikcp_shrink_buf` moves the base up to the first segment in flight. -/
theorem Flying.ikcpShrinkBuf (flying : kcp.Flying Sent) : (ikcpShrinkBuf kcp).Flying Sent := by
  obtain ⟨una, flight⟩ := flying
  unfold KcpRs.ikcpShrinkBuf
  split
  · rename_i seg rest buffered
    have window := flight.window
    rw [buffered, List.map_cons] at window
    obtain ⟨number, ⟨sn, _⟩, least, below, shifted, _⟩ := window.head
    have span := flight.span
    refine ⟨number, sn, below.le, ?_, flight.width, ?_⟩
    · simp only
      omega
    · simpa only [buffered, List.map_cons] using shifted
  · rename_i empty
    refine ⟨kcp.sndNxt, rfl, le_rfl, Nat.le_add_right _ _, flight.width, ?_⟩
    simp only [empty, List.map_nil]
    exact Window.nil _ _ _

/-- Acknowledgements only take segments out of the window. -/
theorem inputStable_flying (segments : List (Head × Bytes)) : InputStable (Flying Sent) segments := by
  constructor
  case push =>
    intro segment _ _ block holds
    obtain ⟨acklist, equal⟩ := inputPush_eq block segment.1 segment.2
    rw [equal]
    exact holds.fewer rfl rfl rfl (List.Sublist.refl _)
  case una =>
    intro segment _ block holds
    exact holds.fewer rfl rfl rfl ((parseUnaLoop_sublist _ _).map _)
  case shrink => exact fun block holds => holds.ikcpShrinkBuf
  case ack =>
    intro segment _ _ block holds
    unfold ikcpParseAck
    split
    · exact holds
    · exact holds.fewer rfl rfl rfl ((parseAckLoop_sublist _ _).map _)
  case fastack =>
    intro block sn holds
    unfold ikcpParseFastack
    split
    · exact holds
    · refine holds.fewer rfl rfl rfl ?_
      simp only [map_parseFastackLoop Seg.view fun _ _ => rfl]
      exact List.Sublist.refl _
  all_goals
    intros
    rename_i holds
    exact holds.fewer rfl rfl rfl (List.Sublist.refl _)

/-- Whatever the peer acknowledges, the window stays one. -/
theorem Flying.ikcpInput (flying : kcp.Flying Sent) (data : Bytes) :
    (ikcpInput kcp data).2.Flying Sent :=
  (inputStable_flying _).ikcpInput flying

/-- A segment enters an open window. -/
theorem Flight.flushTake (flight : kcp.Flight Sent una) {cwnd : Nat} (limit : cwnd ≤ kcp.sndWnd)
    (isOpen : itimediff kcp.sndNxt32 (kcp.sndUna + BitVec.ofNat 32 cwnd) < 0) (wnd : BitVec 16)
    (newseg : Seg) (rest : List Seg) (sent : Sent kcp.sndNxt newseg.payload) :
    (flushTake wnd kcp newseg rest).Flight Sent una := by
  have most := flight.most
  have span := flight.span
  have width := flight.width
  have room : kcp.sndNxt < una + cwnd := by
    rw [flight.base, ← BitVec.ofNat_add] at isOpen
    unfold itimediff sndNxt32 at isOpen
    rw [serialDiff_of_near (by decide) (by simp only [Nat.reduceSub]; omega)
      (by simp only [Nat.reduceSub]; omega)] at isOpen
    omega
  refine ⟨flight.base, ?_, ?_, width, ?_⟩
  · simp only [KcpRs.flushTake]
    omega
  · simp only [KcpRs.flushTake]
    omega
  · simp only [KcpRs.flushTake, List.map_append, List.map_cons, List.map_nil]
    exact flight.window.push most ⟨rfl, sent⟩

end Ikcpcb

theorem flushWindow_le (kcp : Ikcpcb) : flushWindow kcp ≤ kcp.sndWnd := by
  unfold flushWindow
  dsimp only
  split <;> omega

namespace Ikcpcb

/-- The queued segments will be sent under the next numbers. -/
def Queued (Sent : Nat → Payload → Prop) (kcp : Ikcpcb) : Prop :=
  ∀ index seg, kcp.sndQueue[index]? = some seg → Sent (kcp.sndNxt + index) seg.payload

theorem Flight.flushMoved (flight : kcp.Flight Sent una) (queued : kcp.Queued Sent) :
    (flushMoved kcp).Flight Sent una := by
  have kept := flushKept_flushProbed kcp
  have sender := sender_flushProbed kcp
  simp only [Ikcpcb.sender, Sender.mk.injEq] at sender
  obtain ⟨queue, _, buffer, _, next⟩ := sender
  have una' : (flushProbed kcp).sndUna = kcp.sndUna := congrArg FlushKept.sndUna kept
  have width : (flushProbed kcp).sndWnd = kcp.sndWnd :=
    congrArg (fun kept : FlushKept => kept.settings.sndWnd) kept
  have moved : (KcpRs.flushMoved kcp).Flight Sent una ∧ (KcpRs.flushMoved kcp).Queued Sent ∧
      (KcpRs.flushMoved kcp).sndWnd = kcp.sndWnd := by
    refine flushMove_induct_open (fun block => block.Flight Sent una ∧ block.Queued Sent ∧
      block.sndWnd = kcp.sndWnd) _ ?_ _ ⟨?_, ?_, width⟩
    · rintro block newseg rest head isOpen ⟨flight, queued, same⟩
      have limit : flushWindow (flushProbed kcp) ≤ block.sndWnd := by
        rw [same, ← width]
        exact flushWindow_le _
      refine ⟨flight.flushTake limit isOpen _ _ _ (queued 0 newseg (by simp [head])), ?_, same⟩
      intro index seg member
      have later := queued (index + 1) seg (by rw [head, List.getElem?_cons_succ]; exact member)
      simp only [KcpRs.flushTake]
      rwa [Nat.add_assoc, Nat.add_comm 1 index]
    · exact flight.fewer una' next width (by rw [buffer])
    · intro index seg member
      rw [queue] at member
      rw [next]
      exact queued index seg member
  exact moved.1

theorem Flying.ikcpFlush (flying : kcp.Flying Sent) (queued : kcp.Queued Sent) :
    (ikcpFlush kcp).1.Flying Sent := by
  cases updated : kcp.updated with
  | false =>
      rw [KcpRs.ikcpFlush, if_pos updated]
      exact flying
  | true =>
      obtain ⟨una, flight⟩ := flying
      have moved := flight.flushMoved queued
      have kept := (flushKept_ikcpFlush kcp).trans (flushKept_flushMoved kcp).symm
      have next : (KcpRs.ikcpFlush kcp).1.sndNxt = (KcpRs.flushMoved kcp).sndNxt :=
        congrArg Sender.sndNxt (sender_ikcpFlush updated)
      refine ⟨una, moved.fewer (congrArg FlushKept.sndUna kept) next
        (congrArg (fun kept : FlushKept => kept.settings.sndWnd) kept) ?_⟩
      rw [sndBuf_ikcpFlush updated, List.map_map]
      refine (List.map_congr_left fun seg _ => ?_) ▸ List.Sublist.refl _
      obtain ⟨payload, sn, _⟩ := flushVisit_kept (KcpRs.flushMoved kcp) (flushSeg kcp).wnd seg
      simp only [Function.comp_apply, Seg.view, payload, sn]

theorem Flying.ikcpUpdate (flying : kcp.Flying Sent) (queued : kcp.Queued Sent) (current : U32) :
    (ikcpUpdate kcp current).1.Flying Sent := by
  obtain ⟨tsFlush, idle | flush⟩ := ikcpUpdate_cases kcp current
  · rw [idle]
    exact flying.fewer rfl rfl rfl (List.Sublist.refl _)
  · have started : Flying Sent { kcp with current, updated := true, tsFlush } :=
      flying.fewer rfl rfl rfl (List.Sublist.refl _)
    rw [flush]
    exact started.ikcpFlush queued

end Ikcpcb

/-! ## Acknowledged segments -/

/-- The loop of `ikcp_input` comes to a segment that it processes, in a state that has everything that
input keeps, and goes on with others. -/
theorem inputLoop_split {packet : Bytes} {segment : Head × Bytes}
    (processed : segment ∈ accepted kcp.conv packet.length packet) :
    ∃ (st : InputState) (back : List (Head × Bytes)),
      (∀ Invariant, (∀ segments, InputStable Invariant segments) → Invariant kcp →
        Invariant st.kcp) ∧
      (inputLoop packet.length { kcp } packet).2 = back.foldl
        (fun st segment => inputSegment st segment.1 segment.2)
        (inputSegment st segment.1 segment.2) := by
  obtain ⟨front, back, whole⟩ := List.append_of_mem processed
  refine ⟨front.foldl (fun st segment => inputSegment st segment.1 segment.2) { kcp }, back,
    fun Invariant stable holds => (stable front).foldl (List.Subset.refl _) holds, ?_⟩
  rw [inputLoop_state, whole, List.foldl_append, List.foldl_cons]

/-- `ikcp_parse_ack` finds the segment with the number, if there is one. -/
theorem not_mem_parseAckLoop {Sent : Nat → Payload → Prop} {sn : U32} {base next : Nat}
    {segs : List Seg} (near : next ≤ base + 2 ^ 31)
    (window : Window (Stands Sent) base next (segs.map Seg.view)) :
    ∀ seg ∈ (parseAckLoop sn segs).1, seg.sn ≠ sn := by
  induction segs generalizing base with
  | nil => exact List.forall_mem_nil _
  | cons seg rest inductionHypothesis =>
      rw [List.map_cons] at window
      obtain ⟨number, ⟨first, _⟩, least, below, _, later⟩ := window.head
      have ahead : ∀ other ∈ rest, 0 < itimediff other.sn seg.sn := by
        intro other inside
        obtain ⟨number', ⟨second, _⟩, behind, below'⟩ :=
          later.exists_number (List.mem_map_of_mem inside)
        rw [show other.sn = BitVec.ofNat 32 number' from second,
          show seg.sn = BitVec.ofNat 32 number from first, itimediff,
          serialDiff_of_near (by decide) (by simp only [Nat.reduceSub]; omega)
            (by simp only [Nat.reduceSub]; omega)]
        omega
      unfold parseAckLoop
      split
      · rename_i same
        rintro other inside rfl
        have between := ahead other inside
        rw [same, itimediff_self] at between
        exact lt_irrefl 0 between
      · rename_i different
        split
        · rename_i passed
          rintro other inside rfl
          rcases List.mem_cons.1 inside with rfl | inside
          · exact different rfl
          · exact lt_asymm passed (ahead other inside)
        · exact List.forall_mem_cons.2
            ⟨fun same => different same.symm, inductionHypothesis (by omega) later⟩

/-- What is acknowledged leaves the window. -/
theorem Ikcpcb.Flying.acked {Sent : Nat → Payload → Prop} (flying : kcp.Flying Sent) (sn : U32) :
    ∀ seg ∈ (ikcpParseAck kcp sn).sndBuf, seg.sn ≠ sn := by
  obtain ⟨una, flight⟩ := flying
  have most := flight.most
  have span := flight.span
  have width := flight.width
  unfold ikcpParseAck
  split
  · rename_i outside
    rintro seg inside rfl
    obtain ⟨number, ⟨equal, _⟩, least, below⟩ :=
      flight.window.exists_number (List.mem_map_of_mem inside)
    rw [show seg.sn = BitVec.ofNat 32 number from equal, flight.base, Ikcpcb.sndNxt32, itimediff,
      itimediff, serialDiff_of_near (by decide) (by simp only [Nat.reduceSub]; omega)
        (by simp only [Nat.reduceSub]; omega),
      serialDiff_of_near (by decide) (by simp only [Nat.reduceSub]; omega)
        (by simp only [Nat.reduceSub]; omega)] at outside
    omega
  · exact not_mem_parseAckLoop (by omega) flight.window

theorem sndBuf_ikcpShrinkBuf (kcp : Ikcpcb) : (ikcpShrinkBuf kcp).sndBuf = kcp.sndBuf := by
  unfold ikcpShrinkBuf
  split <;> rfl

theorem acked_inputAck {Sent : Nat → Payload → Prop} (flying : kcp.Flying Sent) (st : InputState)
    (head : Head) : ∀ seg ∈ (inputAck st kcp head).kcp.sndBuf, seg.sn ≠ head.sn := by
  unfold inputAck
  dsimp only
  have measured : Ikcpcb.Flying Sent (if 0 ≤ itimediff kcp.current head.ts then
      ikcpUpdateAck kcp (itimediff kcp.current head.ts) else kcp) := by
    split
    · exact (Ikcpcb.inputStable_flying []).rtt _ _ flying
    · exact flying
  generalize (if 0 ≤ itimediff kcp.current head.ts then
      ikcpUpdateAck kcp (itimediff kcp.current head.ts) else kcp) = block at measured ⊢
  split <;> exact (sndBuf_ikcpShrinkBuf _).symm ▸ measured.acked head.sn

/-- Who processes an acknowledgement has the segment no longer in flight. -/
theorem acked_ikcpInput {Sent : Nat → Payload → Prop} (flying : kcp.Flying Sent) {packet : Bytes}
    {segment : Head × Bytes} (processed : segment ∈ accepted kcp.conv packet.length packet)
    (long : ¬ (BitVec.ofNat 32 packet.length).toInt < ikcpOverhead) (ack : segment.1.cmd = ikcpCmdAck) :
    ∀ seg ∈ (ikcpInput kcp packet).2.sndBuf, seg.sn ≠ segment.1.sn := by
  obtain ⟨st, back, kept, looped⟩ := inputLoop_split processed
  have window := kept _ Ikcpcb.inputStable_flying flying
  have gone : ∀ seg ∈ (inputSegment st segment.1 segment.2).kcp.sndBuf, seg.sn ≠ segment.1.sn := by
    have flies := @Ikcpcb.inputStable_flying Sent [segment]
    have known := flies.shrink _ (flies.una segment List.mem_cons_self _
      (flies.window _ segment.1.wnd.toNat window))
    unfold inputSegment
    rw [if_pos ack]
    exact acked_inputAck known st segment.1
  have fewer := inputStable_sndBuf Seg.sn (fun _ _ => rfl)
    ((inputSegment st segment.1 segment.2).kcp.sndBuf.map Seg.sn) back
  have left : ((ikcpInput kcp packet).2.sndBuf.map Seg.sn).Sublist
      ((inputSegment st segment.1 segment.2).kcp.sndBuf.map Seg.sn) := by
    refine fewer.ikcpInput_of_loop ?_ (absurd · long)
    rw [looped]
    exact fewer.foldl (List.Subset.refl _) (List.Sublist.refl _)
  intro seg inside
  obtain ⟨before, there, same⟩ := List.mem_map.1 (left.subset (List.mem_map_of_mem inside))
  rw [← same]
  exact gone before there

end KcpRs
