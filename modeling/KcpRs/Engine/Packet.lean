import KcpRs.Engine.Input

/-!
# Input of well-formed packets

A well-formed packet is a non-empty sequence of segments of one conv with known commands, as
`ikcp_flush` makes it. `ikcp_input` takes it as a whole (`WellFormed.ikcpInput`), and refuses
it as a whole when its first command is unknown (`ikcpInput_unknown`).
-/

namespace KcpRs

open Lib

/-- `segs` make a packet of `conv` whose length is a C integer. -/
structure WellFormed (conv : U32) (segs : List Seg) : Prop where
  nonempty : segs ≠ []
  conv : ∀ seg ∈ segs, seg.conv = conv
  command : ∀ seg ∈ segs, isCommand seg.cmd
  short : (encodePacket segs).length < 2 ^ 31

variable {conv : U32} {segs : List Seg} {kcp : Ikcpcb}

/-- A header of a packet announces the payload that follows it. -/
theorem header_fits {seg : Seg} {rest : List Seg}
    (short : (encodePacket (seg :: rest)).length < 2 ^ 31) :
    seg.head.len.toNat = seg.data.length ∧
      ¬ ((seg.data ++ encodePacket rest).length < seg.data.length ∨ seg.head.len.toInt < 0) := by
  have lengths := congrArg List.length (encodePacket_cons seg rest)
  rw [List.length_append, List.length_append, Head.length_encode] at lengths
  have size : seg.head.len.toNat = seg.data.length := by
    rw [Seg.head, BitVec.toNat_ofNat, Nat.mod_eq_of_lt (by omega)]
  refine ⟨size, ?_⟩
  rw [not_or, List.length_append, BitVec.toInt_eq_toNat_cond, size]
  split <;> omega

/-- Whole segments of one conv with known commands are all processed. -/
theorem accepted_encodePacket {fuel : Nat} (enough : segs.length ≤ fuel)
    (same : ∀ seg ∈ segs, seg.conv = conv) (command : ∀ seg ∈ segs, isCommand seg.cmd)
    (short : (encodePacket segs).length < 2 ^ 31) :
    accepted conv fuel (encodePacket segs) = segs.map (fun seg => (seg.head, seg.data)) ∧
      loopCode conv fuel (encodePacket segs) = 0 := by
  induction segs generalizing fuel with
  | nil => cases fuel <;> simp [accepted, loopCode, encodePacket, ikcpOverhead]
  | cons seg rest inductionHypothesis =>
      rw [List.forall_mem_cons] at same command
      cases fuel with
      | zero => simp at enough
      | succ fuel =>
          have long := ikcpOverhead_le_length_encodePacket seg rest
          have lengths := congrArg List.length (encodePacket_cons seg rest)
          rw [List.length_append, List.length_append] at lengths
          obtain ⟨later, zero⟩ := inductionHypothesis (Nat.le_of_succ_le_succ enough) same.2 command.2
            (by omega)
          obtain ⟨size, fits⟩ := header_fits short
          have known : ¬ isCommand seg.head.cmd = false := by
            rw [show isCommand seg.head.cmd = true from command.1]
            decide
          have mine : ¬ seg.head.conv ≠ conv := not_not.2 same.1
          constructor
          · unfold accepted
            rw [if_neg (by omega), encodePacket_cons, Head.decode_encode]
            dsimp only
            rw [size, List.take_left, List.drop_left, if_neg mine, if_neg fits, if_neg known, later]
            rfl
          · unfold loopCode
            rw [if_neg (by omega), encodePacket_cons, Head.decode_encode]
            dsimp only
            rw [size, List.drop_left, if_neg mine, if_neg fits, if_neg known, zero]

/-- The segments that `ikcp_input` processes of an encoded packet are segments of the packet. -/
theorem mem_accepted_encodePacket {segs : List Seg} {conv : U32} {fuel : Nat}
    {segment : Head × Bytes} (bound : ∀ seg ∈ segs, seg.data.length < 2 ^ 31)
    (member : segment ∈ accepted conv fuel (encodePacket segs)) :
    ∃ seg ∈ segs, isCommand seg.cmd ∧ segment = (seg.head, seg.data) := by
  induction segs generalizing fuel with
  | nil =>
      cases fuel with
      | zero => cases member
      | succ fuel => simp [accepted, encodePacket, ikcpOverhead] at member
  | cons seg rest inductionHypothesis =>
      rw [List.forall_mem_cons] at bound
      cases fuel with
      | zero => cases member
      | succ fuel =>
          have size : seg.head.len.toNat = seg.data.length := by
            simp only [Seg.head, BitVec.toNat_ofNat]
            omega
          unfold accepted at member
          rw [if_neg (by have := ikcpOverhead_le_length_encodePacket seg rest; omega)] at member
          rw [encodePacket_cons, Head.decode_encode] at member
          dsimp only at member
          rw [size, List.take_left, List.drop_left] at member
          split at member
          · cases member
          · split at member
            · cases member
            · split at member
              · cases member
              · rename_i known
                rcases List.mem_cons.1 member with rfl | later
                · refine ⟨seg, List.mem_cons_self, ?_, rfl⟩
                  simpa [Seg.head] using known
                · obtain ⟨other, inside, equal⟩ := inductionHypothesis bound.2 later
                  exact ⟨other, List.mem_cons_of_mem _ inside, equal⟩

/-- A packet that starts with an unknown command is not processed. -/
theorem accepted_of_not_isCommand {seg : Seg} {rest : List Seg} (unknown : isCommand seg.cmd = false)
    (conv : U32) (fuel : Nat) : accepted conv fuel (encodePacket (seg :: rest)) = [] := by
  cases fuel with
  | zero => rfl
  | succ fuel =>
      unfold accepted
      rw [encodePacket_cons, Head.decode_encode]
      dsimp only
      rw [if_pos (show isCommand seg.head.cmd = false from unknown)]
      simp only [ite_self]

/-- A packet of which no segment is processed changes nothing. -/
theorem ikcpInput_of_accepted_nil {kcp : Ikcpcb} {packet : Bytes}
    (none : accepted kcp.conv packet.length packet = []) : (ikcpInput kcp packet).2 = kcp := by
  have state := inputLoop_state packet.length { kcp } packet
  rw [none, List.foldl_nil] at state
  unfold ikcpInput
  split
  · rfl
  · rcases looped : inputLoop packet.length { kcp } packet with ⟨code, st⟩
    rw [looped] at state
    subst state
    dsimp only
    split
    · unfold inputFinish
      simp
    · rfl

namespace WellFormed

theorem length_packet (wellFormed : WellFormed conv segs) :
    ¬ (BitVec.ofNat 32 (encodePacket segs).length).toInt < ikcpOverhead := by
  have short := wellFormed.short
  obtain ⟨seg, rest, rfl⟩ := List.exists_cons_of_ne_nil wellFormed.nonempty
  have long := ikcpOverhead_le_length_encodePacket seg rest
  rw [BitVec.toInt_eq_toNat_cond, BitVec.toNat_ofNat, Nat.mod_eq_of_lt (by omega)]
  split <;> omega

/-- A well-formed packet is processed segment by segment. -/
theorem ikcpInput (wellFormed : WellFormed kcp.conv segs) :
    ikcpInput kcp (encodePacket segs) = (0, inputFinish kcp.sndUna
      (segs.foldl (fun st seg => inputSegment st seg.head seg.data) { kcp })) := by
  obtain ⟨all, zero⟩ := accepted_encodePacket (length_le_length_encodePacket segs) wellFormed.conv
    wellFormed.command wellFormed.short
  have code := inputLoop_fst (encodePacket segs).length { kcp } (encodePacket segs)
  have state := inputLoop_state (encodePacket segs).length { kcp } (encodePacket segs)
  rw [zero] at code
  rw [all, List.foldl_map] at state
  unfold KcpRs.ikcpInput
  rw [if_neg wellFormed.length_packet]
  rcases looped : inputLoop (encodePacket segs).length { kcp } (encodePacket segs) with ⟨result, st⟩
  rw [looped] at code state
  dsimp only at code state ⊢
  rw [if_pos code, state]

/-- A well-formed packet whose first command has been replaced by an unknown one is refused, and
nothing of it is processed. -/
theorem ikcpInput_unknown {seg : Seg} {rest : List Seg}
    (wellFormed : WellFormed kcp.conv (seg :: rest)) {cmd : Byte} (unknown : isCommand cmd = false) :
    KcpRs.ikcpInput kcp (encodePacket ({ seg with cmd } :: rest)) = (-3, kcp) := by
  have lengths : (encodePacket ({ seg with cmd } :: rest)).length =
      (encodePacket (seg :: rest)).length := by
    simp [encodePacket, length_ikcpEncodeSeg]
  have long := wellFormed.length_packet
  have short := wellFormed.short
  have whole := ikcpOverhead_le_length_encodePacket seg rest
  refine Prod.ext ?_ (ikcpInput_of_accepted_nil (accepted_of_not_isCommand unknown _ _))
  rw [ikcpInput_fst, inputCode, lengths, if_neg long]
  obtain ⟨fuel, turns⟩ := Nat.exists_eq_add_one.2 (lt_of_lt_of_le (by decide : 0 < ikcpOverhead) whole)
  obtain ⟨size, fits⟩ := @header_fits { seg with cmd } rest (by rwa [lengths])
  have mine : ¬ seg.conv ≠ kcp.conv := not_not.2 (wellFormed.conv seg List.mem_cons_self)
  rw [turns, loopCode, lengths, if_neg (by omega), encodePacket_cons, Head.decode_encode]
  dsimp only
  rw [size, if_neg (show ¬ Head.conv _ ≠ kcp.conv from mine), if_neg fits,
    if_pos (show isCommand (Head.cmd _) = false from unknown)]

end WellFormed

/-- What follows the loop of `ikcp_input` leaves the receive side alone. -/
theorem receiver_inputFinish (prevUna : U32) (st : InputState) :
    (inputFinish prevUna st).receiver = st.kcp.receiver :=
  (InputStable.of_receiver (fun receiver => receiver = st.kcp.receiver) [] nofun).inputFinish rfl
    prevUna

/-- With nothing out of order, the data segment expected next is queued. -/
theorem receiver_inputPush_next {head : Head} {data : Bytes} (number : head.sn = kcp.rcvNxt32)
    (drained : kcp.rcvBuf = []) (room : kcp.nrcvQue < kcp.rcvWnd) (window : kcp.rcvWnd < 2 ^ 31) :
    (inputPush kcp head data).receiver = { kcp.receiver with
      rcvQueue := kcp.rcvQueue ++ [head.segment data]
      nrcvQue := kcp.nrcvQue + 1
      rcvNxt := kcp.rcvNxt + 1 } := by
  have inside : itimediff kcp.rcvNxt32 (kcp.rcvNxt32 + BitVec.ofNat 32 kcp.rcvWnd) < 0 := by
    unfold itimediff Ikcpcb.rcvNxt32
    rw [← BitVec.ofNat_add, serialDiff_of_near (by decide) (by omega) (by omega)]
    omega
  unfold inputPush
  rw [number, if_pos inside]
  dsimp only
  have same : (ikcpAckPush kcp kcp.rcvNxt32 head.ts).rcvNxt32 = kcp.rcvNxt32 := rfl
  rw [same, itimediff_self, if_pos le_rfl]
  unfold ikcpParseData
  dsimp only
  rw [same, itimediff_self]
  have window : (ikcpAckPush kcp kcp.rcvNxt32 head.ts).rcvWnd = kcp.rcvWnd := rfl
  have buffer : (ikcpAckPush kcp kcp.rcvNxt32 head.ts).rcvBuf = [] := drained
  rw [window, if_neg (by omega), buffer]
  simp [insertFromBack, moveAvailable, moveReady, moveTake, Ikcpcb.rcvNxt32, ikcpAckPush,
    Ikcpcb.receiver, room, drained, Head.segment, number]

/-- A packet with the data segment expected next. -/
theorem receiver_ikcpInput_next {seg : Seg} (wellFormed : WellFormed kcp.conv [seg])
    (push : seg.cmd = ikcpCmdPush) (number : seg.sn = kcp.rcvNxt32) (drained : kcp.rcvBuf = [])
    (room : kcp.nrcvQue < kcp.rcvWnd) (window : kcp.rcvWnd < 2 ^ 31) :
    (ikcpInput kcp (encodePacket [seg])).2.receiver = { kcp.receiver with
      rcvQueue := kcp.rcvQueue ++ [seg.head.segment seg.data]
      nrcvQue := kcp.nrcvQue + 1
      rcvNxt := kcp.rcvNxt + 1 } := by
  rw [wellFormed.ikcpInput, receiver_inputFinish, List.foldl_cons, List.foldl_nil]
  have ack : seg.head.cmd ≠ ikcpCmdAck := by
    rw [show seg.head.cmd = ikcpCmdPush from push]
    decide
  have shrunk (block : Ikcpcb) : ∃ sndUna, ikcpShrinkBuf block = { block with sndUna } := by
    unfold ikcpShrinkBuf
    split <;> exact ⟨_, rfl⟩
  obtain ⟨sndUna, equal⟩ :=
    shrunk (ikcpParseUna { kcp with rmtWnd := seg.head.wnd.toNat } seg.head.una)
  unfold inputSegment
  dsimp only
  rw [if_neg ack, if_pos (show seg.head.cmd = ikcpCmdPush from push), equal]
  exact @receiver_inputPush_next
    { ikcpParseUna { kcp with rmtWnd := seg.head.wnd.toNat } seg.head.una with sndUna } seg.head
    seg.data number drained room window

end KcpRs
