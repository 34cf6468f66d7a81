import KcpRs.Engine.Packing
import KcpRs.Engine.Run

/-!
# Probing a closed window

While the window of its peer is closed a block sends no new data, so it gets no acknowledgement that
would say that the window is open again. Instead it asks. The first flush that finds the window closed
sets a timer, every flush that finds the timer run out asks and sets it again, and no timer is longer
than `ikcpProbeLimit` (`closed_window_probed`). A block that has been asked answers with its next
flush, and whoever processes the packet that answers knows the window (`probe_answered`).
-/

namespace KcpRs

open Lib

variable {kcp : Ikcpcb} {conv : U32}

/-- Who reads the packets of the answer under `conv` finds a command. -/
def Answer.Emits (answer : Answer) (conv : U32) (cmd : Byte) : Prop :=
  ∃ packet ∈ answer.packets, packet.length < 2 ^ 31 ∧
    ∃ segment ∈ accepted conv packet.length packet, segment.1.cmd = cmd

/-! ## What a call does to the probe -/

/-- The block with its clock set by `ikcp_update`, or as it is. -/
def Ikcpcb.Retimed (kcp kcp' : Ikcpcb) : Prop :=
  ∃ current updated tsFlush, (kcp.updated → updated = true) ∧ kcp' = { kcp with current, updated, tsFlush }

theorem Ikcpcb.Retimed.refl (kcp : Ikcpcb) : kcp.Retimed kcp :=
  ⟨kcp.current, kcp.updated, kcp.tsFlush, id, rfl⟩

/-- What a call that does not flush leaves alone. Flags are only set. -/
structure Ikcpcb.Quiet (kcp kcp' : Ikcpcb) : Prop where
  conv : kcp'.conv = kcp.conv
  updated : kcp.updated → kcp'.updated
  mtu : kcp'.mtu = kcp.mtu
  mss : kcp'.mss = kcp.mss
  wait : kcp'.probeWait = kcp.probeWait
  time : kcp'.tsProbe = kcp.tsProbe
  asked : ∀ ask, kcp.probe &&& ask ≠ 0 → kcp'.probe &&& ask ≠ 0

theorem Ikcpcb.Quiet.refl (kcp : Ikcpcb) : kcp.Quiet kcp :=
  ⟨rfl, id, rfl, rfl, rfl, rfl, fun _ => id⟩

/-- A flag that is set stays when others are set. -/
theorem asked_or {probe ask : U32} (more : U32) (asked : probe &&& ask ≠ 0) :
    (probe ||| more) &&& ask ≠ 0 := by
  rw [BitVec.and_or_distrib_right]
  exact fun none => asked (BitVec.or_eq_zero_iff.1 none).1

/-- One segment sets the window of the peer, and it sets a flag if it asks. -/
theorem told_inputSegment (st : InputState) (head : Head) (data : Bytes) :
    (inputSegment st head data).kcp.rmtWnd = head.wnd.toNat ∧
      (inputSegment st head data).kcp.probe =
        if head.cmd = ikcpCmdWask then st.kcp.probe ||| ikcpAskTell else st.kcp.probe := by
  have shrunk (kcp : Ikcpcb) : (ikcpShrinkBuf kcp).rmtWnd = kcp.rmtWnd ∧
      (ikcpShrinkBuf kcp).probe = kcp.probe := by
    unfold ikcpShrinkBuf
    split <;> exact ⟨rfl, rfl⟩
  have acked (st : InputState) (kcp : Ikcpcb) : (inputAck st kcp head).kcp.rmtWnd = kcp.rmtWnd ∧
      (inputAck st kcp head).kcp.probe = kcp.probe := by
    have parsed (kcp : Ikcpcb) : (ikcpParseAck kcp head.sn).rmtWnd = kcp.rmtWnd ∧
        (ikcpParseAck kcp head.sn).probe = kcp.probe := by
      unfold ikcpParseAck
      split <;> exact ⟨rfl, rfl⟩
    unfold inputAck
    dsimp only
    split_ifs <;> exact ⟨(shrunk _).1.trans (parsed _).1, (shrunk _).2.trans (parsed _).2⟩
  unfold inputSegment
  dsimp only
  split
  · rename_i ack
    rw [(acked _ _).1, (acked _ _).2, (shrunk _).1, (shrunk _).2, if_neg (by rw [ack]; decide)]
    exact ⟨rfl, rfl⟩
  · split
    · rename_i push
      obtain ⟨acklist, equal⟩ := inputPush_eq
        (ikcpShrinkBuf (ikcpParseUna { st.kcp with rmtWnd := head.wnd.toNat } head.una)) head data
      rw [equal, if_neg (by rw [push]; decide)]
      exact shrunk _
    · split
      · exact ⟨(shrunk _).1, congrArg (· ||| ikcpAskTell) (shrunk _).2⟩
      · exact shrunk _

/-- The part of `ikcp_input` after its loop sets neither. -/
theorem told_inputFinish (prevUna : U32) (st : InputState) :
    (inputFinish prevUna st).rmtWnd = st.kcp.rmtWnd ∧
      (inputFinish prevUna st).probe = st.kcp.probe := by
  have skipped : (if st.flag then ikcpParseFastack st.kcp st.maxack else st.kcp).rmtWnd =
        st.kcp.rmtWnd ∧
      (if st.flag then ikcpParseFastack st.kcp st.maxack else st.kcp).probe = st.kcp.probe := by
    unfold ikcpParseFastack
    split_ifs <;> exact ⟨rfl, rfl⟩
  have grown (kcp : Ikcpcb) : (growCwnd kcp).rmtWnd = kcp.rmtWnd ∧
      (growCwnd kcp).probe = kcp.probe := by
    unfold growCwnd
    dsimp only
    split_ifs <;> exact ⟨rfl, rfl⟩
  unfold inputFinish
  dsimp only
  by_cases advanced : 0 < itimediff
      (if st.flag then ikcpParseFastack st.kcp st.maxack else st.kcp).sndUna prevUna
  · rw [if_pos advanced, (grown _).1, (grown _).2]
    exact skipped
  · rw [if_neg advanced]
    exact skipped

/-- What the loop of `ikcp_input` leaves of the window and the flags, the function leaves. -/
theorem told_ikcpInput {packet : Bytes}
    (long : ¬ (BitVec.ofNat 32 packet.length).toInt < ikcpOverhead) :
    let looped := (accepted kcp.conv packet.length packet).foldl
      (fun st segment => inputSegment st segment.1 segment.2) ({ kcp } : InputState)
    (ikcpInput kcp packet).2.rmtWnd = looped.kcp.rmtWnd ∧
      (ikcpInput kcp packet).2.probe = looped.kcp.probe := by
  intro looped
  have state : (inputLoop packet.length { kcp } packet).2 = looped := inputLoop_state _ _ _
  unfold ikcpInput
  rw [if_neg long]
  dsimp only
  split
  · rw [← state]
    exact told_inputFinish _ _
  · rw [← state]
    exact ⟨rfl, rfl⟩

/-- Flags are only set by segments. -/
theorem asked_foldl {ask : U32} {segments : List (Head × Bytes)} {st : InputState}
    (asked : st.kcp.probe &&& ask ≠ 0) :
    (segments.foldl (fun st segment => inputSegment st segment.1 segment.2) st).kcp.probe &&& ask ≠
      0 := by
  induction segments generalizing st with
  | nil => exact asked
  | cons segment rest inductionHypothesis =>
      refine inductionHypothesis ?_
      rw [(told_inputSegment st segment.1 segment.2).2]
      split
      · exact asked_or _ asked
      · exact asked

theorem asked_ikcpInput {ask : U32} (packet : Bytes) (asked : kcp.probe &&& ask ≠ 0) :
    (ikcpInput kcp packet).2.probe &&& ask ≠ 0 := by
  by_cases short : (BitVec.ofNat 32 packet.length).toInt < ikcpOverhead
  · rw [ikcpInput, if_pos short]
    exact asked
  · rw [(told_ikcpInput short).2]
    exact asked_foldl asked

theorem asked_recvMoved {ask : U32} (ispeek : Bool) (asked : kcp.probe &&& ask ≠ 0) :
    (recvMoved kcp ispeek).probe &&& ask ≠ 0 := by
  have merged : (moveAvailable (recvMerged kcp ispeek)).probe = kcp.probe := by
    rw [moveAvailable_eq]
    unfold recvMerged
    split <;> rfl
  unfold recvMoved
  dsimp only
  split
  · refine asked_or _ ?_
    rw [merged]
    exact asked
  · rw [merged]
    exact asked

/-- A call flushes the block as it is or with its clock set, or it leaves the probe alone. -/
theorem respond_cases (kcp : Ikcpcb) (call : EngineCall) :
    (∃ block, kcp.Retimed block ∧
      engine.respond kcp call = ((ikcpFlush block).1, { packets := (ikcpFlush block).2 })) ∨
    kcp.Quiet (engine.respond kcp call).1 := by
  cases call with
  | send data len =>
      obtain ⟨queue, count, equal⟩ := ikcpSend_queue kcp data len
      simp only [engine, EngineCall.run]
      rw [equal]
      exact .inr ⟨rfl, id, rfl, rfl, rfl, rfl, fun _ => id⟩
  | input packet =>
      have settings := settings_ikcpInput kcp packet
      have kept := inputKept_ikcpInput kcp packet
      obtain ⟨wait, time⟩ := probe_ikcpInput kcp packet
      exact .inr ⟨congrArg InputKept.conv kept, fun updated =>
        (congrArg InputKept.updated kept).trans updated, congrArg Ikcpcb.Settings.mtu settings,
        congrArg Ikcpcb.Settings.mss settings, wait, time, fun _ => asked_ikcpInput packet⟩
  | recv len =>
      simp only [engine, EngineCall.run]
      rcases ikcpRecv_moved kcp len with same | moved
      · rw [same]
        exact .inr (.refl kcp)
      · have asked (ask : U32) := @asked_recvMoved kcp ask (len < 0)
        obtain ⟨probe, equal⟩ := recvMoved_eq kcp (len < 0)
        rw [moved]
        rw [equal] at asked ⊢
        exact .inr ⟨rfl, id, rfl, rfl, rfl, rfl, asked⟩
  | update current =>
      simp only [engine, EngineCall.run]
      obtain ⟨tsFlush, idle | flush⟩ := ikcpUpdate_cases kcp current
      · rw [idle]
        exact .inr ⟨rfl, fun _ => rfl, rfl, rfl, rfl, rfl, fun _ => id⟩
      · rw [flush]
        exact .inl ⟨_, ⟨current, true, tsFlush, fun _ => rfl, rfl⟩, rfl⟩
  | flush => exact .inl ⟨kcp, .refl kcp, rfl⟩
  | check => exact .inr (.refl kcp)
  | nodelay => exact .inr ⟨rfl, id, rfl, rfl, rfl, rfl, fun _ => id⟩
  | wndsize => exact .inr ⟨rfl, id, rfl, rfl, rfl, rfl, fun _ => id⟩

/-! ## The blocks of a session -/

/-- What holds of every block of a session: its segments fit into packets, and it waits at most
`ikcpProbeLimit` for its next probe. -/
structure Ikcpcb.Regular (kcp : Ikcpcb) : Prop where
  sound : kcp.Sound
  least : ikcpOverhead ≤ kcp.mtu
  most : kcp.mtu < 2 ^ 30
  mss : kcp.mss + ikcpOverhead = kcp.mtu
  wait : kcp.probeWait ≤ ikcpProbeLimit

theorem regular_engineStart (conv : U32) {mtu : Int} (most : mtu < 2 ^ 30) :
    (engineStart conv mtu).Regular := by
  have fresh : (ikcpCreate conv).Regular := by
    refine ⟨⟨List.forall_mem_nil _, List.forall_mem_nil _⟩, ?_, ?_, rfl, ?_⟩
    · exact (by decide : ikcpOverhead ≤ ikcpMtuDef)
    · exact (by decide : ikcpMtuDef < 2 ^ 30)
    · exact (by decide : (0 : U32) ≤ ikcpProbeLimit)
  unfold engineStart ikcpSetmtu
  split
  · exact fresh
  · rename_i allowed
    have least : (50 : Int) ≤ mtu := by omega
    refine ⟨⟨List.forall_mem_nil _, List.forall_mem_nil _⟩, ?_, ?_, ?_, fresh.wait⟩
    all_goals
      simp only [ikcpOverhead]
      omega

/-! ## The timer -/

theorem wait_le_flushProbe (wait : kcp.probeWait ≤ ikcpProbeLimit) :
    (flushProbe kcp).probeWait ≤ ikcpProbeLimit := by
  have capped (wait : U32) :
      (if ikcpProbeLimit < wait then ikcpProbeLimit else wait) ≤ ikcpProbeLimit := by
    split
    · exact BitVec.le_refl _
    · rename_i small
      exact BitVec.not_lt.1 small
  unfold flushProbe
  dsimp only
  split
  · split
    · exact (by decide : ikcpProbeInit ≤ ikcpProbeLimit)
    · split
      · exact capped _
      · exact wait
  · exact (by decide : (0 : U32) ≤ ikcpProbeLimit)

/-- A flush leaves the timer as the probing step has set it. -/
theorem probe_ikcpFlush (updated : kcp.updated) :
    (ikcpFlush kcp).1.probeWait = (flushProbe kcp).probeWait ∧
      (ikcpFlush kcp).1.tsProbe = (flushProbe kcp).tsProbe := by
  have probed : (flushProbed kcp).probeWait = (flushProbe kcp).probeWait ∧
      (flushProbed kcp).tsProbe = (flushProbe kcp).tsProbe := by
    unfold flushProbed flushProbe
    dsimp only
    split_ifs <;> exact ⟨rfl, rfl⟩
  obtain ⟨wait, time⟩ := probe_flushMoved kcp
  rw [ikcpFlush, if_neg (by simp [updated])]
  dsimp only
  rw [(probe_flushCwnd _ _ _ _).1, (probe_flushCwnd _ _ _ _).2]
  exact ⟨wait.trans probed.1, time.trans probed.2⟩

theorem Ikcpcb.Regular.retimed {block : Ikcpcb} (regular : kcp.Regular)
    (retimed : kcp.Retimed block) : block.Regular := by
  obtain ⟨current, updated, tsFlush, _, rfl⟩ := retimed
  exact ⟨⟨regular.sound.push, regular.sound.sized⟩, regular.least, regular.most, regular.mss,
    regular.wait⟩

theorem Ikcpcb.Regular.ikcpFlush (regular : kcp.Regular) : (ikcpFlush kcp).1.Regular := by
  have settings := settings_ikcpFlush kcp
  have mtu : (KcpRs.ikcpFlush kcp).1.mtu = kcp.mtu := congrArg Ikcpcb.Settings.mtu settings
  have mss : (KcpRs.ikcpFlush kcp).1.mss = kcp.mss := congrArg Ikcpcb.Settings.mss settings
  refine ⟨regular.sound.ikcpFlush, mtu ▸ regular.least, mtu ▸ regular.most,
    mtu ▸ mss ▸ regular.mss, ?_⟩
  cases updated : kcp.updated with
  | false =>
      rw [KcpRs.ikcpFlush, if_pos updated]
      exact regular.wait
  | true =>
      rw [(probe_ikcpFlush updated).1]
      exact wait_le_flushProbe regular.wait

theorem Ikcpcb.Regular.respond (regular : kcp.Regular) (call : EngineCall) :
    (engine.respond kcp call).1.Regular := by
  have sound := regular.sound.run call
  rcases respond_cases kcp call with ⟨block, retimed, flushed⟩ | quiet
  · rw [flushed]
    exact (regular.retimed retimed).ikcpFlush
  · refine ⟨sound, ?_, ?_, ?_, ?_⟩
    · rw [quiet.mtu]
      exact regular.least
    · rw [quiet.mtu]
      exact regular.most
    · rw [quiet.mtu, quiet.mss]
      exact regular.mss
    · rw [quiet.wait]
      exact regular.wait

/-- Every block of a session is regular and keeps its conv. -/
theorem regular_run {mtu : Int} (most : mtu < 2 ^ 30) (calls : List EngineCall) :
    (engine.run (engineStart conv mtu) calls).1.Regular ∧
      (engine.run (engineStart conv mtu) calls).1.conv = conv := by
  refine @Transducer.invariant _ _ _ engine _ _ (fun block => block.Regular ∧ block.conv = conv)
    (fun block call holds => ⟨holds.1.respond call, ?_⟩) ⟨regular_engineStart conv most, ?_⟩
  · rcases respond_cases block call with ⟨flushed, ⟨_, _, _, _, rfl⟩, responds⟩ | quiet
    · rw [responds]
      exact (conv_ikcpFlush _).trans holds.2
    · exact quiet.conv.trans holds.2
  · unfold engineStart ikcpSetmtu
    split <;> rfl

/-- The packets of a flush are short. -/
theorem Ikcpcb.Regular.short (regular : kcp.Regular) {packet : Bytes}
    (flushed : packet ∈ (KcpRs.ikcpFlush kcp).2) :
    ikcpOverhead ≤ packet.length ∧ packet.length < 2 ^ 31 := by
  have mss := regular.mss
  have most := regular.most
  have small : ∀ seg ∈ kcp.sndBuf ++ kcp.sndQueue, seg.Fits kcp.mtu := by
    intro seg member
    have size := regular.sound.sized seg.payload (List.mem_map_of_mem member)
    simp only [Seg.payload, ikcpOverhead] at size mss most
    simp only [Seg.Fits, ikcpOverhead]
    omega
  have header : kcp.mtu + ikcpOverhead < 2 ^ 31 := by
    simp only [ikcpOverhead]
    omega
  obtain ⟨least, bound⟩ := fits_ikcpFlush ⟨regular.least, header⟩ small flushed
  exact ⟨least, by omega⟩

/-! ## What a flush says -/

/-- An element of the whole is in one of the groups, and what stands before it there stands before it
in the whole. -/
theorem exists_group {α : Type} {groups : List (List α)} {before after : List α} {x : α}
    (whole : groups.flatten = before ++ x :: after) :
    ∃ group ∈ groups, ∃ front back, group = front ++ x :: back ∧ front ⊆ before := by
  rcases List.flatten_eq_append_iff.1 whole with ⟨_, rest, rfl, _, split⟩ |
    ⟨first, front, _, back, rest, rfl, rfl, split⟩
  · obtain ⟨empties, back, others, rfl, _, _⟩ := List.cons_eq_flatten_iff.1 split
    exact ⟨x :: back, by simp, [], back, rfl, List.nil_subset _⟩
  · obtain ⟨rfl, _⟩ := List.cons.inj split
    exact ⟨front ++ x :: back, by simp, front, back, rfl, List.subset_append_right _ _⟩

/-- A segment of the own conv is processed if those before it in its packet are. -/
theorem mem_accepted_of_front {front back : List Seg} {seg : Seg} {fuel : Nat}
    (enough : front.length < fuel)
    (own : ∀ other ∈ front ++ [seg], other.conv = conv ∧ isCommand other.cmd)
    (short : (encodePacket (front ++ seg :: back)).length < 2 ^ 31) :
    (seg.head, seg.data) ∈ accepted conv fuel (encodePacket (front ++ seg :: back)) := by
  have turn (first : Seg) (rest : List Seg) (fuel : Nat) (mine : first.conv = conv)
      (known : isCommand first.cmd) (short : (encodePacket (first :: rest)).length < 2 ^ 31) :
      accepted conv (fuel + 1) (encodePacket (first :: rest)) =
        (first.head, first.data) :: accepted conv fuel (encodePacket rest) := by
    have long := ikcpOverhead_le_length_encodePacket first rest
    obtain ⟨size, fits⟩ := header_fits short
    have known : ¬ isCommand first.head.cmd = false := by
      rw [show isCommand first.head.cmd = true from known]
      decide
    rw [accepted, if_neg (by omega), encodePacket_cons, Head.decode_encode]
    dsimp only
    rw [size, List.take_left, List.drop_left, if_neg (not_not.2 (show first.head.conv = conv from mine)), if_neg fits,
      if_neg known]
  induction front generalizing fuel with
  | nil =>
      obtain ⟨fuel, rfl⟩ := Nat.exists_eq_add_one.2 (Nat.zero_lt_of_lt enough)
      obtain ⟨mine, known⟩ := own seg (by simp)
      rw [List.nil_append, turn seg back fuel mine known short]
      exact List.mem_cons_self
  | cons first rest inductionHypothesis =>
      obtain ⟨fuel, rfl⟩ := Nat.exists_eq_add_one.2 (Nat.zero_lt_of_lt enough)
      rw [List.cons_append, List.forall_mem_cons] at own
      have lengths := congrArg List.length (encodePacket_cons first (rest ++ seg :: back))
      rw [List.length_append, List.length_append] at lengths
      rw [List.cons_append] at short ⊢
      rw [turn first _ fuel own.1.1 own.1.2 short]
      exact List.mem_cons_of_mem _
        (inductionHypothesis (by simpa using enough) own.2 (by omega))

/-- What a flush says before its data is processed by a peer of the same conv. -/
theorem flush_says (regular : kcp.Regular) (updated : kcp.updated) {seg : Seg}
    (member : seg ∈ ackSegs kcp ++ probeSegs kcp) :
    ∃ packet ∈ (ikcpFlush kcp).2, packet.length < 2 ^ 31 ∧
      (seg.head, seg.data) ∈ accepted kcp.conv packet.length packet := by
  obtain ⟨groups, whole, _, packets⟩ := ikcpFlush_groups updated
  obtain ⟨before, after, split⟩ := List.append_of_mem member
  have whole : groups.flatten = before ++ seg :: (after ++ dueSegs kcp) := by
    rw [whole, sentSegs, split, List.append_assoc, List.cons_append]
  obtain ⟨group, inside, front, back, rfl, earlier⟩ := exists_group whole
  have flushed : encodePacket (front ++ seg :: back) ∈ (ikcpFlush kcp).2 := by
    rw [packets]
    exact List.mem_map_of_mem inside
  have short := (regular.short flushed).2
  refine ⟨_, flushed, short, mem_accepted_of_front ?_ ?_ short⟩
  · have long := length_le_length_encodePacket (front ++ seg :: back)
    simp only [List.length_append, List.length_cons] at long ⊢
    omega
  · intro other present
    have head : other ∈ ackSegs kcp ++ probeSegs kcp := by
      rw [split]
      rcases List.mem_append.1 present with ahead | itself
      · exact List.mem_append_left _ (earlier ahead)
      · rw [List.mem_singleton.1 itself]
        exact List.mem_append_right _ List.mem_cons_self
    obtain ⟨sn, ts, cmd, known, rfl⟩ := mem_heads head
    exact ⟨rfl, known⟩

/-- Every segment of a flush says how much room the block has. -/
theorem wnd_sentSegs : ∀ seg ∈ sentSegs kcp, seg.wnd = BitVec.ofNat 16 (ikcpWndUnused kcp) := by
  intro seg member
  rcases List.mem_append.1 member with head | due
  · obtain ⟨_, _, _, _, rfl⟩ := mem_heads head
    rfl
  · obtain ⟨before, inside, rfl⟩ := List.mem_map.1 due
    unfold flushVisit
    rw [if_neg (of_decide_eq_true (List.mem_filter.1 inside).2)]
    rfl

theorem window_foldl {segments : List (Head × Bytes)} {st : InputState} {wnd : BitVec 16}
    (told : ∀ segment ∈ segments, segment.1.wnd = wnd)
    (start : st.kcp.rmtWnd = wnd.toNat ∨ segments ≠ []) :
    (segments.foldl (fun st segment => inputSegment st segment.1 segment.2) st).kcp.rmtWnd =
      wnd.toNat := by
  induction segments generalizing st with
  | nil => exact start.resolve_right (absurd rfl)
  | cons segment rest inductionHypothesis =>
      rw [List.forall_mem_cons] at told
      refine inductionHypothesis told.2 (.inl ?_)
      rw [(told_inputSegment st segment.1 segment.2).1, told.1]

/-- A packet of which a segment is processed has a length that `ikcp_input` takes. -/
theorem not_short_of_accepted {packet : Bytes} {segment : Head × Bytes}
    (short : packet.length < 2 ^ 31) (member : segment ∈ accepted conv packet.length packet) :
    ¬ (BitVec.ofNat 32 packet.length).toInt < ikcpOverhead := by
  have least : ¬ packet.length < ikcpOverhead := by
    intro small
    cases size : packet.length with
    | zero => simp [size, accepted] at member
    | succ fuel =>
        rw [size, accepted, if_pos small] at member
        cases member
  rw [BitVec.toInt_eq_toNat_cond, BitVec.toNat_ofNat, Nat.mod_eq_of_lt (by omega)]
  split <;> omega

/-- Who processes anything of a packet of a flush knows how much room the block has. -/
theorem window_told (regular : kcp.Regular) (updated : kcp.updated) {packet : Bytes}
    (flushed : packet ∈ (ikcpFlush kcp).2) {peer : Ikcpcb} {segment : Head × Bytes}
    (member : segment ∈ accepted peer.conv packet.length packet) :
    (ikcpInput peer packet).2.rmtWnd = ikcpWndUnused kcp % 2 ^ 16 := by
  have short := (regular.short flushed).2
  obtain ⟨groups, whole, _, packets⟩ := ikcpFlush_groups updated
  rw [packets] at flushed
  obtain ⟨group, inside, rfl⟩ := List.mem_map.1 flushed
  have bound : ∀ seg ∈ group, seg.data.length < 2 ^ 31 := by
    intro seg present
    obtain ⟨front, back, rfl⟩ := List.append_of_mem present
    simp only [encodePacket, List.flatMap_append, List.flatMap_cons, List.length_append,
      length_ikcpEncodeSeg] at short
    omega
  have told : ∀ segment ∈ accepted peer.conv (encodePacket group).length (encodePacket group),
      segment.1.wnd = BitVec.ofNat 16 (ikcpWndUnused kcp) := by
    intro segment processed
    obtain ⟨seg, present, _, rfl⟩ := mem_accepted_encodePacket bound processed
    refine wnd_sentSegs seg ?_
    rw [← whole]
    exact List.mem_flatten_of_mem inside present
  rw [(told_ikcpInput (not_short_of_accepted short member)).1,
    window_foldl told (.inr (List.ne_nil_of_mem member)), BitVec.toNat_ofNat]

/-- A block that processes a probe has to answer it. -/
theorem asked_of_wask {packet : Bytes} {segment : Head × Bytes} (short : packet.length < 2 ^ 31)
    (member : segment ∈ accepted kcp.conv packet.length packet)
    (wask : segment.1.cmd = ikcpCmdWask) : (ikcpInput kcp packet).2.probe &&& ikcpAskTell ≠ 0 := by
  rw [(told_ikcpInput (not_short_of_accepted short member)).2]
  obtain ⟨before, after, split⟩ := List.append_of_mem member
  rw [split, List.foldl_append, List.foldl_cons]
  refine asked_foldl ?_
  rw [(told_inputSegment _ _ _).2, if_pos wask, BitVec.or_comm]
  exact asked_or _ (by decide)

/-! ## The window is probed -/

/-- The probe timer runs, and it was set at `clock`. -/
structure Ikcpcb.Armed (conv clock : U32) (kcp : Ikcpcb) : Prop where
  regular : kcp.Regular
  updated : kcp.updated
  conv : kcp.conv = conv
  running : kcp.probeWait ≠ 0
  timed : kcp.tsProbe = clock + kcp.probeWait

/-- A flush that finds the timer run out asks. -/
theorem flush_asks (regular : kcp.Regular) (updated : kcp.updated) (closed : kcp.rmtWnd = 0)
    (running : kcp.probeWait ≠ 0) (due : 0 ≤ itimediff kcp.current kcp.tsProbe) :
    Answer.Emits { packets := (ikcpFlush kcp).2 } kcp.conv ikcpCmdWask := by
  have asked : (flushProbe { kcp with acklist := [] }).probe &&& ikcpAskSend ≠ 0 := by
    simp only [flushProbe, closed, running, due, if_true, if_false]
    rw [BitVec.or_comm]
    exact asked_or _ (by decide)
  have member : { (ackSegs kcp).getLast?.getD (flushSeg kcp) with cmd := ikcpCmdWask } ∈
      ackSegs kcp ++ probeSegs kcp := by
    refine List.mem_append_right _ (List.mem_append_left _ ?_)
    rw [if_pos asked]
    exact List.mem_singleton_self _
  obtain ⟨packet, flushed, short, processed⟩ := flush_says regular updated member
  exact ⟨packet, flushed, short, _, processed, rfl⟩

/-- The next wait is never zero, which would mean that no timer runs. -/
theorem nextWait_ne_zero {wait least : U32} (most : wait ≤ ikcpProbeLimit)
    (raised : least = if wait < ikcpProbeInit then ikcpProbeInit else wait) :
    (if ikcpProbeLimit < least + least / 2 then ikcpProbeLimit else least + least / 2) ≠ 0 := by
  have bounds : 7000 ≤ least.toNat ∧ least.toNat ≤ 120000 := by
    have limit : wait.toNat ≤ 120000 := most
    rw [raised]
    split
    · decide
    · rename_i large
      have large : 7000 ≤ wait.toNat := BitVec.not_lt.1 large
      exact ⟨large, limit⟩
  split
  · decide
  · intro zero
    have sum := congrArg BitVec.toNat zero
    rw [BitVec.toNat_add, BitVec.toNat_udiv, show (2 : U32).toNat = 2 from rfl,
      show (0 : U32).toNat = 0 from rfl] at sum
    omega

/-- A flush that finds the window closed for the first time, or finds the timer run out, sets it. -/
theorem armed_ikcpFlush (regular : kcp.Regular) (updated : kcp.updated) (closed : kcp.rmtWnd = 0)
    (start : kcp.probeWait = 0 ∨ 0 ≤ itimediff kcp.current kcp.tsProbe) :
    (ikcpFlush kcp).1.Armed kcp.conv kcp.current := by
  obtain ⟨wait, time⟩ := probe_ikcpFlush updated
  have set : (flushProbe kcp).probeWait ≠ 0 ∧
      (flushProbe kcp).tsProbe = kcp.current + (flushProbe kcp).probeWait := by
    unfold flushProbe
    rw [if_pos closed]
    split
    · exact ⟨(by decide : ikcpProbeInit ≠ 0), rfl⟩
    · rename_i running
      rw [if_pos (start.resolve_left running)]
      exact ⟨nextWait_ne_zero regular.wait rfl, rfl⟩
  exact ⟨regular.ikcpFlush, (updated_ikcpFlush kcp).trans updated, conv_ikcpFlush kcp,
    wait ▸ set.1, by rw [time, wait, set.2]⟩

/-- As long as the window is closed a call asks, or the timer goes on. -/
theorem Ikcpcb.Armed.respond {clock : U32} (armed : kcp.Armed conv clock) (closed : kcp.rmtWnd = 0)
    (call : EngineCall) : (engine.respond kcp call).2.Emits conv ikcpCmdWask ∨
      (engine.respond kcp call).1.Armed conv clock := by
  have regular := armed.regular.respond call
  rcases respond_cases kcp call with ⟨block, retimed, flushed⟩ | quiet
  · have ready := armed.regular.retimed retimed
    obtain ⟨current, updated, tsFlush, before, rfl⟩ := retimed
    have running := armed.running
    have on := before armed.updated
    rw [flushed]
    by_cases due : 0 ≤ itimediff current kcp.tsProbe
    · rw [← armed.conv]
      exact .inl (flush_asks ready on closed running due)
    · have still : flushProbe { kcp with current, updated, tsFlush } =
          { kcp with current, updated, tsFlush } := by
        simp only [flushProbe, closed, running, due, if_true, if_false]
      have kept := @probe_ikcpFlush { kcp with current, updated, tsFlush } on
      rw [still] at kept
      refine .inr ⟨ready.ikcpFlush, (updated_ikcpFlush _).trans on,
        (conv_ikcpFlush _).trans armed.conv, ?_, ?_⟩
      · rw [kept.1]
        exact running
      · rw [kept.1, kept.2]
        exact armed.timed
  · exact .inr ⟨regular, quiet.updated armed.updated, quiet.conv.trans armed.conv,
      quiet.wait ▸ armed.running, by rw [quiet.time, quiet.wait, armed.timed]⟩

/-- While a window is closed it is probed. Take a flush of a session that finds the window of the peer
closed for the first time, or finds the timer run out, and any calls after it during which the window
stays closed. When the clock has moved on by `ikcpProbeLimit` and the block is flushed again, one of
these calls has sent a probe. -/
theorem closed_window_probed {conv : U32} {mtu : Int} (most : mtu < 2 ^ 30)
    {before calls : List EngineCall} {kcp : Ikcpcb}
    (retimed : (engine.run (engineStart conv mtu) before).1.Retimed kcp) (updated : kcp.updated)
    (closed : kcp.rmtWnd = 0) (start : kcp.probeWait = 0 ∨ 0 ≤ itimediff kcp.current kcp.tsProbe)
    (stays : engine.Along (fun block => block.rmtWnd = 0) (ikcpFlush kcp).1 calls)
    (late : let elapsed := (engine.run (ikcpFlush kcp).1 calls).1.current - kcp.current
      ikcpProbeLimit ≤ elapsed ∧ elapsed.toNat < 2 ^ 31) :
    ∃ during call after, calls ++ [.flush] = during ++ call :: after ∧
      (engine.respond (engine.run (ikcpFlush kcp).1 during).1 call).2.Emits conv ikcpCmdWask := by
  obtain ⟨regular, own⟩ := regular_run most before
  have regular := regular.retimed retimed
  have own : kcp.conv = conv := by
    obtain ⟨_, _, _, _, rfl⟩ := retimed
    exact own
  have armed := armed_ikcpFlush regular updated closed start
  rw [own] at armed
  refine Transducer.met_by (fun _ call _ closed armed => armed.respond closed call) stays armed ?_
  intro armed
  have closed := stays.last
  generalize (engine.run (ikcpFlush kcp).1 calls).1 = last at armed closed late ⊢
  rw [← armed.conv]
  refine flush_asks armed.regular armed.updated closed armed.running ?_
  have wait : last.probeWait.toNat ≤ 120000 := armed.regular.wait
  have least : 120000 ≤ (last.current - kcp.current).toNat := late.1
  rw [armed.timed, itimediff, serialDiff, sub_add_eq_sub_sub, BitVec.toInt_eq_toNat_cond,
    BitVec.toNat_sub_of_le (wait.trans least)]
  split <;> omega

/-- The peer of a new session has closed its window, and nothing else arrives for two minutes. -/
theorem closed_window_probed_late :
    let closing : Seg := { conv := 1, cmd := ikcpCmdWins, wnd := 0 }
    let closed := (engine.run (engineStart 1 1400) [.update 0, .input (encodePacket [closing])]).1
    ∃ during call after, [EngineCall.update 7100, .update 125000, .flush] = during ++ call :: after ∧
      (engine.respond (engine.run (ikcpFlush closed).1 during).1 call).2.Emits 1 ikcpCmdWask := by
  intro closing closed
  have retimed : closed.Retimed closed := .refl closed
  have stays : engine.Along (fun block => block.rmtWnd = 0) (ikcpFlush closed).1
      [.update 7100, .update 125000] := by decide +kernel
  exact @closed_window_probed 1 1400 (by decide) [.update 0, .input (encodePacket [closing])]
    [.update 7100, .update 125000] closed retimed (by decide +kernel) (by decide +kernel)
    (by decide +kernel) stays (by decide +kernel)

/-! ## A probe is answered -/

/-- The call sends a packet that answers a probe, and who processes the packet knows how much room
the block has. -/
def EngineCall.Tells (conv : U32) (kcp : Ikcpcb) (call : EngineCall) : Prop :=
  ∃ reply ∈ (engine.respond kcp call).2.packets, reply.length < 2 ^ 31 ∧
    (∃ segment ∈ accepted conv reply.length reply, segment.1.cmd = ikcpCmdWins) ∧
      ∀ peer : Ikcpcb, peer.conv = conv →
        (ikcpInput peer reply).2.rmtWnd = ikcpWndUnused kcp % 2 ^ 16

/-- The block has been asked and has not answered. -/
structure Ikcpcb.Asked (conv : U32) (kcp : Ikcpcb) : Prop where
  regular : kcp.Regular
  updated : kcp.updated
  conv : kcp.conv = conv
  asked : kcp.probe &&& ikcpAskTell ≠ 0

/-- A flush of a block that has been asked answers. -/
theorem flush_answers (asked : kcp.Asked conv) : ∃ reply ∈ (ikcpFlush kcp).2, reply.length < 2 ^ 31 ∧
    (∃ segment ∈ accepted conv reply.length reply, segment.1.cmd = ikcpCmdWins) ∧
      ∀ peer : Ikcpcb, peer.conv = conv →
        (ikcpInput peer reply).2.rmtWnd = ikcpWndUnused kcp % 2 ^ 16 := by
  have tells : (flushProbe { kcp with acklist := [] }).probe &&& ikcpAskTell ≠ 0 := by
    unfold flushProbe
    dsimp only
    split_ifs <;> first | exact asked.asked | exact asked_or _ asked.asked
  have member : { (ackSegs kcp).getLast?.getD (flushSeg kcp) with cmd := ikcpCmdWins } ∈
      ackSegs kcp ++ probeSegs kcp := by
    refine List.mem_append_right _ (List.mem_append_right _ ?_)
    rw [if_pos tells]
    exact List.mem_singleton_self _
  obtain ⟨reply, flushed, short, processed⟩ := flush_says asked.regular asked.updated member
  rw [asked.conv] at processed
  refine ⟨reply, flushed, short, ⟨_, processed, rfl⟩, fun peer same => ?_⟩
  exact window_told asked.regular asked.updated flushed (same.symm ▸ processed)

theorem Ikcpcb.Asked.respond (asked : kcp.Asked conv) (call : EngineCall) :
    call.Tells conv kcp ∨ (engine.respond kcp call).1.Asked conv := by
  rcases respond_cases kcp call with ⟨block, retimed, flushed⟩ | quiet
  · have ready := asked.regular.retimed retimed
    obtain ⟨current, updated, tsFlush, before, rfl⟩ := retimed
    have answers := @flush_answers _ conv ⟨ready, before asked.updated, asked.conv, asked.asked⟩
    refine .inl ?_
    unfold EngineCall.Tells
    rw [flushed]
    exact answers
  · exact .inr ⟨asked.regular.respond call, quiet.updated asked.updated,
      quiet.conv.trans asked.conv, quiet.asked _ asked.asked⟩

/-- A probe is answered. After a block of a session has processed a packet with a probe, some call not
later than its next flush sends a packet that answers; and every block of the conv that processes this
packet, at any time, holds from it how much room the block had when it answered. -/
theorem probe_answered {conv : U32} {mtu : Int} (most : mtu < 2 ^ 30)
    {before calls : List EngineCall} {packet : Bytes} (short : packet.length < 2 ^ 31)
    {segment : Head × Bytes} (processed : segment ∈ accepted conv packet.length packet)
    (wask : segment.1.cmd = ikcpCmdWask)
    (updated : (engine.run (engineStart conv mtu) before).1.updated) :
    let kcp := (ikcpInput (engine.run (engineStart conv mtu) before).1 packet).2
    ∃ during call after, calls ++ [.flush] = during ++ call :: after ∧
      call.Tells conv (engine.run kcp during).1 := by
  intro kcp
  obtain ⟨regular, own⟩ := @regular_run conv mtu most before
  have asked : kcp.Asked conv := by
    refine ⟨regular.respond (.input packet), ?_, ?_, asked_of_wask short (own.symm ▸ processed) wask⟩
    · exact (congrArg InputKept.updated (inputKept_ikcpInput _ packet)).trans updated
    · exact (congrArg InputKept.conv (inputKept_ikcpInput _ packet)).trans own
  exact Transducer.met_by (fun _ call _ _ asked => asked.respond call)
    (Transducer.along_true calls) asked flush_answers

/-- A new session is probed, and the application reads before the next flush. -/
theorem probe_answered_flush :
    let probe : Seg := { conv := 1, cmd := ikcpCmdWask, wnd := 256 }
    let kcp := (ikcpInput (engine.run (engineStart 1 1400) [.update 0]).1 (encodePacket [probe])).2
    ∃ during call after, [EngineCall.recv 100, .flush] = during ++ call :: after ∧
      call.Tells 1 (engine.run kcp during).1 := by
  intro probe kcp
  have processed : (probe.head, probe.data) ∈
      accepted 1 (encodePacket [probe]).length (encodePacket [probe]) := by decide +kernel
  exact @probe_answered 1 1400 (by decide) [.update 0] [.recv 100] _ (by decide) _ processed rfl
    (by decide +kernel)

end KcpRs
