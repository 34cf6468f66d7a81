import KcpRs.Engine.Flush
import KcpRs.Engine.Packet

/-!
# What a flush puts on the wire

`sentSegs` is what a flush has to send: an acknowledgement for every entry of the list, the window
commands that are asked for, and the segments of `snd_buf` that are due. `ikcp_flush` writes them
into a scratch buffer that it gives to the output callback whenever the next one might not fit.
`Holds` says that nothing is lost or repeated on the way, so the packets are a grouping of `sentSegs`
(`ikcpFlush_groups`).
-/

namespace KcpRs

open Lib

/-- The acknowledgements of a flush. -/
def ackSegs (kcp : Ikcpcb) : List Seg :=
  kcp.acklist.map fun ack => { flushSeg kcp with sn := ack.1, ts := ack.2 }

/-- The window commands of a flush. Their headers carry the numbers of the last acknowledgement. -/
def probeSegs (kcp : Ikcpcb) : List Seg :=
  let last := (ackSegs kcp).getLast?.getD (flushSeg kcp)
  let probe := (flushProbe { kcp with acklist := [] }).probe
  (if probe &&& ikcpAskSend ≠ 0 then [{ last with cmd := ikcpCmdWask }] else []) ++
    if probe &&& ikcpAskTell ≠ 0 then [{ last with cmd := ikcpCmdWins }] else []

/-- The segments of `snd_buf` that are due, with their new timers. -/
def dueSegs (kcp : Ikcpcb) : List Seg :=
  ((flushMoved kcp).sndBuf.filter fun seg => resendKind (flushMoved kcp) seg ≠ .none).map
    (flushVisit (flushMoved kcp) (flushSeg kcp).wnd)

/-- Everything that a flush has to send, in order. -/
def sentSegs (kcp : Ikcpcb) : List Seg := ackSegs kcp ++ probeSegs kcp ++ dueSegs kcp

/-- What a flush writes before its data are headers of its own with some numbers and a known
command. -/
theorem mem_heads {kcp : Ikcpcb} {seg : Seg} (member : seg ∈ ackSegs kcp ++ probeSegs kcp) :
    ∃ sn ts cmd, isCommand cmd ∧ seg = { flushSeg kcp with sn, ts, cmd } := by
  have acks : ∀ seg ∈ ackSegs kcp, ∃ sn ts, seg = { flushSeg kcp with sn, ts } := by
    intro seg inside
    obtain ⟨ack, _, rfl⟩ := List.mem_map.1 inside
    exact ⟨ack.1, ack.2, rfl⟩
  have last : ∃ sn ts, (ackSegs kcp).getLast?.getD (flushSeg kcp) = { flushSeg kcp with sn, ts } := by
    cases last : (ackSegs kcp).getLast? with
    | none => exact ⟨_, _, rfl⟩
    | some seg => exact acks seg (List.mem_of_getLast? last)
  rcases List.mem_append.1 member with ack | probe
  · obtain ⟨sn, ts, rfl⟩ := acks seg ack
    exact ⟨sn, ts, ikcpCmdAck, rfl, rfl⟩
  · obtain ⟨sn, ts, numbered⟩ := last
    rw [probeSegs, numbered] at probe
    rcases List.mem_append.1 probe with wask | wins
    · split at wask
      · exact ⟨sn, ts, ikcpCmdWask, rfl, List.mem_singleton.1 wask⟩
      · cases wask
    · split at wins
      · exact ⟨sn, ts, ikcpCmdWins, rfl, List.mem_singleton.1 wins⟩
      · cases wins

namespace Pack

/-- The packets and the buffer hold `segs`: each packet some of them, and the buffer the last ones. -/
def Holds (segs : List Seg) (pack : Pack) : Prop :=
  ∃ (groups : List (List Seg)) (rest : List Seg), segs = groups.flatten ++ rest ∧
    (∀ group ∈ groups, group ≠ []) ∧
    pack.out = groups.map encodePacket ∧ pack.buf = encodePacket rest

variable {segs : List Seg} {pack : Pack}

theorem holds_empty : Holds [] {} := ⟨[], [], rfl, by simp, rfl, rfl⟩

theorem Holds.output (holds : pack.Holds segs) : pack.output.Holds segs := by
  obtain ⟨groups, rest, rfl, nonempty, out, buf⟩ := holds
  unfold Pack.output
  split
  · exact ⟨groups, rest, rfl, nonempty, out, buf⟩
  · rename_i occupied
    refine ⟨groups ++ [rest], [], by simp, fun group member => ?_, ?_, rfl⟩
    · rcases List.mem_append.1 member with earlier | last
      · exact nonempty group earlier
      · rw [List.mem_singleton.1 last]
        rintro rfl
        exact occupied buf
    · rw [List.map_append, ← out, buf]
      rfl

/-- A segment that is written comes after those that are held. -/
theorem Holds.write (holds : pack.Holds segs) (mtu need : Nat) (seg : Seg) :
    (pack.write mtu need (ikcpEncodeSeg seg)).Holds (segs ++ [seg]) := by
  have append {pack : Pack} (holds : pack.Holds segs) :
      { pack with buf := pack.buf ++ ikcpEncodeSeg seg }.Holds (segs ++ [seg]) := by
    obtain ⟨groups, rest, rfl, nonempty, out, buf⟩ := holds
    refine ⟨groups, rest ++ [seg], List.append_assoc _ _ _, nonempty, out, ?_⟩
    simp [encodePacket, buf]
  unfold Pack.write
  dsimp only
  split
  · exact append holds.output
  · exact append holds

/-- When the buffer is given away the packets are a grouping of what was held. -/
theorem Holds.groups (holds : pack.Holds segs) : ∃ groups : List (List Seg), groups.flatten = segs ∧
    (∀ group ∈ groups, group ≠ []) ∧ pack.output.out = groups.map encodePacket := by
  obtain ⟨groups, rest, rfl, nonempty, out, buf⟩ := holds.output
  have empty : pack.output.buf = [] := by
    unfold Pack.output
    split
    · rename_i nothing
      exact nothing
    · rfl
  have none : rest = [] := by
    cases rest with
    | nil => rfl
    | cons seg rest =>
        rw [empty] at buf
        have long := congrArg List.length buf
        simp [encodePacket, ikcpEncodeSeg] at long
        omega
  subst none
  exact ⟨groups, (List.append_nil _).symm, nonempty, out⟩

end Pack

/-- The acknowledgements are written one after the other. -/
theorem flushAcks_holds {mtu : Nat} {acks : List (U32 × U32)} {segs : List Seg} {acc : Seg × Pack}
    (holds : acc.2.Holds segs) :
    let sent := acks.map fun ack => { acc.1 with sn := ack.1, ts := ack.2 }
    (flushAcks mtu acks acc).1 = sent.getLast?.getD acc.1 ∧
      (flushAcks mtu acks acc).2.Holds (segs ++ sent) := by
  induction acks generalizing acc segs with
  | nil => exact ⟨rfl, by simpa [flushAcks] using holds⟩
  | cons ack rest inductionHypothesis =>
      obtain ⟨seg, pack⟩ := acc
      obtain ⟨last, held⟩ := @inductionHypothesis _ ({ seg with sn := ack.1, ts := ack.2 }, _)
        (holds.write mtu ikcpOverhead { seg with sn := ack.1, ts := ack.2 })
      refine ⟨?_, ?_⟩
      · rw [List.map_cons, List.getLast?_cons]
        exact last
      · rw [List.append_assoc] at held
        exact held

theorem flushCommand_holds {kcp : Ikcpcb} {ask : U32} {cmd : Byte} {segs : List Seg}
    {acc : Seg × Pack} (holds : acc.2.Holds segs) :
    (flushCommand kcp ask cmd acc).2.Holds
      (segs ++ if kcp.probe &&& ask ≠ 0 then [{ acc.1 with cmd }] else []) := by
  unfold flushCommand
  split
  · exact holds.write _ _ _
  · rw [List.append_nil]
    exact holds

/-- The part of a flush before its data loop. -/
theorem flushHeads_holds (kcp : Ikcpcb) : (flushHeads kcp).Holds (ackSegs kcp ++ probeSegs kcp) := by
  obtain ⟨last, acks⟩ := @flushAcks_holds kcp.mtu kcp.acklist [] (flushSeg kcp, {}) Pack.holds_empty
  have wask := @flushCommand_holds (flushProbe { kcp with acklist := [] }) ikcpAskSend ikcpCmdWask _ _
    acks
  have wins := @flushCommand_holds (flushProbe { kcp with acklist := [] }) ikcpAskTell ikcpCmdWins _ _
    wask
  have same (acc : Seg × Pack) (ask : U32) (cmd cmd' : Byte) :
      { (flushCommand (flushProbe { kcp with acklist := [] }) ask cmd acc).1 with cmd := cmd' } =
        { acc.1 with cmd := cmd' } := by
    unfold flushCommand
    split <;> rfl
  rw [same, last, List.nil_append, List.append_assoc] at wins
  exact wins

/-- The data loop writes the segments that are due. -/
theorem foldl_flushSegment_holds {kcp : Ikcpcb} {wnd : BitVec 16} {segs sent : List Seg}
    {st : FlushState} (holds : st.pack.Holds sent) :
    (segs.foldl (flushSegment kcp wnd) st).pack.Holds (sent ++
      (segs.filter fun seg => resendKind kcp seg ≠ .none).map (flushVisit kcp wnd)) := by
  induction segs generalizing st sent with
  | nil => simpa using holds
  | cons seg rest inductionHypothesis =>
      rw [List.foldl_cons, List.filter_cons]
      have written := holds.write kcp.mtu (ikcpOverhead + (flushVisit kcp wnd seg).data.length)
        (flushVisit kcp wnd seg)
      cases kind : resendKind kcp seg with
      | none =>
          refine inductionHypothesis ?_
          unfold flushSegment
          rw [kind]
          exact holds
      | _ =>
          rw [if_pos (by simp), List.map_cons, ← List.singleton_append, ← List.append_assoc]
          refine inductionHypothesis ?_
          unfold flushSegment
          rw [kind]
          exact written

/-- The packets of a flush are a grouping of the segments that it has to send. -/
theorem ikcpFlush_groups {kcp : Ikcpcb} (updated : kcp.updated) : ∃ groups : List (List Seg),
    groups.flatten = sentSegs kcp ∧ (∀ group ∈ groups, group ≠ []) ∧
      (ikcpFlush kcp).2 = groups.map encodePacket := by
  have held : (flushData kcp).pack.Holds (sentSegs kcp) := foldl_flushSegment_holds (flushHeads_holds kcp)
  rw [ikcpFlush, if_neg (by simp [updated])]
  exact held.groups

/-- What a flush leaves in `snd_buf` it has sent, or it is in flight and its timer runs. -/
theorem sent_or_running {kcp : Ikcpcb} (updated : kcp.updated) {seg : Seg}
    (member : seg ∈ (ikcpFlush kcp).1.sndBuf) : seg ∈ dueSegs kcp ∨
      seg ∈ kcp.sndBuf ∧ seg.xmit ≠ 0 ∧ itimediff kcp.current seg.resendts < 0 := by
  have current : (flushMoved kcp).current = kcp.current :=
    congrArg FlushKept.current (flushKept_flushMoved kcp)
  have moved : ∀ seg ∈ (flushMoved kcp).sndBuf, seg ∈ kcp.sndBuf ∨ seg.xmit = 0 := by
    refine flushMove_induct (fun block => ∀ seg ∈ block.sndBuf, seg ∈ kcp.sndBuf ∨ seg.xmit = 0)
      ?_ _ _ ?_
    · intro block newseg rest _ holds seg member
      rcases List.mem_append.1 member with earlier | last
      · exact holds seg earlier
      · rw [List.mem_singleton.1 last]
        exact .inr rfl
    · have same : (flushProbed kcp).sndBuf = kcp.sndBuf :=
        congrArg Ikcpcb.Sender.sndBuf (sender_flushProbed kcp)
      rw [same]
      exact fun seg => .inl
  rw [sndBuf_ikcpFlush updated] at member
  obtain ⟨before, inside, rfl⟩ := List.mem_map.1 member
  by_cases due : resendKind (flushMoved kcp) before = .none
  · have still : flushVisit (flushMoved kcp) (flushSeg kcp).wnd before = before := by
      unfold flushVisit
      rw [if_pos due, due]
      rfl
    rw [still]
    have waiting : before.xmit ≠ 0 ∧ itimediff kcp.current before.resendts < 0 := by
      unfold resendKind at due
      rw [current] at due
      split at due
      · cases due
      · split at due
        · cases due
        · rename_i sent running
          exact ⟨sent, not_le.1 running⟩
    exact .inr ⟨(moved before inside).resolve_right waiting.1, waiting⟩
  · exact .inl (List.mem_map_of_mem (List.mem_filter.2 ⟨inside, decide_eq_true due⟩))

/-- The segments of one packet are processed as they were written, and those of all packets one
after the other. -/
theorem accepted_packets {conv : U32} {groups : List (List Seg)}
    (wellFormed : ∀ group ∈ groups, ∀ seg ∈ group, seg.conv = conv ∧ isCommand seg.cmd)
    (short : ∀ group ∈ groups, (encodePacket group).length < 2 ^ 31) :
    ((groups.map encodePacket).flatMap fun packet => accepted conv packet.length packet) =
      groups.flatten.map fun seg => (seg.head, seg.data) := by
  induction groups with
  | nil => rfl
  | cons group rest inductionHypothesis =>
      rw [List.forall_mem_cons] at wellFormed short
      rw [List.map_cons, List.flatMap_cons, List.flatten_cons, List.map_append,
        inductionHypothesis wellFormed.2 short.2,
        (accepted_encodePacket (length_le_length_encodePacket group)
          (fun seg member => (wellFormed.1 seg member).1)
          (fun seg member => (wellFormed.1 seg member).2) short.1).1]

end KcpRs
