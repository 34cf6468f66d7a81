import KcpRs.Engine.Transfer
import KcpRs.Engine.Outgoing
import KcpRs.Stream.FinFrame
import KcpRs.Pair.Network

/-!
# What two tasks say to each other

`Speaks` is what one task knows of the other: its engine is tied to the other one, and every
packet it has given to the network, or will, is honest. The payloads that either has ever
queued are not kept by the program; they are arguments here. `Turn` is what a move does to
them and to what has arrived, and `Move.speaks` says that a move of one task, with packets of
the other one, keeps both ends right.
-/

namespace KcpRs

open Lib

/-- A packet of well-formed segments of which `Good` holds. -/
def Honestly (Good : Seg → Prop) (packet : Bytes) : Prop :=
  ∃ segs, segs ≠ [] ∧ packet = encodePacket segs ∧
    ∀ seg ∈ segs, isCommand seg.cmd ∧ seg.data.length < 2 ^ 31 ∧ Good seg

theorem Honestly.mono {Good Good' : Seg → Prop} {packet : Bytes} (honestly : Honestly Good packet)
    (weaker : ∀ seg, Good seg → Good' seg) : Honestly Good' packet := by
  obtain ⟨segs, nonempty, equal, good⟩ := honestly
  refine ⟨segs, nonempty, equal, fun seg member => ?_⟩
  obtain ⟨command, size, holds⟩ := good seg member
  exact ⟨command, size, weaker seg holds⟩

/-- The FIN flag is on a packet or it is not, and can be taken off again. -/
theorem Honestly.stamp {Good : Seg → Prop} {packet : Bytes} (honestly : Honestly Good packet)
    (hs : Handshake) : Task.stamp hs packet = packet ∧ finFlagged packet = false ∧
        ¬ (hs = .finSent ∧ (readPayloadData packet).isSome) ∨
      hs = .finSent ∧ finFlagged (Task.stamp hs packet) ∧
        (∀ conv fuel, accepted conv fuel (Task.stamp hs packet) = []) ∧
        ∀ cmd, readCmd (Task.stamp hs packet) = some cmd →
          writeCmd (Task.stamp hs packet) (cmd ^^^ kcpFin) = packet := by
  obtain ⟨segs, nonempty, rfl, good⟩ := honestly
  cases segs with
  | nil => exact absurd rfl nonempty
  | cons seg rest =>
      have command := (good seg List.mem_cons_self).1
      unfold Task.stamp
      split
      · rename_i stamped
        refine .inr ⟨stamped.1, ?_, ?_, ?_⟩
        all_goals rw [getD_encodePacket, writeCmd_encodePacket]
        · rw [finFlagged, getD_encodePacket]
          exact decide_eq_true (isCommand_or_kcpFin command)
        · intro conv fuel
          refine accepted_of_not_isCommand ?_ conv fuel
          by_contra known
          have free := isCommand_and_kcpFin (by simpa using known)
          exact isCommand_or_kcpFin command free
        · intro cmd read
          rw [readCmd_encodePacket, Option.some.injEq] at read
          rw [writeCmd_encodePacket, ← read, isCommand_xor_kcpFin command]
      · rename_i plain
        refine .inl ⟨rfl, ?_, plain⟩
        rw [finFlagged, getD_encodePacket]
        exact decide_eq_false (by simp [isCommand_and_kcpFin command])

/-- The RESET packet is not processed. -/
theorem accepted_writeAckHead (kcp : Kcp) (now conv : U32) (fuel : Nat) :
    accepted conv fuel (kcp.writeAckHead kcpReset 0 now) = [] := by
  cases fuel with
  | zero => rfl
  | succ fuel =>
      unfold accepted
      rw [Kcp.writeAckHead_eq, Head.decode_encode]
      dsimp only
      have unknown : isCommand (kcp.ackHead kcpReset 0 now).cmd = false := by
        show isCommand (ikcpCmdAck ||| kcpReset) = false
        decide
      simp only [unknown, if_true, ite_self]

/-- What a flush emits is honest. -/
theorem Honestly.of_emitted {Sent Peer : Nat → Payload → Prop} {Held : Nat → Prop} {limit : Nat}
    {kcp kcp' : Ikcpcb} (tied : kcp.Tied Sent Held Peer limit) (short : limit < 2 ^ 31)
    (flying : kcp'.Flying Sent) (sound : kcp'.Sound) (small : kcp'.mss < 2 ^ 31) {packet : Bytes}
    (emitted : ∃ segs, segs ≠ [] ∧ packet = encodePacket segs ∧
      ∀ seg ∈ segs, Emitted kcp.conv kcp.rcvNxt32 kcp.acklist kcp'.sndBuf seg) :
    Honestly (fun seg => seg.Honest Sent kcp'.sndNxt kcp.Has) packet := by
  obtain ⟨segs, nonempty, equal, good⟩ := emitted
  refine ⟨segs, nonempty, equal, fun seg member => ?_⟩
  have source := good seg member
  have honest := tied.honest short flying sound source
  obtain ⟨_, inside | ⟨⟨empty, _⟩, ack | ask | tell⟩⟩ := source
  · have waits : seg.payload ∈ kcp'.pending := by
      rw [Ikcpcb.pending, List.map_append]
      exact List.mem_append_left _ (List.mem_map_of_mem inside)
    exact ⟨by simp [isCommand, sound.push seg inside],
      (sound.sized seg.payload waits).trans_lt small, honest⟩
  · exact ⟨by simp [isCommand, ack.1], by simp [empty], honest⟩
  · exact ⟨by simp [isCommand, ask], by simp [empty], honest⟩
  · exact ⟨by simp [isCommand, tell], by simp [empty], honest⟩

theorem Ikcpcb.Configured.mss_lt {cfg : Config} {kcp : Ikcpcb} (configured : kcp.Configured cfg) :
    kcp.mss < 2 ^ 31 := by
  have most := configured.most
  rw [configured.mss]
  omega

theorem Ikcpcb.Configured.mss_pos {cfg : Config} {kcp : Ikcpcb} (configured : kcp.Configured cfg) :
    0 < kcp.mss := by
  have least := configured.least
  rw [configured.mss, ikcpOverhead]
  omega

/-- The record of a frame that `Kcp::send` took. -/
def Obs.sent : Obs → Option Sent
  | .send sent => some sent
  | _ => none

/-- What a frame that `Kcp::send` takes becomes. -/
theorem Kcp.written_send {payloads : List Payload} {kcp kcp' : Kcp} {frame : Bytes} {size : Nat}
    (written : kcp.cb.Written payloads) (positive : 0 < kcp.cb.mss) (small : frame.length < 2 ^ 32)
    (accepted : kcp.send frame = some (.ok size, kcp')) : ∃ payloads' queue count,
      kcp' = { kcp with cb := { kcp.cb with sndQueue := queue, nsndQue := count } } ∧
      kcp'.cb.Written payloads' ∧ (frame = [] ∧ payloads' = payloads ∨
        frame ≠ [] ∧ kcp.cb.Appended frame frame.length payloads payloads') := by
  rcases Kcp.send_eq accepted with ⟨rfl, rfl⟩ | ⟨some, result, rfl⟩
  · exact ⟨payloads, kcp'.cb.sndQueue, kcp'.cb.nsndQue, rfl, written, .inl ⟨rfl, rfl⟩⟩
  · have code : (ikcpSend kcp.cb frame (BitVec.ofNat 32 frame.length).toInt).1 = 0 := by
      rcases ikcpSend_code kcp.cb frame (BitVec.ofNat 32 frame.length).toInt with
        zero | code | code
      · exact zero
      all_goals
        rw [code] at result
        cases result
    have occupied := List.length_pos_iff.2 some
    -- A length that does not fit a C integer would be negative.
    have length : (BitVec.ofNat 32 frame.length).toInt = frame.length := by
      have nonnegative : ¬ (BitVec.ofNat 32 frame.length).toInt < 0 := fun negative => by
        rw [ikcpSend, if_pos negative] at code
        cases code
      rw [BitVec.toInt_eq_toNat_cond, BitVec.toNat_ofNat, Nat.mod_eq_of_lt small] at nonnegative ⊢
      split at nonnegative <;> split <;> omega
    obtain ⟨payloads', written', appended⟩ := written.ikcpSend positive (by omega) code
    rw [length, Int.toNat_natCast] at appended
    obtain ⟨queue, count, equal⟩ :=
      ikcpSend_queue kcp.cb frame (BitVec.ofNat 32 frame.length).toInt
    exact ⟨payloads', queue, count, by rw [equal], written', .inr ⟨some, appended⟩⟩

/-- A frame whose length is a negative C integer is refused before anything is queued. -/
theorem Kcp.refused_negative {kcp kcp' : Kcp} {frame : Bytes} {error : ErrorKind}
    (negative : (BitVec.ofNat 32 frame.length).toInt < 0)
    (refused : kcp.send frame = some (.error error, kcp')) : kcp' = kcp := by
  rcases Kcp.send_eq refused with ⟨_, rfl⟩ | ⟨_, _, rfl⟩
  · rfl
  · rw [ikcpSend, if_pos negative]

namespace Task

/-- The frames that `Kcp::send` took. -/
def sends (t : Task) : List Sent := t.trace.filterMap Obs.sent

/-- A task that has not gone beyond what numbers and lengths of 32 bits can tell apart, and
whose frames were all taken, unless their length was a negative C integer. -/
structure Modest (t : Task) : Prop where
  few : t.kcp.cb.sndNxt < 2 ^ 31
  small : ∀ sent ∈ t.sends, sent.frame.length < 2 ^ 32
  negative : ∀ frame, .tooBig frame ∈ t.trace → (BitVec.ofNat 32 frame.length).toInt < 0

/-- What a segment of `t` says is true. -/
def Truthful (t : Task) (payloads : List Payload) (seg : Seg) : Prop :=
  seg.Honest (At payloads) t.kcp.cb.sndNxt t.kcp.cb.Has

/-- What `t` knows of `peer` and tells it, when `own` and `other` are the payloads that the two
have ever queued. -/
structure Speaks (own other : List Payload) (t peer : Task) : Prop where
  counted : t.kcp.cb.Counted
  sound : t.kcp.cb.Sound
  configured : t.kcp.cb.Configured t.cfg
  written : t.kcp.cb.Written own
  tied : t.kcp.cb.Tied (At own) peer.kcp.cb.Has (At other) peer.kcp.cb.sndNxt
  queue : ∀ packet ∈ t.kcp.outputQueue, Honestly (t.Truthful own) packet
  said : ∀ bytes, .packet bytes ∈ t.trace →
    ∃ hs packet, bytes = stamp hs packet ∧ Honestly (t.Truthful own) packet
  resets : ∀ bytes, .reset bytes ∈ t.trace →
    ∃ (kcp : Kcp) (now : U32), bytes = kcp.writeAckHead kcpReset 0 now

variable {ambient : Ambient} {own own' other : List Payload} {t t' peer : Task}

/-- Whatever a task has given to the network, its segments are honest. -/
theorem Speaks.honest (speaks : t.Speaks own other peer) {bytes : Bytes} (member : bytes ∈ t.emitted)
    {conv : U32} {fuel : Nat} {segment : Head × Bytes}
    (processed : segment ∈ accepted conv fuel bytes) :
    t.Truthful own (segment.1.segment segment.2) := by
  rcases mem_emitted.1 member with packet | reset
  · obtain ⟨hs, packet, rfl, honestly⟩ := speaks.said bytes packet
    rcases honestly.stamp hs with ⟨same, _⟩ | ⟨_, _, none, _⟩
    · rw [same] at processed
      obtain ⟨segs, _, rfl, good⟩ := honestly
      obtain ⟨seg, inside, _, rfl⟩ := mem_accepted_encodePacket
        (fun seg member => (good seg member).2.1) processed
      have honest := (good seg inside).2.2
      exact ⟨honest.una, honest.ack, honest.push⟩
    · rw [none] at processed
      cases processed
  · obtain ⟨kcp, now, rfl⟩ := speaks.resets bytes reset
    rw [accepted_writeAckHead] at processed
    cases processed

/-- A packet with the FIN flag is honest without it. -/
theorem Speaks.honest_fin (speaks : t.Speaks own other peer) {bytes : Bytes}
    (member : bytes ∈ t.emitted) {cmd : Byte} (command : readCmd bytes = some cmd)
    (flagged : cmd &&& kcpFin ≠ 0) : .packet bytes ∈ t.trace ∧ ∃ packet,
      bytes = stamp .finSent packet ∧ writeCmd bytes (cmd ^^^ kcpFin) = packet ∧
      Honestly (t.Truthful own) packet := by
  rcases mem_emitted.1 member with recorded | reset
  · obtain ⟨hs, packet, rfl, honestly⟩ := speaks.said bytes recorded
    refine ⟨recorded, packet, ?_⟩
    rcases honestly.stamp hs with ⟨same, unflagged, _⟩ | ⟨rfl, _, _, back⟩
    · rw [same] at command
      have first : packet[4]? = some cmd := command
      rw [finFlagged, List.getD_eq_getElem?_getD, first, Option.getD_some] at unflagged
      exact absurd flagged (of_decide_eq_false unflagged)
    · exact ⟨rfl, back cmd command, honestly⟩
  · obtain ⟨kcp, now, rfl⟩ := speaks.resets bytes reset
    have read : readCmd (kcp.writeAckHead kcpReset 0 now) = some (ikcpCmdAck ||| kcpReset) := by
      rw [Kcp.writeAckHead_eq]
      rfl
    rw [read, Option.some.injEq] at command
    rw [← command] at flagged
    exact absurd (by decide) flagged

/-- What is kept by a task that takes a turn. -/
theorem Speaks.turn (speaks : t.Speaks own other peer) (counted : t'.kcp.cb.Counted)
    (sound : t'.kcp.cb.Sound) (configured : t'.kcp.cb.Configured t'.cfg)
    (written : t'.kcp.cb.Written own')
    (tied : t'.kcp.cb.Tied (At own') peer.kcp.cb.Has (At other) peer.kcp.cb.sndNxt)
    (kept : ∀ number payload, number < t.kcp.cb.sndNxt → At own number payload →
      At own' number payload)
    (next : t.kcp.cb.sndNxt ≤ t'.kcp.cb.sndNxt)
    (grows : ∀ number < 2 ^ 31, t.kcp.cb.Has number → t'.kcp.cb.Has number)
    (queue : ∀ packet ∈ t'.kcp.outputQueue, packet ∈ t.kcp.outputQueue ∨
      Honestly (t'.Truthful own') packet)
    (said : ∀ bytes, .packet bytes ∈ t'.trace → .packet bytes ∈ t.trace ∨
      ∃ packet ∈ t.kcp.outputQueue, bytes = stamp t.hs packet)
    (resets : ∀ bytes, .reset bytes ∈ t'.trace → .reset bytes ∈ t.trace ∨
      ∃ now, bytes = t.kcp.writeAckHead kcpReset 0 now) : t'.Speaks own' other peer := by
  have still (packet : Bytes) (honestly : Honestly (t.Truthful own) packet) :
      Honestly (t'.Truthful own') packet :=
    honestly.mono fun _ honest => honest.mono next kept grows
  refine ⟨counted, sound, configured, written, tied, fun packet member => ?_, fun bytes member => ?_,
    fun bytes member => ?_⟩
  · rcases queue packet member with earlier | fresh
    · exact still packet (speaks.queue packet earlier)
    · exact fresh
  · rcases said bytes member with earlier | ⟨packet, inside, rfl⟩
    · obtain ⟨hs, packet, equal, honestly⟩ := speaks.said bytes earlier
      exact ⟨hs, packet, equal, still packet honestly⟩
    · exact ⟨t.hs, packet, rfl, still packet (speaks.queue packet inside)⟩
  · rcases resets bytes member with earlier | ⟨now, equal⟩
    · exact speaks.resets bytes earlier
    · exact ⟨t.kcp, now, equal⟩

/-- What a turn of the other task leaves right. -/
theorem Speaks.heard (speaks : peer.Speaks other own t) (few : peer.kcp.cb.sndNxt < 2 ^ 31)
    (kept : ∀ number payload, number < t.kcp.cb.sndNxt → At own number payload →
      At own' number payload)
    (next : t.kcp.cb.sndNxt ≤ t'.kcp.cb.sndNxt)
    (grows : ∀ number < 2 ^ 31, t.kcp.cb.Has number → t'.kcp.cb.Has number) :
    peer.Speaks other own' t' where
  counted := speaks.counted
  sound := speaks.sound
  configured := speaks.configured
  written := speaks.written
  tied := speaks.tied.mono few.le (fun _ _ _ sent => sent) grows next kept
  queue := speaks.queue
  said := speaks.said
  resets := speaks.resets

/-- What a turn does to the payloads queued, to what has arrived and to what has been taken. -/
structure Turn (own own' : List Payload) (t t' : Task) : Prop where
  grows : ∀ number < 2 ^ 31, t.kcp.cb.Has number → t'.kcp.cb.Has number
  next : t.kcp.cb.sndNxt ≤ t'.kcp.cb.sndNxt
  wrote : own' = own ∧ t'.sends = t.sends ∨ ∃ sent, t'.sends = t.sends ++ [sent] ∧
    sent.upto = own'.length ∧ (sent.frame = [] ∧ own' = own ∨
      sent.frame ≠ [] ∧ t.kcp.cb.Appended sent.frame sent.frame.length own own')
  read : t'.kcp.cb.taken = t.kcp.cb.taken ∧ t'.received = t.received ∨
    ∃ frame, t.running ∧ t.kcpRecv = some (frame, t')

/-- What has been numbered stays. -/
theorem Turn.kept (turn : Turn own own' t t') : ∀ number payload, number < t.kcp.cb.sndNxt →
    At own number payload → At own' number payload := by
  intro number payload below there
  rcases turn.wrote with ⟨same, _⟩ | ⟨_, _, _, ⟨_, same⟩ | ⟨_, appended⟩⟩
  · rwa [same]
  · rwa [same]
  · have kept := congrArg (·[number]?) appended.numbered
    simp only [List.getElem?_take, if_pos below] at kept
    exact kept.trans there

/-- An observation that the two ends do not share. -/
def Aloof (obs : Obs) : Prop := obs.sent = none ∧ obs.popped = none ∧ obs.wire = none

theorem sends_of_aloof {extra : List Obs} (trace : t'.trace = t.trace ++ extra)
    (aloof : ∀ obs ∈ extra, obs.sent = none) : t'.sends = t.sends := by
  have none : extra.filterMap Obs.sent = [] := List.filterMap_eq_nil_iff.2 aloof
  rw [sends, trace, List.filterMap_append, none, List.append_nil, sends]

theorem received_of_aloof {extra : List Obs} (trace : t'.trace = t.trace ++ extra)
    (aloof : ∀ obs ∈ extra, obs.popped = none) : t'.received = t.received := by
  have none : extra.filterMap Obs.popped = [] := List.filterMap_eq_nil_iff.2 aloof
  rw [received, trace, List.filterMap_append, none, List.append_nil, received]

/-- A turn that does not touch the engine. -/
theorem Speaks.record (speaks : t.Speaks own other peer) (kcp : t'.kcp = t.kcp)
    (cfg : t'.cfg = t.cfg) {extra : List Obs} (trace : t'.trace = t.trace ++ extra)
    (aloof : ∀ obs ∈ extra, Aloof obs) :
    ∃ own', t'.Speaks own' other peer ∧ Turn own own' t t' := by
  refine ⟨own, ?_, ⟨?_, ?_, .inl ⟨rfl, ?_⟩, .inl ⟨?_, ?_⟩⟩⟩
  · have fresh {obs : Obs} {bytes : Bytes} (wired : obs.wire = some bytes)
        (member : obs ∈ t'.trace) : obs ∈ t.trace := by
      rw [trace, List.mem_append] at member
      refine member.resolve_right fun added => ?_
      rw [(aloof obs added).2.2] at wired
      cases wired
    refine speaks.turn ?_ ?_ ?_ ?_ ?_ (fun _ _ _ there => there) ?_ ?_ (fun packet member => .inl ?_)
      (fun bytes member => .inl (fresh rfl member)) (fun bytes member => .inl (fresh rfl member))
    · exact kcp ▸ speaks.counted
    · exact kcp ▸ speaks.sound
    · rw [kcp, cfg]
      exact speaks.configured
    · exact kcp ▸ speaks.written
    · exact kcp ▸ speaks.tied
    · rw [kcp]
    · rw [kcp]
      exact fun _ _ has => has
    · rwa [kcp] at member
  · rw [kcp]
    exact fun _ _ has => has
  · rw [kcp]
  · exact sends_of_aloof trace fun obs member => (aloof obs member).1
  · rw [kcp]
  · exact received_of_aloof trace fun obs member => (aloof obs member).2.1

/-- A turn of the engine that records nothing and queues no frame. -/
theorem Speaks.engine (speaks : t.Speaks own other peer) (move : Move ambient t t')
    (trace : t'.trace = t.trace) (written : t'.kcp.cb.Written own)
    (tied : t'.kcp.cb.Tied (At own) peer.kcp.cb.Has (At other) peer.kcp.cb.sndNxt)
    (next : t.kcp.cb.sndNxt ≤ t'.kcp.cb.sndNxt)
    (grows : ∀ number < 2 ^ 31, t.kcp.cb.Has number → t'.kcp.cb.Has number)
    (taken : t'.kcp.cb.taken = t.kcp.cb.taken)
    (queue : ∀ packet ∈ t'.kcp.outputQueue, packet ∈ t.kcp.outputQueue ∨
      Honestly (t'.Truthful own) packet) :
    ∃ own', t'.Speaks own' other peer ∧ Turn own own' t t' := by
  have configured : t'.kcp.cb.Configured t'.cfg := by
    rw [move.identity.1]
    exact (engineStable_configured t.cfg).move move speaks.configured
  have sound := engineStable_sound.move move speaks.sound
  have counted := engineStable_counted.move move speaks.counted
  refine ⟨own, speaks.turn counted sound configured written tied (fun _ _ _ there => there) next
    grows queue ?_ ?_, ⟨grows, next, .inl ⟨rfl, ?_⟩, .inl ⟨taken, ?_⟩⟩⟩
  · rw [trace]
    exact fun bytes member => .inl member
  · rw [trace]
    exact fun bytes member => .inl member
  · rw [sends, trace, sends]
  · rw [received, trace, received]

/-- A flush or an update. -/
theorem Speaks.emit (speaks : t.Speaks own other peer) (move : Move ambient t t')
    (few : peer.kcp.cb.sndNxt < 2 ^ 31) {result : Ikcpcb × List Bytes}
    (kcp : t'.kcp = t.kcp.emit result) (trace : t'.trace = t.trace)
    (written : result.1.Written own)
    (tied : result.1.Tied (At own) peer.kcp.cb.Has (At other) peer.kcp.cb.sndNxt)
    (next : t.kcp.cb.sndNxt ≤ result.1.sndNxt) (receiver : result.1.receiver = t.kcp.cb.receiver)
    (emitted : ∀ packet ∈ result.2, ∃ segs, segs ≠ [] ∧ packet = encodePacket segs ∧
      ∀ seg ∈ segs, Emitted t.kcp.cb.conv t.kcp.cb.rcvNxt32 t.kcp.cb.acklist result.1.sndBuf seg) :
    ∃ own', t'.Speaks own' other peer ∧ Turn own own' t t' := by
  have cb : t'.kcp.cb = result.1 := by rw [kcp, Kcp.emit]
  have sound : result.1.Sound := cb ▸ engineStable_sound.move move speaks.sound
  have configured : result.1.Configured t.cfg :=
    cb ▸ (engineStable_configured t.cfg).move move speaks.configured
  have has (number : Nat) : result.1.Has number ↔ t.kcp.cb.Has number := Ikcpcb.has_congr receiver number
  refine speaks.engine move trace (cb ▸ written) (cb ▸ tied) (cb ▸ next) ?_ ?_ fun packet member => ?_
  · rw [cb]
    exact fun number _ => (has number).2
  · rw [cb]
    exact Ikcpcb.taken_congr receiver
  · rw [kcp, Kcp.emit, List.mem_append] at member
    refine member.imp_right fun fresh => ?_
    refine (Honestly.of_emitted speaks.tied few tied.flying sound configured.mss_lt
      (emitted packet fresh)).mono fun seg honest => ?_
    unfold Truthful
    rw [cb]
    exact honest.mono le_rfl (fun _ _ _ there => there) fun number _ => (has number).2

/-- A frame that `Kcp::send` takes. -/
theorem Speaks.send (speaks : t.Speaks own other peer) (move : Move ambient t t')
    (few : t.kcp.cb.sndNxt < 2 ^ 31) {kind : FrameKind} {frame : Bytes} {size : Nat} {kcp : Kcp}
    (accepted : t.kcp.send frame = some (.ok size, kcp)) (engine : t'.kcp = kcp)
    (trace : t'.trace = t.trace ++ [t.sentRecord kind frame kcp]) (small : frame.length < 2 ^ 32) :
    ∃ own', t'.Speaks own' other peer ∧ Turn own own' t t' := by
  obtain ⟨own', queue, count, rfl, written, wrote⟩ :=
    Kcp.written_send speaks.written speaks.configured.mss_pos small accepted
  have sends : t'.sends = t.sends ++
      [⟨kind, frame, t.kcp.getWaitsnd, t.kcp.cb.sndNxt + count⟩] := by
    rw [Task.sends, trace, List.filterMap_append]
    rfl
  have received : t'.received = t.received := by
    rw [Task.received, trace, List.filterMap_append]
    exact List.append_nil _
  have next : t'.kcp.cb.sndNxt = t.kcp.cb.sndNxt := by rw [engine]
  have receiver : t'.kcp.cb.receiver = t.kcp.cb.receiver := by
    rw [engine]
    rfl
  have grows (number : Nat) (_ : number < 2 ^ 31) (has : t.kcp.cb.Has number) :
      t'.kcp.cb.Has number := (Ikcpcb.has_congr receiver number).2 has
  have counted := engineStable_counted.move move speaks.counted
  have upto : t.kcp.cb.sndNxt + count = own'.length := by
    have queued := counted.sndQueue
    rw [engine] at queued
    exact (congrArg (t.kcp.cb.sndNxt + ·) queued).trans written.length.symm
  have turn : Turn own own' t t' := ⟨grows, next.ge, .inr ⟨_, sends, upto, wrote⟩,
    .inl ⟨Ikcpcb.taken_congr receiver, received⟩⟩
  have tied := speaks.tied.mono few.le turn.kept (fun _ _ held => held) le_rfl fun _ _ _ there => there
  have configured : t'.kcp.cb.Configured t'.cfg := by
    rw [move.identity.1]
    exact (engineStable_configured t.cfg).move move speaks.configured
  refine ⟨own', speaks.turn counted
    (engineStable_sound.move move speaks.sound) configured ?_ ?_ turn.kept next.ge grows
    (fun packet member => .inl ?_) (fun bytes member => .inl ?_) (fun bytes member => .inl ?_), turn⟩
  · rwa [engine]
  · refine tied.congr ?_ next ?_ receiver ?_ <;> rw [engine]
    exact tied.flying.fewer rfl rfl rfl (List.Sublist.refl _)
  · rwa [engine] at member
  · simpa [trace, sentRecord] using member
  · simpa [trace, sentRecord] using member

/-- A packet whose segments are honest, processed under any conv. -/
theorem Speaks.input (speaks : t.Speaks own other peer) (move : Move ambient t t')
    (short : peer.kcp.cb.sndNxt < 2 ^ 31) (few : t.kcp.cb.sndNxt < 2 ^ 31) {conv back : U32}
    {packet : Bytes} {result : Except ErrorKind Unit} {kcp : Kcp}
    (taken : (t.kcp.setConv conv).input packet = some (result, kcp))
    (engine : t'.kcp = kcp.setConv back) (trace : t'.trace = t.trace)
    (honest : ∀ segment ∈ accepted conv packet.length packet,
      peer.Truthful other (segment.1.segment segment.2)) :
    ∃ own', t'.Speaks own' other peer ∧ Turn own own' t t' := by
  obtain ⟨_, rfl⟩ := Kcp.input_eq taken
  have started : (t.kcp.setConv conv).cb.Tied (At own) peer.kcp.cb.Has (At other)
      peer.kcp.cb.sndNxt :=
    speaks.tied.congr (speaks.tied.flying.fewer rfl rfl rfl (List.Sublist.refl _)) rfl rfl rfl rfl
  obtain ⟨tied, same, grows⟩ := started.ikcpInput short few honest
  have kept := inputKept_ikcpInput (t.kcp.setConv conv).cb packet
  have next : (ikcpInput (t.kcp.setConv conv).cb packet).2.sndNxt = t.kcp.cb.sndNxt :=
    congrArg InputKept.sndNxt kept
  have queue : (ikcpInput (t.kcp.setConv conv).cb packet).2.sndQueue = t.kcp.cb.sndQueue :=
    congrArg InputKept.sndQueue kept
  refine speaks.engine move trace ?_ ?_ ?_ ?_ ?_ (fun packet member => .inl ?_)
  · rw [engine]
    exact speaks.written.congr queue next
  · rw [engine]
    exact tied.congr (tied.flying.fewer rfl rfl rfl (List.Sublist.refl _)) rfl rfl rfl rfl
  · rw [engine]
    exact next.ge
  · rw [engine]
    exact grows
  · rw [engine]
    exact same
  · rwa [engine] at member

/-- `kcp_recv`. -/
theorem Speaks.kcpRecv (speaks : t.Speaks own other peer) (move : Move ambient t t')
    (short : peer.kcp.cb.sndNxt < 2 ^ 31) (running : t.running) {frame : Option Bytes}
    (taken : t.kcpRecv = some (frame, t')) :
    ∃ own', t'.Speaks own' other peer ∧ Turn own own' t t' := by
  obtain ⟨kcp, extra, received, engine, trace, aloof⟩ : ∃ kcp extra,
      (∃ got, t.kcp.recvBytes = some (got, kcp)) ∧ t'.kcp = kcp ∧ t'.trace = t.trace ++ extra ∧
      ∀ obs ∈ extra, obs.sent = none ∧ obs.wire = none := by
    obtain ⟨kcp, ⟨got, _, rfl⟩ | ⟨bytes, got, ⟨_, _, rfl⟩ | ⟨_, _, rfl⟩⟩⟩ := kcpRecv_cases taken
    · exact ⟨kcp, [], ⟨_, got⟩, rfl, (List.append_nil _).symm, by simp⟩
    · exact ⟨kcp, [.discard bytes], ⟨_, got⟩, rfl, rfl, by simp [Obs.sent, Obs.wire]⟩
    · exact ⟨kcp, [.recv bytes], ⟨_, got⟩, rfl, rfl, by simp [Obs.sent, Obs.wire]⟩
  obtain ⟨got, received⟩ := received
  obtain ⟨tied, written, next, grows, queue⟩ :
      kcp.cb.Tied (At own) peer.kcp.cb.Has (At other) peer.kcp.cb.sndNxt ∧ kcp.cb.Written own ∧
        kcp.cb.sndNxt = t.kcp.cb.sndNxt ∧
        (∀ number < 2 ^ 31, t.kcp.cb.Has number → kcp.cb.Has number) ∧
        kcp.outputQueue = t.kcp.outputQueue := by
    obtain ⟨_, rfl⟩ | ⟨_, _, _, rfl⟩ := Kcp.recvBytes_eq received
    · exact ⟨speaks.tied, speaks.written, rfl, fun _ _ has => has, rfl⟩
    · obtain ⟨tied, _, has⟩ := speaks.tied.recvMoved short
      obtain ⟨probe, equal⟩ := recvMoved_eq t.kcp.cb false
      have sndNxt : (recvMoved t.kcp.cb false).sndNxt = t.kcp.cb.sndNxt := by
        rw [equal]
        rfl
      refine ⟨tied, speaks.written.congr ?_ sndNxt, sndNxt, fun number near => (has number near).2, rfl⟩
      rw [equal]
      rfl
  have configured : t'.kcp.cb.Configured t'.cfg := by
    rw [move.identity.1]
    exact (engineStable_configured t.cfg).move move speaks.configured
  have old {obs : Obs} {bytes : Bytes} (wired : obs.wire = some bytes) (member : obs ∈ t'.trace) :
      obs ∈ t.trace := by
    rw [trace, List.mem_append] at member
    refine member.resolve_right fun added => ?_
    rw [(aloof obs added).2] at wired
    cases wired
  subst engine
  refine ⟨own, speaks.turn (engineStable_counted.move move speaks.counted)
    (engineStable_sound.move move speaks.sound) configured written tied (fun _ _ _ there => there)
    next.ge grows (fun packet member => .inl (queue ▸ member)) (fun _ member => .inl (old rfl member))
    (fun _ member => .inl (old rfl member)), ⟨grows, next.ge, .inl ⟨rfl, ?_⟩, .inr ⟨frame, running, taken⟩⟩⟩
  exact sends_of_aloof trace fun obs member => (aloof obs member).1

/-- Numbers are never given back. -/
theorem engineStable_sndNxt (least : Nat) : EngineStable fun kcp => least ≤ kcp.sndNxt where
  update kcp now holds := holds.trans (Ikcpcb.sndNxt_le_ikcpUpdate kcp now)
  flush kcp holds := holds.trans (Ikcpcb.sndNxt_le_ikcpFlush kcp)
  send kcp data len holds := by
    obtain ⟨queue, count, equal⟩ := ikcpSend_queue kcp data len
    rwa [equal]
  input kcp data holds := by
    have next : (ikcpInput kcp data).2.sndNxt = kcp.sndNxt :=
      congrArg InputKept.sndNxt (inputKept_ikcpInput kcp data)
    rwa [next]
  recv kcp holds := by
    obtain ⟨probe, equal⟩ := recvMoved_eq kcp false
    rwa [equal]
  nodelay _ _ _ _ _ holds := holds
  conv _ _ holds := holds

theorem Move.sndNxt_le (move : Move ambient t t') : t.kcp.cb.sndNxt ≤ t'.kcp.cb.sndNxt :=
  (engineStable_sndNxt t.kcp.cb.sndNxt).move move le_rfl

/-- Packets that are fed to the transport. -/
theorem Speaks.feed (speaks : t.Speaks own other peer) {packets : List Bytes}
    (taken : packets <+: t.kcp.outputQueue)
    (equal : t' = ({ t with kcp := { t.kcp with outputQueue := [] } }.feed packets)) :
    ∃ own', t'.Speaks own' other peer ∧ Turn own own' t t' := by
  subst equal
  have sends : ({ t with kcp := { t.kcp with outputQueue := [] } }.feed packets).sends = t.sends :=
    sends_of_aloof rfl (by simp [Obs.sent])
  have received :
      ({ t with kcp := { t.kcp with outputQueue := [] } }.feed packets).received = t.received :=
    received_of_aloof rfl (by simp [Obs.popped])
  refine ⟨own, ?_, ⟨fun _ _ has => has, le_rfl, .inl ⟨rfl, sends⟩, .inl ⟨rfl, received⟩⟩⟩
  refine speaks.turn speaks.counted speaks.sound speaks.configured speaks.written speaks.tied
    (fun _ _ _ there => there) le_rfl (fun _ _ has => has) ?_ ?_ ?_
  · intro packet member
    cases member
  · intro bytes member
    rw [Task.feed, List.mem_append, List.mem_map] at member
    refine member.imp_right ?_
    rintro ⟨packet, inside, stamped⟩
    cases stamped
    exact ⟨packet, taken.subset inside, rfl⟩
  · intro bytes member
    rw [Task.feed, List.mem_append, List.mem_map] at member
    refine .inl (member.resolve_right ?_)
    rintro ⟨packet, _, other⟩
    cases other

/-- The end of `run`. -/
theorem Speaks.finish (speaks : t.Speaks own other peer) (equal : t' = t.finish) :
    ∃ own', t'.Speaks own' other peer ∧ Turn own own' t t' := by
  obtain ⟨ticks, resets, only, finished⟩ := finish_eq t
  rw [finished] at equal
  subst equal
  have trace (obs : Obs) (member : obs ∈ resets ++ [.disconnect t.kcp.cb.conv]) :
      obs.sent = none ∧ obs.popped = none := by
    rcases List.mem_append.1 member with reset | last
    · obtain ⟨now, rfl⟩ := only obs reset
      exact ⟨rfl, rfl⟩
    · rw [List.mem_singleton.1 last]
      exact ⟨rfl, rfl⟩
  refine ⟨own, ?_, ⟨fun _ _ has => has, le_rfl, .inl ⟨rfl, ?_⟩, .inl ⟨rfl, ?_⟩⟩⟩
  · refine speaks.turn speaks.counted speaks.sound speaks.configured speaks.written speaks.tied
      (fun _ _ _ there => there) le_rfl (fun _ _ has => has) (fun _ member => .inl member) ?_ ?_
    · intro bytes member
      simp only [List.mem_append, List.mem_singleton, reduceCtorEq, or_false] at member
      refine .inl (member.resolve_right fun reset => ?_)
      obtain ⟨now, other⟩ := only _ reset
      cases other
    · intro bytes member
      simp only [List.mem_append, List.mem_singleton, reduceCtorEq, or_false] at member
      refine member.imp_right fun reset => ?_
      obtain ⟨now, equal⟩ := only _ reset
      cases equal
      exact ⟨now, rfl⟩
  · exact sends_of_aloof (List.append_assoc _ _ _) fun obs member => (trace obs member).1
  · exact received_of_aloof (List.append_assoc _ _ _) fun obs member => (trace obs member).2

/-- A move with packets of the other task keeps what the two know of each other. -/
theorem Move.speaks (move : Move ambient t t') (speaks : t.Speaks own other peer)
    (answers : peer.Speaks other own t)
    (carried : ∀ packet, ambient.Delivered packet → packet ∈ peer.emitted) (modest : t'.Modest)
    (short : peer.kcp.cb.sndNxt < 2 ^ 31) :
    ∃ own', t'.Speaks own' other peer ∧ Turn own own' t t' := by
  have few := move.sndNxt_le.trans_lt modest.few
  have queued := speaks.written.queued
  have small {kind : FrameKind} {frame : Bytes} {kcp : Kcp}
      (trace : t'.trace = t.trace ++ [t.sentRecord kind frame kcp]) : frame.length < 2 ^ 32 :=
    modest.small ⟨kind, frame, _, _⟩ (by
      rw [sends, trace, List.filterMap_append]
      exact List.mem_append_right _ (List.mem_singleton.2 rfl))
  have self := move
  cases move with
  | nodelay nodelay interval resend nc =>
      refine speaks.engine self rfl (speaks.written.congr rfl rfl)
        (speaks.tied.congr ?_ rfl rfl rfl rfl) le_rfl (fun _ _ has => has) rfl fun _ member => .inl member
      exact speaks.tied.flying.fewer rfl rfl rfl (List.Sublist.refl _)
  | update now =>
      exact speaks.emit self short rfl rfl (speaks.written.ikcpUpdate now)
        (speaks.tied.ikcpUpdate queued now) (Ikcpcb.sndNxt_le_ikcpUpdate _ now)
        (receiver_ikcpUpdate _ now) fun packet => packet_ikcpUpdate
  | flush =>
      exact speaks.emit self short rfl rfl speaks.written.ikcpFlush
        (speaks.tied.ikcpFlush queued) (Ikcpcb.sndNxt_le_ikcpFlush _) (receiver_ikcpFlush _)
        fun packet => packet_ikcpFlush
  | sendSyn _ _ _ _ sent => exact speaks.send self few sent rfl rfl (small rfl)
  | replySyn _ _ _ _ sent => exact speaks.send self few sent rfl rfl (small rfl)
  | sendData _ _ _ sent _ => exact speaks.send self few sent rfl rfl (small rfl)
  | sendFin _ _ _ _ _ sent => exact speaks.send self few sent rfl rfl (small rfl)
  | refuse _ _ _ refused =>
      refine speaks.record (Kcp.refused_negative ?_ refused) rfl rfl
        (by simp [Aloof, Obs.sent, Obs.popped, Obs.wire])
      exact modest.negative _ (List.mem_append_right _ (List.mem_singleton.2 rfl))
  | input arrived _ taken =>
      rw [← Kcp.setConv_self (rfl : t.kcp.cb.conv = _)] at taken
      refine speaks.input self short few taken (Kcp.setConv_self (Kcp.conv_of_input taken)).symm rfl ?_
      exact fun segment processed => answers.honest (carried _ arrived) processed
  | inputAs back arrived _ taken _ =>
      exact speaks.input self short few taken rfl rfl
        fun segment processed => answers.honest (carried _ arrived) processed
  | inputFin arrived _ command flagged _ taken =>
      obtain ⟨_, packet, _, back, honestly⟩ :=
        answers.honest_fin (carried _ arrived) command flagged
      rw [back, ← Kcp.setConv_self (rfl : t.kcp.cb.conv = _)] at taken
      refine speaks.input self short few taken (Kcp.setConv_self (Kcp.conv_of_input taken)).symm rfl ?_
      obtain ⟨segs, _, rfl, good⟩ := honestly
      intro segment processed
      obtain ⟨seg, inside, _, rfl⟩ := mem_accepted_encodePacket
        (fun seg member => (good seg member).2.1) processed
      have honest := (good seg inside).2.2
      exact ⟨honest.una, honest.ack, honest.push⟩
  | recv running taken => exact speaks.kcpRecv self short running taken
  | app event offered acted =>
      obtain ⟨inputRx, token, outputOpen, rfl | ⟨frame, rfl⟩⟩ := app_eq acted
      · exact speaks.record rfl rfl (List.append_nil _).symm (by simp)
      · exact speaks.record rfl rfl rfl (by simp [Aloof, Obs.sent, Obs.popped, Obs.wire])
  | announce | deliver | drained =>
      exact speaks.record rfl rfl rfl (by simp [Aloof, Obs.sent, Obs.popped, Obs.wire])
  | feed taken _ => exact speaks.feed taken rfl
  | finish _ => exact speaks.finish rfl
  | _ => exact speaks.record rfl rfl (List.append_nil _).symm (by simp)

end Task
end KcpRs
