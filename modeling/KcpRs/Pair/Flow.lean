import KcpRs.Pair.Conveyance

/-!
# What flows from one task to the other

`Flow body tail x y` is about the frames that `x` sends to `y`. The payloads that `x` has ever
queued are `body ++ tail`, where `tail` is the FIN frame. What `y` has returned from `kcp_recv`
are the messages of a prefix of `body`; and once the FIN frame has reached `y`, a packet with
the FIN flag has, so that `kcp_recv` takes it for what it is.
-/

namespace KcpRs

open Lib

namespace Task

variable {ambient : Ambient} {t t' : Task}

/-! ## The RESET packet -/

/-- A RESET packet is given to the network at the end of `run` only. -/
def Parted (t : Task) : Prop := (∃ bytes, .reset bytes ∈ t.trace) → t.running = false

theorem Move.resets (move : Move ambient t t') {bytes : Bytes} (member : .reset bytes ∈ t'.trace) :
    .reset bytes ∈ t.trace ∨ t.left := by
  have quiet {u : Task} {extra : List Obs} (member : .reset bytes ∈ u.trace)
      (trace : u.trace = t.trace ++ extra) (other : .reset bytes ∉ extra) :
      .reset bytes ∈ t.trace ∨ t.left := by
    rw [trace, List.mem_append] at member
    exact .inl (member.resolve_right other)
  cases move with
  | app event _ acted =>
      obtain ⟨_, _, _, rfl | ⟨_, rfl⟩⟩ := app_eq acted
      · exact .inl member
      · exact quiet member rfl (by simp)
  | recv _ taken =>
      obtain ⟨kcp, ⟨_, _, rfl⟩ | ⟨_, _, ⟨_, _, rfl⟩ | ⟨_, _, rfl⟩⟩⟩ := kcpRecv_cases taken
      · exact .inl member
      all_goals exact quiet member rfl (by simp)
  | finish left => exact .inr (by simp [Task.left, left])
  | sendSyn | replySyn | sendData | sendFin => exact quiet member rfl (by simp [sentRecord])
  | refuse | announce | deliver | drained | feed => exact quiet member rfl (by simp)
  | _ => exact .inl member

theorem Move.parted (move : Move ambient t t') (parted : t.Parted) : t'.Parted := by
  rintro ⟨bytes, member⟩
  refine Bool.eq_false_iff.2 fun running => ?_
  have before := move.running running
  rcases move.resets member with earlier | left
  · simp [parted ⟨bytes, earlier⟩] at before
  · simp [not_left_of_running before] at left

/-! ## What a move does to the receive side -/

/-- What changes the receive side: a packet, or a frame that is taken. -/
theorem Move.receives (move : Move ambient t t') :
    t'.kcp.cb.receiver = t.kcp.cb.receiver ∨
      (∃ packet conv back data result kcp, ambient.Delivered packet ∧
        (t.kcp.setConv conv).input data = some (result, kcp) ∧ t'.kcp = kcp.setConv back ∧
        (data = packet ∨ t.finRecved ∧ ∃ cmd, readCmd packet = some cmd ∧ cmd &&& kcpFin ≠ 0 ∧
          data = writeCmd packet (cmd ^^^ kcpFin))) ∨
      ∃ frame, t.running ∧ t.kcpRecv = some (frame, t') := by
  have sent {frame : Bytes} {result : Except ErrorKind Nat} {kcp : Kcp}
      (taken : t.kcp.send frame = some (result, kcp)) : kcp.cb.receiver = t.kcp.cb.receiver := by
    rcases Kcp.send_eq taken with ⟨_, rfl⟩ | ⟨_, _, rfl⟩
    · rfl
    · obtain ⟨queue, count, equal⟩ :=
        ikcpSend_queue t.kcp.cb frame (BitVec.ofNat 32 frame.length).toInt
      rw [equal]
      rfl
  cases move with
  | update _ => exact .inl (receiver_ikcpUpdate _ _)
  | flush => exact .inl (receiver_ikcpFlush _)
  | sendSyn _ _ _ _ taken => exact .inl (sent taken)
  | replySyn _ _ _ _ taken => exact .inl (sent taken)
  | sendData _ _ _ taken _ => exact .inl (sent taken)
  | refuse _ _ _ taken => exact .inl (sent taken)
  | sendFin _ _ _ _ _ taken => exact .inl (sent taken)
  | input arrived _ taken =>
      rw [← Kcp.setConv_self (rfl : t.kcp.cb.conv = _)] at taken
      exact .inr (.inl ⟨_, _, _, _, _, _, arrived, taken,
        (Kcp.setConv_self (Kcp.conv_of_input taken)).symm, .inl rfl⟩)
  | inputAs back arrived _ taken _ =>
      exact .inr (.inl ⟨_, _, back, _, _, _, arrived, taken, rfl, .inl rfl⟩)
  | inputFin arrived _ command flagged noticed taken =>
      rw [← Kcp.setConv_self (rfl : t.kcp.cb.conv = _)] at taken
      exact .inr (.inl ⟨_, _, _, _, _, _, arrived, taken,
        (Kcp.setConv_self (Kcp.conv_of_input taken)).symm, .inr ⟨noticed, _, command, flagged, rfl⟩⟩)
  | recv running taken => exact .inr (.inr ⟨_, running, taken⟩)
  | app event _ acted =>
      obtain ⟨_, _, _, rfl | ⟨_, rfl⟩⟩ := app_eq acted <;> exact .inl rfl
  | finish =>
      obtain ⟨_, _, _, equal⟩ := finish_eq t
      rw [equal]
      exact .inl rfl
  | _ => exact .inl rfl

/-- What has arrived came with a packet, before which a packet with the FIN flag may have come. -/
theorem Move.has {Sent Peer : Nat → Payload → Prop} {Held : Nat → Prop} {limit number : Nat}
    (move : Move ambient t t') (tied : t.kcp.cb.Tied Sent Held Peer limit) (small : limit < 2 ^ 31)
    (near : number < 2 ^ 31) (has : t'.kcp.cb.Has number) :
    t.kcp.cb.Has number ∨ ∃ packet, ambient.Delivered packet ∧ (t.finRecved ∨
      ∃ conv, ∃ segment ∈ accepted conv packet.length packet,
        segment.1.cmd = ikcpCmdPush ∧ segment.1.sn = BitVec.ofNat 32 number) := by
  obtain same | ⟨packet, conv, back, data, result, kcp, arrived, taken, engine, way⟩ |
    ⟨frame, _, taken⟩ := move.receives
  · exact .inl ((Ikcpcb.has_congr same number).1 has)
  · obtain ⟨_, rfl⟩ := Kcp.input_eq taken
    rw [engine] at has
    refine (Ikcpcb.has_of_ikcpInput has).imp_right fun came => ⟨packet, arrived, ?_⟩
    rcases way with rfl | ⟨noticed, _⟩
    · exact .inr ⟨conv, came⟩
    · exact .inl noticed
  · refine .inl ?_
    rcases kcpRecv_engine taken with same | moved
    · rwa [same] at has
    · rw [moved] at has
      exact ((tied.recvMoved small).2.2 number near).1 has

/-- The task takes no more packets, or knows that its peer has finished. -/
def Heeds (t : Task) : Prop := t.running → t.finRecved

theorem Move.heeds (move : Move ambient t t') (heeds : t.Heeds) : t'.Heeds := by
  intro running
  rcases move.finRecved with same | ⟨noticed, _⟩
  · rw [same]
    exact heeds (move.running running)
  · exact noticed

/-- What a move gives to the network. -/
theorem Move.emits (move : Move ambient t t') {bytes : Bytes} (member : bytes ∈ t'.emitted) :
    bytes ∈ t.emitted ∨ (∃ packet ∈ t.kcp.outputQueue, bytes = stamp t.hs packet ∧ t.running) ∨
      ∃ now, bytes = t.kcp.writeAckHead kcpReset 0 now := by
  have quiet {u : Task} {extra : List Obs} (member : bytes ∈ u.emitted)
      (trace : u.trace = t.trace ++ extra) (unwired : ∀ obs ∈ extra, obs.wire = none) :
      bytes ∈ t.emitted := by
    rwa [emitted, trace, List.filterMap_append, List.filterMap_eq_nil_iff.2 unwired,
      List.append_nil] at member
  cases move with
  | feed taken running =>
      rw [emitted, Task.feed, List.filterMap_append, List.mem_append] at member
      refine member.imp_right fun fresh => .inl ?_
      obtain ⟨obs, inside, wired⟩ := List.mem_filterMap.1 fresh
      obtain ⟨packet, fed, rfl⟩ := List.mem_map.1 inside
      cases wired
      exact ⟨packet, taken.subset fed, rfl, running⟩
  | finish =>
      obtain ⟨ticks, resets, only, equal⟩ := finish_eq t
      rw [equal, mem_emitted] at member
      simp only [List.mem_append, List.mem_singleton, reduceCtorEq, or_false] at member
      rcases member with (packet | other) | (earlier | reset)
      · exact .inl (mem_emitted.2 (.inl packet))
      · obtain ⟨_, other⟩ := only _ other
        cases other
      · exact .inl (mem_emitted.2 (.inr earlier))
      · obtain ⟨now, same⟩ := only _ reset
        cases same
        exact .inr (.inr ⟨now, rfl⟩)
  | app event _ acted =>
      obtain ⟨_, _, _, rfl | ⟨_, rfl⟩⟩ := app_eq acted
      · exact .inl member
      · exact .inl (quiet member rfl (by simp [Obs.wire]))
  | recv _ taken =>
      obtain ⟨kcp, ⟨_, _, rfl⟩ | ⟨_, _, ⟨_, _, rfl⟩ | ⟨_, _, rfl⟩⟩⟩ := kcpRecv_cases taken
      · exact .inl member
      all_goals exact .inl (quiet member rfl (by simp [Obs.wire]))
  | sendSyn | replySyn | sendData | sendFin =>
      exact .inl (quiet member rfl (by simp [Obs.wire, sentRecord]))
  | refuse | announce | deliver | drained => exact .inl (quiet member rfl (by simp [Obs.wire]))
  | _ => exact .inl member

/-! ## The flow of frames -/

/-- How far `y` has read what `x` has sent: complete messages of `body`, and nothing else, unless
everything of `body` has been taken and the FIN frame is queued. -/
def ReadTo (body : List Payload) (x y : Task) (count : Nat) : Prop :=
  count ≤ body.length ∧ y.received = messages (body.take count) ∧ Whole (body.take count) ∧
    count ≤ y.kcp.cb.taken ∧ (count = y.kcp.cb.taken ∨ x.finQueued ∧ body.length ≤ y.kcp.cb.taken)

/-- What has flowed from `x` to `y`, when `x` has queued `body`, the payloads of its frames, and
`tail`, that of a FIN frame which fits one segment. -/
structure Flow (body tail : List Payload) (x y : Task) : Prop extends Conveys body tail x y where
  short : tail.length ≤ 1
  filled : ∀ payload ∈ tail, payload.data ≠ []
  known : ∀ number < 2 ^ 31, body.length ≤ number → y.kcp.cb.Has number → y.Heeds
  late : ∀ bytes ∈ x.emitted, ∀ conv fuel, ∀ segment ∈ accepted conv fuel bytes,
    segment.1.cmd = ikcpCmdPush → ∀ number < 2 ^ 31, body.length ≤ number →
    segment.1.sn = BitVec.ofNat 32 number → y.Heeds
  read : ∃ count, ReadTo body x y count

variable {body tail other : List Payload} {x x' y y' : Task}

/-- What is in the receive queue when everything of `body` has been taken is the FIN frame. -/
theorem Flow.last (flow : Flow body tail x y) (written : x.kcp.cb.Written (body ++ tail))
    (arrived : y.kcp.cb.Arrived (At (body ++ tail)) x.kcp.cb.sndNxt) (few : x.kcp.cb.sndNxt < 2 ^ 31)
    (running : y.running) (counted : y.kcp.cb.Counted) (queued : y.kcp.cb.rcvQueue ≠ [])
    (past : body.length ≤ y.kcp.cb.taken) : y.discards := by
  have occupied := List.length_pos_iff.2 queued
  have most := arrived.most.trans written.most
  have next := arrived.rcvNxt_eq
  have short := flow.short
  rw [List.length_append] at most
  have buffer := arrived.buffer.length_le
  rw [List.length_map] at buffer
  have limit := written.most
  rw [List.length_append] at limit
  refine ⟨flow.known y.kcp.cb.taken ?_ past (.inl ?_) running, ?_, ?_⟩
  · have := arrived.most
    omega
  · omega
  · rw [counted.rcvQueue]
    omega
  · rw [counted.rcvBuf]
    omega

/-- A frame that is taken is the next one of `body`, or the FIN frame. -/
theorem Flow.recv (flow : Flow body tail x y) (written : x.kcp.cb.Written (body ++ tail))
    (tied : y.kcp.cb.Tied (At other) x.kcp.cb.Has (At (body ++ tail)) x.kcp.cb.sndNxt)
    (few : x.kcp.cb.sndNxt < 2 ^ 31) (counted : y.kcp.cb.Counted) (running : y.running)
    {frame : Option Bytes} (taken : y.kcpRecv = some (frame, y')) :
    ∃ count, ReadTo body x y' count := by
  obtain ⟨count, inside, received, whole, reached, way⟩ := flow.read
  have arrived := tied.arrived
  obtain ⟨_, same, still⟩ | ⟨⟨noticed, single, nothing⟩, _, same, more⟩ |
    ⟨notFin, bytes, _, added, more, queue, next⟩ := flow.toConveys.recv tied few counted taken
  · refine ⟨count, inside, same.trans received, whole, ?_⟩
    rw [still]
    exact ⟨reached, way⟩
  · -- The frame is dropped as the FIN frame: nothing of `body` is left.
    have queued := flow.notice noticed
    obtain ⟨_, all⟩ := flow.settled queued
    rw [counted.rcvQueue] at single
    rw [counted.rcvBuf] at nothing
    have far : body.length ≤ y.kcp.cb.rcvNxt := by
      by_contra near
      rcases all y.kcp.cb.rcvNxt (by omega) with below | ⟨seg, member, _⟩
      · omega
      · rw [List.eq_nil_of_length_eq_zero nothing] at member
        cases member
    have position := arrived.rcvNxt_eq
    exact ⟨count, inside, same.trans received, whole, by omega, .inr ⟨queued, by omega⟩⟩
  · have unread : y.kcp.cb.taken < body.length := by
      by_contra past
      exact notFin (flow.last written arrived few running counted queue (by omega))
    have position : count = y.kcp.cb.taken := by
      rcases way with here | ⟨_, past⟩
      · exact here
      · omega
    subst position
    obtain ⟨fits, part, equal, ends, message⟩ := next unread
    refine ⟨y'.kcp.cb.taken, fits, ?_, ?_, le_rfl, .inl rfl⟩
    · rw [added, received, equal, messages_append whole, message]
    · rw [equal]
      exact whole.append ends

/-- A turn of the receiver. -/
theorem Move.flow_to {own' : List Payload} (move : Move ambient y y')
    (flow : Flow body tail x y) (turn : Turn other own' y y')
    (speaks : x.Speaks (body ++ tail) other y) (answers : y.Speaks other (body ++ tail) x)
    (inv : x.FinLast) (few : x.kcp.cb.sndNxt < 2 ^ 31)
    (carried : ∀ packet, ambient.Delivered packet → packet ∈ x.emitted) :
    Flow body tail x y' where
  toConveys := move.conveys_to flow.toConveys turn speaks inv few carried
  short := flow.short
  filled := flow.filled
  known number near past has := by
    rcases move.has answers.tied few near has with earlier | ⟨packet, arrived, noticed | ⟨conv, came⟩⟩
    · exact move.heeds (flow.known number near past earlier)
    · exact move.heeds fun _ => noticed
    · obtain ⟨segment, member, push, sn⟩ := came
      exact move.heeds (flow.late packet (carried packet arrived) conv packet.length segment member
        push number near past sn)
  late bytes member conv fuel segment processed push number near past sn :=
    move.heeds (flow.late bytes member conv fuel segment processed push number near past sn)
  read := by
    rcases turn.read with ⟨taken, received⟩ | ⟨frame, running, taken⟩
    · obtain ⟨count, read⟩ := flow.read
      refine ⟨count, ?_⟩
      unfold ReadTo at read ⊢
      rwa [taken, received]
    · exact flow.recv speaks.written answers.tied few answers.counted running taken

/-! ## The sender -/

/-- When the FIN frame may go without its flag, the other task heeds it already. -/
def Told (tail : List Payload) (x y : Task) : Prop :=
  tail ≠ [] → x.running → x.hs = .finWaitPeer ∨ x.hs = .disconnected → y.Heeds

/-- A packet of which a segment has a number of the FIN frame carries the FIN flag, or is
heeded already. -/
theorem Flow.late_fed (flow : Flow body tail x y) (told : Told tail x y) (inv : x.FinLast)
    (speaks : x.Speaks (body ++ tail) other y) (few : x.kcp.cb.sndNxt < 2 ^ 31) (running : x.running)
    {packet : Bytes} (queued : packet ∈ x.kcp.outputQueue) {conv : U32} {fuel : Nat}
    {segment : Head × Bytes} (processed : segment ∈ accepted conv fuel (stamp x.hs packet))
    (push : segment.1.cmd = ikcpCmdPush) {number : Nat} (near : number < 2 ^ 31)
    (past : body.length ≤ number) (sn : segment.1.sn = BitVec.ofNat 32 number) : y.Heeds := by
  have honestly := speaks.queue packet queued
  rcases honestly.stamp x.hs with ⟨same, _, plain⟩ | ⟨_, _, none, _⟩
  · rw [same] at processed
    obtain ⟨segs, _, rfl, good⟩ := honestly
    obtain ⟨seg, member, _, rfl⟩ := mem_accepted_encodePacket
      (fun seg member => (good seg member).2.1) processed
    obtain ⟨own, below, stands⟩ := (good seg member).2.2.push push
    have position : own = number := ofNat_inj_of_lt (by omega) (by omega) (stands.1.symm.trans sn)
    subst position
    have inside := stands.2
    rw [At, List.getElem?_append_right past] at inside
    have ofTail := List.mem_of_getElem? inside
    have finished := flow.unfinished (List.ne_nil_of_mem ofTail)
    obtain ⟨_, (state | state) | state, _⟩ := inv.of_finQueued finished
    · -- In `FinSent` a packet with payload is flagged.
      have carries : (readPayloadData (encodePacket segs)).isSome :=
        (isSome_readPayloadData fun seg member => (good seg member).2.1.trans (by decide)).2
          ⟨seg, member, flow.filled _ ofTail⟩
      exact absurd ⟨state, carries⟩ plain
    · exact told (List.ne_nil_of_mem ofTail) running (.inl state)
    · exact told (List.ne_nil_of_mem ofTail) running (.inr state)
  · rw [none] at processed
    cases processed

/-- A turn of the sender that queues nothing. -/
theorem Move.flow_same {own' : List Payload} (move : Move ambient x x')
    (turn : Turn (body ++ tail) own' x x') (sends : x'.sends = x.sends) (flow : Flow body tail x y)
    (told : x.kcp.outputQueue ≠ [] → Told tail x y) (speaks : x.Speaks (body ++ tail) other y)
    (inv : x.FinLast) (few : x.kcp.cb.sndNxt < 2 ^ 31) :
    own' = body ++ tail ∧ Flow body tail x' y := by
  obtain ⟨own, conveys⟩ := move.conveys_same turn sends flow.toConveys
  refine ⟨own, ⟨conveys, flow.short, flow.filled, flow.known, ?_, ?_⟩⟩
  · intro bytes member conv fuel segment processed push number near past sn
    rcases move.emits member with earlier | ⟨packet, queued, rfl, running⟩ | ⟨now, rfl⟩
    · exact flow.late bytes earlier conv fuel segment processed push number near past sn
    · exact flow.late_fed (told (List.ne_nil_of_mem queued)) inv speaks few running queued processed
        push near past sn
    · rw [accepted_writeAckHead] at processed
      cases processed
  · obtain ⟨count, read⟩ := flow.read
    refine ⟨count, ?_⟩
    unfold ReadTo at read ⊢
    rwa [finQueued_congr sends]

/-- The fragments of the FIN frame. -/
theorem fin_fragments {kcp : Ikcpcb} {frame : Bytes} (fits : frame.length ≤ kcp.mss)
    (positive : 0 < kcp.mss) (some : frame ≠ []) : (kcp.fragments frame frame.length).length = 1 ∧
      ∀ payload ∈ kcp.fragments frame frame.length, payload.data ≠ [] := by
  have occupied := List.length_pos_iff.2 some
  have one : fragmentCount kcp.mss frame.length = 1 := by rw [fragmentCount, if_pos fits]
  rw [Ikcpcb.fragments, one]
  refine ⟨by simp, fun payload member => ?_⟩
  obtain ⟨seg, inside, rfl⟩ := List.mem_map.1 member
  exact data_ne_nil_of_mem_sendFragments positive (by omega) inside

/-- A turn of the sender that queues a frame. -/
theorem Move.flow_queue {own' : List Payload} {sent : Sent} (move : Move ambient x x')
    (turn : Turn (body ++ tail) own' x x') (trace : x'.trace = x.trace ++ [.send sent])
    (queues : x.Queues x' sent) (flow : Flow body tail x y)
    (speaks : x.Speaks (body ++ tail) other y) (answers : y.Speaks other (body ++ tail) x)
    (inv : x.FinLast) (few : x.kcp.cb.sndNxt < 2 ^ 31)
    (frame : sent.kind = .fin → sent.frame.length ≤ x.kcp.cb.mss) :
    ∃ body' tail', own' = body' ++ tail' ∧ Flow body' tail' x' y ∧
      (tail' = [] ∨ x'.hs = .finSent) := by
  obtain ⟨rfl, unfinished, body', tail', equal, conveys, kept, way⟩ :=
    move.conveys_queue turn trace queues flow.toConveys speaks inv
  have emitted : x'.emitted = x.emitted := by
    rw [Task.emitted, trace, List.filterMap_append]
    exact List.append_nil _
  obtain ⟨count, inside, received, whole, reached, position⟩ := flow.read
  have position := position.resolve_right fun past => unfinished past.1
  -- `y` has nothing that `x` has not numbered.
  have numbered : count ≤ x.kcp.cb.sndNxt := by
    have most := answers.tied.arrived.most
    have next := answers.tied.arrived.rcvNxt_eq
    omega
  have only (number : Nat) (near : number < 2 ^ 31) (has : y.kcp.cb.Has number) :
      number < x.kcp.cb.sndNxt := answers.tied.arrived.lt_of_has few.le near has
  have pushed {bytes : Bytes} (member : bytes ∈ x'.emitted) {conv : U32} {fuel : Nat}
      {segment : Head × Bytes} (processed : segment ∈ accepted conv fuel bytes)
      (push : segment.1.cmd = ikcpCmdPush) {number : Nat} (near : number < 2 ^ 31)
      (sn : segment.1.sn = BitVec.ofNat 32 number) : number < x.kcp.cb.sndNxt := by
    rw [emitted] at member
    obtain ⟨own, below, stands⟩ := (speaks.honest member processed).push push
    have same : number = own := ofNat_inj_of_lt (by omega) (by omega) (sn.symm.trans stands.1)
    omega
  have same : body'.take count = body.take count := by
    have cut := congrArg (List.take count) kept
    rwa [List.take_take, List.take_take, Nat.min_eq_left numbered] at cut
  have least := speaks.written.most
  rw [List.append_nil] at least
  have longer : x.kcp.cb.sndNxt ≤ body'.length := by
    have size := congrArg List.length kept
    simp only [List.length_take] at size
    omega
  have short : tail'.length ≤ 1 ∧ ∀ payload ∈ tail', payload.data ≠ [] := by
    rcases way with rfl | ⟨_, kind, _, some, rfl⟩
    · simp
    · obtain ⟨one, filled⟩ := fin_fragments (frame kind) speaks.configured.mss_pos some
      exact ⟨one.le, filled⟩
  refine ⟨body', tail', equal, ⟨conveys, short.1, short.2, ?_, ?_, count, ?_, ?_, ?_, reached,
    .inl position⟩, way.imp_right fun more => more.2.2.1⟩
  · intro number near past has
    have below := only number near has
    omega
  · intro bytes member conv fuel segment processed push number near past sn
    have below := pushed member processed push near sn
    omega
  · omega
  · rw [same, received]
  · rw [same]
    exact whole

/-- A turn that does not give up the loop leaves the FIN frame to those who heed it. -/
theorem Move.told (move : Move ambient x x') (stays : ¬ ambient.Quits) (told : Told tail x y)
    (flow : Flow body tail x y) (speaks : x.Speaks (body ++ tail) other y) (inv : x.FinLast)
    (few : x.kcp.cb.sndNxt < 2 ^ 31)
    (parted : ∀ packet cmd, ambient.Delivered packet → readCmd packet = some cmd →
      cmd &&& kcpReset ≠ 0 → y.running = false) : Told tail x' y := by
  intro some running' finished
  have running := move.running running'
  obtain ⟨_, (sent | waits) | gone, _⟩ := inv.of_finQueued (flow.unfinished some)
  · have same (state : x'.hs = x.hs) : y.Heeds := by
      rw [state, sent] at finished
      rcases finished with other | other <;> cases other
    cases move with
    | waitPeer _ settled =>
        obtain ⟨_, most, all⟩ := speaks.settled settled
        have occupied := List.length_pos_iff.2 some
        rw [List.length_append] at most
        exact flow.known body.length (by omega) le_rfl (all _ (by omega))
    | reset arrived _ command flagged =>
        intro inside
        simp [parted _ _ arrived command flagged] at inside
    | abort state => rcases state with other | other <;> simp [sent] at other
    | done state => simp [sent] at state
    | pend state | connect _ state | replySyn _ state | sendFin _ state => simp [sent] at state
    | expire _ _ quits => exact absurd quits stays
    | app event _ acted =>
        obtain ⟨_, _, _, rfl | ⟨_, rfl⟩⟩ := app_eq acted <;> exact same rfl
    | recv _ taken => exact same (kcpRecv_hs taken)
    | finish =>
        obtain ⟨_, _, _, equal⟩ := finish_eq x
        exact same (by rw [equal])
    | _ => exact same rfl
  · exact told some running (.inl waits)
  · exact told some running (.inr gone)

end Task
end KcpRs
