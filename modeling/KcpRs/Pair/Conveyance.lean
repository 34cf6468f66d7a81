import KcpRs.Pair.Frames

/-!
# What one task conveys to the other

`Conveys body tail x y` is about the frames that `x` has queued for `y`: `body` are the payloads of
the SYN frame and of the frames of the application, `tail` those of the FIN frame, which
comes when `y` has everything before it.
-/

namespace KcpRs

open Lib

/-! ## Payloads of frames -/

/-- The payloads that frames are cut into. -/
structure Framed (stream : Bool) (frames : List Bytes) (body : List Payload) : Prop where
  numbered : Numbered body
  whole : Whole body
  message : stream = false → messages body = frames.filter fun frame => frame ≠ []
  merged : stream = true → (∀ payload ∈ body, payload.frg = 0) ∧ bytesOf body = frames.flatten

namespace Framed

variable {stream : Bool} {frames : List Bytes} {body body' : List Payload}

theorem nil (stream : Bool) : Framed stream [] [] where
  numbered := .nil
  whole := whole_nil
  message _ := rfl
  merged _ := ⟨by simp, rfl⟩

theorem skip (framed : Framed stream frames body) : Framed stream (frames ++ [[]]) body where
  numbered := framed.numbered
  whole := framed.whole
  message mode := by simpa using framed.message mode
  merged mode := by simpa using framed.merged mode

/-- A further frame is queued. -/
theorem append {kcp : Ikcpcb} {frame : Bytes} (framed : Framed stream frames body)
    (mode : kcp.stream = stream) (positive : 0 < kcp.mss) (some : frame ≠ [])
    (appended : kcp.Appended frame frame.length body body') :
    Framed stream (frames ++ [frame]) body' := by
  cases stream with
  | false =>
      obtain ⟨rfl, few⟩ := appended.whole (.inl mode)
      have count := @fragmentCount_pos kcp.mss frame.length positive
      obtain ⟨more, equal⟩ := Nat.exists_eq_succ_of_ne_zero count.ne'
      have message := @sendFragments_message kcp.mss more (by rw [ikcpWndRcv] at few; omega) frame
        frame.length
      have bytes := Ikcpcb.bytesOf_fragments positive frame
      rw [Ikcpcb.fragments, mode, equal] at bytes ⊢
      rw [bytesOf_map_payload] at bytes
      obtain ⟨numbered, whole, read⟩ := message
      refine ⟨framed.numbered.append framed.whole numbered, framed.whole.append whole, fun _ => ?_,
        fun other => by cases other⟩
      rw [messages_append framed.whole, framed.message rfl, messages, read, bytes]
      simp [some]
  | true =>
      obtain ⟨plain, bytes⟩ := framed.merged rfl
      obtain ⟨plain', bytes'⟩ := appended.merged mode rfl plain
      refine ⟨numbered_of_plain plain', whole_of_plain plain', (fun other => by cases other),
        fun _ => ⟨plain', ?_⟩⟩
      simp [bytes', bytes]

/-- What a prefix of complete messages says. -/
theorem read (framed : Framed stream frames body) {count : Nat} (whole : Whole (body.take count)) :
    (stream = false → messages (body.take count) <+: frames.filter fun frame => frame ≠ []) ∧
      (stream = true → (messages (body.take count)).flatten <+: frames.flatten) := by
  refine ⟨fun mode => ?_, fun mode => ?_⟩
  · rw [← framed.message mode]
    exact messages_take_prefix whole
  · obtain ⟨plain, bytes⟩ := framed.merged mode
    have few : ∀ payload ∈ body.take count, payload.frg = 0 := fun payload member =>
      plain payload (List.mem_of_mem_take member)
    rw [messages_of_plain few, ← bytes, ← List.flatMap_def]
    have split := bytesOf_append (body.take count) (body.drop count)
    rw [List.take_append_drop] at split
    exact ⟨_, split.symm⟩

end Framed

/-- The frame that a turn has queued. -/
theorem Framed.queue {stream : Bool} {frames : List Bytes} {own own' : List Payload} {kcp : Ikcpcb}
    {frame : Bytes} (framed : Framed stream frames own) (mode : kcp.stream = stream)
    (positive : 0 < kcp.mss) (wrote : frame = [] ∧ own' = own ∨
      frame ≠ [] ∧ kcp.Appended frame frame.length own own') :
    Framed stream (frames ++ [frame]) own' := by
  rcases wrote with ⟨rfl, rfl⟩ | ⟨some, appended⟩
  · exact framed.skip
  · exact framed.append mode positive some appended

/-- The receive queue holds a stretch of what was sent. -/
theorem Ikcpcb.Arrived.queue_prefix {kcp : Ikcpcb} {payloads : List Payload} {limit : Nat}
    (arrived : kcp.Arrived (At payloads) limit) :
    kcp.rcvQueue.map Seg.payload <+: payloads.drop kcp.taken := by
  refine List.prefix_iff_getElem?.2 fun index inside => ?_
  rw [List.length_map] at inside
  rw [List.getElem_map, List.getElem?_drop]
  exact arrived.queue index _ (List.getElem?_eq_getElem inside)

namespace Task

variable {ambient : Ambient} {t t' : Task}

/-! ## The FIN frame -/

/-- The FIN frame is queued in a FIN handshake, and after it nothing is. -/
theorem FinLast.of_finQueued (inv : t.FinLast) (queued : t.finQueued) :
    t.inputClosed ∧ (t.finishing ∨ t.hs = .disconnected) ∧ t.trace ≠ [] := by
  obtain ⟨sent, member, kind⟩ := queued
  obtain ⟨obs, inside, record⟩ := List.mem_filterMap.1 member
  rcases inv.order with before | ⟨closed, state, _⟩
  · have other := (before.2 obs inside).1
    cases obs with
    | send other' =>
        cases record
        simp [Obs.isSend, kind] at other
    | _ => cases record
  · exact ⟨closed, state, List.ne_nil_of_mem inside⟩

theorem FinLast.not_finQueued {sent : Sent} (inv : t.FinLast) (queues : t.Queues t' sent) :
    ¬ t.finQueued := by
  intro queued
  obtain ⟨closed, state, recorded⟩ := inv.of_finQueued queued
  cases queues with
  | syn _ _ first _ _ => exact recorded first
  | reply _ _ early _ _ => rcases state with (state | state) | state <;> simp [early] at state
  | data _ _ opened _ => simp [closed] at opened
  | fin _ pending _ _ _ => rcases state with (state | state) | state <;> simp [pending] at state

theorem AfterFin.finQueued (after : t.AfterFin) : t.finQueued := by
  obtain ⟨_, _, first, sent, later, trace, kind, _⟩ := after
  refine ⟨sent, List.mem_filterMap.2 ⟨.send sent, ?_, rfl⟩, kind⟩
  rw [trace]
  exact List.mem_append_right _ List.mem_cons_self

/-- A packet with the FIN flag is sent after the FIN frame was queued. -/
theorem FinLast.finQueued_of_flagged (inv : t.FinLast) {bytes : Bytes}
    (recorded : .packet bytes ∈ t.trace) (flagged : finFlagged bytes) : t.finQueued := by
  rcases inv.order with before | after
  · have unflagged := (before.2 _ recorded).2
    rw [Obs.isFin, flagged] at unflagged
    cases unflagged
  · exact after.finQueued

theorem FinLast.finQueued_of_finishing (inv : t.FinLast) (state : t.finishing) : t.finQueued := by
  rcases inv.order with before | after
  · exact absurd state before.1
  · exact after.finQueued

/-- The FIN flag of the peer is noticed when it comes. -/
theorem Move.finRecved (move : Move ambient t t') : t'.finRecved = t.finRecved ∨
    t'.finRecved ∧ ∃ packet cmd, ambient.Delivered packet ∧ readCmd packet = some cmd ∧
      cmd &&& kcpFin ≠ 0 := by
  cases move with
  | noticeFin arrived _ command flagged => exact .inr ⟨rfl, _, _, arrived, command, flagged⟩
  | app event _ acted =>
      obtain ⟨_, _, _, rfl | ⟨_, rfl⟩⟩ := app_eq acted <;> exact .inl rfl
  | recv _ taken =>
      obtain ⟨kcp, ⟨_, _, rfl⟩ | ⟨_, _, ⟨_, _, rfl⟩ | ⟨_, _, rfl⟩⟩⟩ := kcpRecv_cases taken <;>
        exact .inl rfl
  | finish =>
      obtain ⟨_, _, _, equal⟩ := finish_eq t
      rw [equal]
      exact .inl rfl
  | _ => exact .inl rfl

theorem finQueued_congr {u : Task} (sends : u.sends = t.sends) : u.finQueued ↔ t.finQueued := by
  rw [finQueued, sends, finQueued]

/-- What is settled when nothing waits for an acknowledgement. -/
theorem Speaks.settled {x y : Task} {own other : List Payload} (speaks : x.Speaks own other y)
    (settled : x.kcp.getWaitsnd = 0) : x.kcp.cb.sndQueue = [] ∧ own.length ≤ x.kcp.cb.sndNxt ∧
      ∀ number < x.kcp.cb.sndNxt, y.kcp.cb.Has number := by
  have nothing := pending_of_getWaitsnd speaks.counted settled
  rw [Ikcpcb.pending, List.map_append, List.append_eq_nil_iff, List.map_eq_nil_iff,
    List.map_eq_nil_iff] at nothing
  have length := speaks.written.length
  rw [nothing.2, List.length_nil, Nat.add_zero] at length
  refine ⟨nothing.2, length.le, fun number below => ?_⟩
  rcases speaks.tied.covered number below with has | ⟨seg, member, _⟩
  · exact has
  · rw [nothing.1] at member
    cases member


/-! ## What is queued -/

/-- The number of segments that the frames before the FIN frame take up. -/
def framesEnd (t : Task) : Nat :=
  ((t.sends.filter fun sent => sent.kind ≠ .fin).getLast?.map Sent.upto).getD 0

/-- What `x` has queued for `y`: the payloads `body` of its frames, and those of its FIN frame,
`tail`, once `y` has everything else. -/
structure Conveys (body tail : List Payload) (x y : Task) : Prop where
  framed : Framed x.cfg.stream x.spoken body
  all : Framed x.cfg.stream (x.sends.map Sent.frame) (body ++ tail)
  ends : x.framesEnd = body.length
  unfinished : tail ≠ [] → x.finQueued
  settled : x.finQueued → body.length ≤ x.kcp.cb.sndNxt ∧
    ∀ number < body.length, y.kcp.cb.Has number
  notice : y.finRecved → x.finQueued

variable {body tail other : List Payload} {x x' y y' : Task}

/-- What a call of `kcp_recv` takes: nothing, a frame that it drops, or the next message, which does
not reach beyond `body` when it begins in it. -/
theorem Conveys.recv (conveys : Conveys body tail x y)
    (tied : y.kcp.cb.Tied (At other) x.kcp.cb.Has (At (body ++ tail)) x.kcp.cb.sndNxt)
    (few : x.kcp.cb.sndNxt < 2 ^ 31) (counted : y.kcp.cb.Counted) {frame : Option Bytes}
    (taken : y.kcpRecv = some (frame, y')) :
    (frame = none ∧ y'.received = y.received ∧ y'.kcp.cb.taken = y.kcp.cb.taken) ∨
    (y.discards ∧ frame = none ∧ y'.received = y.received ∧ y.kcp.cb.taken < y'.kcp.cb.taken) ∨
    ¬ y.discards ∧ ∃ bytes, frame = some bytes ∧ y'.received = y.received ++ [bytes] ∧
      y.kcp.cb.taken < y'.kcp.cb.taken ∧ y.kcp.cb.rcvQueue ≠ [] ∧
      (y.kcp.cb.taken < body.length → y'.kcp.cb.taken ≤ body.length ∧ ∃ part,
        body.take y'.kcp.cb.taken = body.take y.kcp.cb.taken ++ part ∧ Whole part ∧
        messages part = [bytes]) := by
  have arrived := tied.arrived
  have moved {later : Task} (engine : later.kcp.cb = recvMoved y.kcp.cb false) : later.kcp.cb.taken =
      y.kcp.cb.taken + (takeMessage y.kcp.cb.rcvQueue).1.length := by
    rw [engine, (tied.recvMoved few).2.1]
  -- What is taken of the queue is a message.
  have message (complete : 0 < ikcpPeeksize y.kcp.cb) :
      Whole ((takeMessage y.kcp.cb.rcvQueue).1.map Seg.payload) ∧
        (takeMessage y.kcp.cb.rcvQueue).1 ≠ [] := by
    refine whole_of_ikcpPeeksize counted ?_ complete.le
    obtain ⟨rest, equal⟩ := arrived.queue_prefix
    have stretch : Numbered ((body ++ tail).drop y.kcp.cb.taken) := conveys.all.numbered.drop _
    rw [← equal] at stretch
    exact stretch.left_of_append
  obtain ⟨kcp, ⟨got, none, rfl⟩ | ⟨bytes, got, ⟨fin, none, rfl⟩ | ⟨notFin, some, rfl⟩⟩⟩ :=
    kcpRecv_cases taken
  · rcases Kcp.recvBytes_eq got with ⟨_, rfl⟩ | ⟨_, _, other, _⟩
    · exact .inl ⟨none, rfl, rfl⟩
    · cases other
  · rcases Kcp.recvBytes_eq got with ⟨other, _⟩ | ⟨_, complete, _, rfl⟩
    · cases other
    · have occupied := List.length_pos_iff.2 (message complete).2
      exact .inr (.inl ⟨fin, none, by simp [Task.received, log, Obs.popped],
        (Nat.lt_add_of_pos_right occupied).trans_eq (moved rfl).symm⟩)
  · rcases Kcp.recvBytes_eq got with ⟨other, _⟩ | ⟨queue, complete, same, rfl⟩
    · cases other
    · cases same
      obtain ⟨ends, occupied⟩ := message complete
      have length := List.length_pos_iff.2 occupied
      refine .inr (.inr ⟨notFin, _, some, by simp [Task.received, log, Obs.popped],
        (Nat.lt_add_of_pos_right length).trans_eq (moved rfl).symm, queue, fun unread => ?_⟩)
      -- The message does not reach beyond `body`.
      have queued := arrived.queue_prefix
      rw [List.drop_append_of_le_length unread.le] at queued
      have remains : body.drop y.kcp.cb.taken ≠ [] := by
        rw [Ne, List.drop_eq_nil_iff]
        omega
      have fits := length_takeMessage_le queued (conveys.framed.whole.drop _) remains
      have next : (takeMessage y.kcp.cb.rcvQueue).1.map Seg.payload =
          (body.drop y.kcp.cb.taken).take (takeMessage y.kcp.cb.rcvQueue).1.length := by
        have stretch := (takeMessage_begins y.kcp.cb.rcvQueue).trans queued
        rw [List.prefix_iff_eq_take, List.length_map, List.take_append_of_le_length fits] at stretch
        exact stretch
      rw [List.length_drop] at fits
      have reads (upto : Nat) (equal : upto = y.kcp.cb.taken + (takeMessage y.kcp.cb.rcvQueue).1.length) :
          upto ≤ body.length ∧ ∃ part, body.take upto = body.take y.kcp.cb.taken ++ part ∧
            Whole part ∧ messages part = [payloadOf (takeMessage y.kcp.cb.rcvQueue).1] := by
        subst equal
        exact ⟨by omega, _, by rw [List.take_add, ← next], ends, messages_takeMessage ends occupied⟩
      exact reads _ (moved rfl)

/-- A turn of the receiver. -/
theorem Move.conveys_to {own' : List Payload} (move : Move ambient y y')
    (conveys : Conveys body tail x y) (turn : Turn other own' y y')
    (speaks : x.Speaks (body ++ tail) other y) (inv : x.FinLast) (few : x.kcp.cb.sndNxt < 2 ^ 31)
    (carried : ∀ packet, ambient.Delivered packet → packet ∈ x.emitted) :
    Conveys body tail x y' where
  framed := conveys.framed
  all := conveys.all
  ends := conveys.ends
  unfinished := conveys.unfinished
  settled queued := by
    obtain ⟨most, every⟩ := conveys.settled queued
    exact ⟨most, fun number inside => turn.grows number (by omega) (every number inside)⟩
  notice noticed := by
    rcases move.finRecved with same | ⟨_, packet, cmd, arrived, command, flagged⟩
    · exact conveys.notice (same ▸ noticed)
    · obtain ⟨recorded, _⟩ := speaks.honest_fin (carried packet arrived) command flagged
      refine inv.finQueued_of_flagged recorded ?_
      have first : packet[4]? = some cmd := command
      rw [finFlagged, List.getD_eq_getElem?_getD, first]
      exact decide_eq_true flagged

/-- A turn of the sender that queues nothing. -/
theorem Move.conveys_same {own' : List Payload} (move : Move ambient x x')
    (turn : Turn (body ++ tail) own' x x') (sends : x'.sends = x.sends)
    (conveys : Conveys body tail x y) : own' = body ++ tail ∧ Conveys body tail x' y := by
  have own : own' = body ++ tail := by
    rcases turn.wrote with ⟨same, _⟩ | ⟨sent, more, _⟩
    · exact same
    · have longer := congrArg List.length (sends.symm.trans more)
      simp at longer
  have fin := finQueued_congr sends
  have cfg := move.identity.1
  refine ⟨own, ⟨?_, ?_, ?_, fun some => fin.2 (conveys.unfinished some), fun queued => ?_,
    fun noticed => fin.2 (conveys.notice noticed)⟩⟩
  · rw [cfg, spoken, sends]
    exact conveys.framed
  · rw [cfg, sends]
    exact conveys.all
  · rw [framesEnd, sends]
    exact conveys.ends
  · obtain ⟨most, every⟩ := conveys.settled (fin.1 queued)
    exact ⟨most.trans turn.next, every⟩

/-- A turn of the sender that queues a frame, which is the first to come after `body`. -/
theorem Move.conveys_queue {own' : List Payload} {sent : Sent} (move : Move ambient x x')
    (turn : Turn (body ++ tail) own' x x') (trace : x'.trace = x.trace ++ [.send sent])
    (queues : x.Queues x' sent) (conveys : Conveys body tail x y)
    (speaks : x.Speaks (body ++ tail) other y) (inv : x.FinLast) :
    tail = [] ∧ ¬ x.finQueued ∧ ∃ body' tail', own' = body' ++ tail' ∧ Conveys body' tail' x' y ∧
      body'.take x.kcp.cb.sndNxt = body.take x.kcp.cb.sndNxt ∧ (tail' = [] ∨ body' = body ∧
        sent.kind = .fin ∧ x'.hs = .finSent ∧ sent.frame ≠ [] ∧
        tail' = x.kcp.cb.fragments sent.frame sent.frame.length) := by
  have unfinished := inv.not_finQueued queues
  have nothing : tail = [] := by
    by_contra some
    exact unfinished (conveys.unfinished some)
  subst nothing
  have all := conveys.all
  rw [List.append_nil] at turn speaks all
  have sends := sends_of_trace trace
  have cfg := move.identity.1
  obtain ⟨upto, wrote⟩ : sent.upto = own'.length ∧ (sent.frame = [] ∧ own' = body ∨
      sent.frame ≠ [] ∧ x.kcp.cb.Appended sent.frame sent.frame.length body own') := by
    rcases turn.wrote with ⟨_, same⟩ | ⟨_, more, rest⟩
    · have longer := congrArg List.length (sends.symm.trans same)
      simp at longer
    · rw [sends, List.append_cancel_left_eq, List.singleton_inj] at more
      subst more
      exact rest
  have mode : x.kcp.cb.stream = x.cfg.stream := speaks.configured.stream
  have positive := speaks.configured.mss_pos
  have all' : Framed x'.cfg.stream (x'.sends.map Sent.frame) own' := by
    rw [cfg, sends, List.map_append]
    exact all.queue mode positive wrote
  refine ⟨rfl, unfinished, ?_⟩
  by_cases kind : sent.kind = .fin
  · -- The FIN frame is queued when nothing waits.
    obtain ⟨settled, state⟩ : x.kcp.getWaitsnd = 0 ∧ x'.hs = .finSent := by
      cases queues with
      | fin _ _ settled _ state => exact ⟨settled, state⟩
      | syn other | reply other | data other => simp [kind] at other
    obtain ⟨empty, most, every⟩ := speaks.settled settled
    have least := speaks.written.most
    have finished : x'.finQueued :=
      ⟨sent, sends ▸ List.mem_append_right _ (List.mem_singleton.2 rfl), kind⟩
    have same : (x'.sends.filter fun sent => sent.kind ≠ .fin) =
        x.sends.filter fun sent => sent.kind ≠ .fin := by
      rw [sends, List.filter_append]
      simp [kind]
    obtain ⟨tail', equal, way⟩ : ∃ tail', own' = body ++ tail' ∧ (tail' = [] ∨
        sent.frame ≠ [] ∧ tail' = x.kcp.cb.fragments sent.frame sent.frame.length) := by
      rcases wrote with ⟨_, same⟩ | ⟨some, appended⟩
      · exact ⟨[], by simp [same], .inl rfl⟩
      · exact ⟨_, (appended.whole (.inr empty)).1, .inr ⟨some, rfl⟩⟩
    refine ⟨body, tail', equal, ⟨?_, equal ▸ all', ?_, fun _ => finished,
      fun _ => ⟨most.trans turn.next, fun number below => every number (by omega)⟩, fun _ => finished⟩,
      rfl, way.imp_right fun more => ⟨rfl, kind, state, more⟩⟩
    · rw [spoken, same, cfg]
      exact conveys.framed
    · rw [framesEnd, same]
      exact conveys.ends
  · have kept : own'.take x.kcp.cb.sndNxt = body.take x.kcp.cb.sndNxt := by
      rcases wrote with ⟨_, rfl⟩ | ⟨_, appended⟩
      · rfl
      · exact appended.numbered
    have more : (x'.sends.filter fun sent => sent.kind ≠ .fin) =
        (x.sends.filter fun sent => sent.kind ≠ .fin) ++ [sent] := by
      rw [sends, List.filter_append]
      simp [kind]
    have still : ¬ x'.finQueued := by
      rintro ⟨other, member, fin⟩
      rw [sends, List.mem_append, List.mem_singleton] at member
      rcases member with earlier | rfl
      · exact unfinished ⟨other, earlier, fin⟩
      · exact kind fin
    have framed' : Framed x'.cfg.stream x'.spoken own' := by
      rw [spoken, more, List.map_append, cfg]
      exact conveys.framed.queue mode positive wrote
    refine ⟨own', [], (List.append_nil _).symm, ⟨framed', by rwa [List.append_nil], ?_, by simp,
      fun queued => absurd queued still, fun noticed => absurd (conveys.notice noticed) unfinished⟩,
      kept, .inl rfl⟩
    · rw [framesEnd, more, List.getLast?_concat]
      exact upto

end Task
end KcpRs
