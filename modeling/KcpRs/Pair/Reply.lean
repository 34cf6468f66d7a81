import KcpRs.Pair.Acquaintance
import KcpRs.Stream.Packing

/-!
# What the server replies

After its SYN reply a server stays connected as long as a segment of the reply is in flight
(`Move.beforeFin`), and that it is as long as nothing that it is told acknowledges the segment
(`Move.unacked`). All its data segments acknowledge the whole SYN frame of the client
(`Confirming`).
-/

namespace KcpRs

open Lib Relation

/-- Payloads that end with a complete message have one. -/
theorem messagesFrom_ne_nil {payloads : List Payload} (whole : Whole payloads) (some : payloads ≠ [])
    (begun : Bytes) : messagesFrom begun payloads ≠ [] := by
  induction payloads generalizing begun with
  | nil => exact absurd rfl some
  | cons payload rest inductionHypothesis =>
      rw [messagesFrom]
      split
      · exact List.cons_ne_nil _ _
      · rename_i more
        cases rest with
        | nil => exact absurd (whole payload rfl) more
        | cons next rest => exact inductionHypothesis whole (List.cons_ne_nil _ _) _

/-- No operation takes a segment out of those that have been queued. -/
theorem engineStable_queued (least : Nat) : EngineStable fun kcp =>
    kcp.Counted ∧ least ≤ kcp.sndNxt + kcp.sndQueue.length := by
  have flushed {kcp kcp' : Ikcpcb} (stays : ∀ payloads, kcp.Written payloads → kcp'.Written payloads) :
      kcp'.sndNxt + kcp'.sndQueue.length = kcp.sndNxt + kcp.sndQueue.length := by
    have written : kcp.Written
        (List.replicate kcp.sndNxt ⟨0, []⟩ ++ kcp.sndQueue.map Seg.payload) := by
      constructor <;> simp
    rw [← written.length, (stays _ written).length]
  refine ⟨fun kcp now holds => ?_, fun kcp holds => ?_, fun kcp data len holds => ?_,
    fun kcp data holds => ?_, fun kcp holds => ?_, fun kcp _ _ _ _ holds => ?_, fun kcp _ holds => ?_⟩
  · rw [flushed fun _ written => written.ikcpUpdate now]
    exact ⟨holds.1.ikcpUpdate now, holds.2⟩
  · rw [flushed fun _ written => written.ikcpFlush]
    exact ⟨holds.1.ikcpFlush, holds.2⟩
  · have counted := holds.1.ikcpSend data len
    have more := ikcpWaitsnd_le_ikcpSend kcp data len
    obtain ⟨queue, count, equal⟩ := ikcpSend_queue kcp data len
    refine ⟨counted, ?_⟩
    have size := counted.sndQueue
    have before := holds.1.sndQueue
    have least := holds.2
    rw [equal] at more size ⊢
    simp only [ikcpWaitsnd] at more size ⊢
    omega
  · have kept := inputKept_ikcpInput kcp data
    have next := congrArg InputKept.sndNxt kept
    have queue := congrArg InputKept.sndQueue kept
    simp only [inputKept] at next queue
    rw [next, queue]
    exact ⟨holds.1.ikcpInput data, holds.2⟩
  · obtain ⟨probe, equal⟩ := recvMoved_eq kcp false
    refine ⟨holds.1.recvMoved false, ?_⟩
    rw [equal]
    exact holds.2
  · exact ⟨holds.1.ikcpNodelay _ _ _ _, holds.2⟩
  · exact ⟨engineStable_counted.conv _ _ holds.1, holds.2⟩

/-! ## A segment in flight -/

/-- The segment with this number is in flight if it has been numbered. -/
def Ikcpcb.Unacked (number : Nat) (kcp : Ikcpcb) : Prop :=
  number < kcp.sndNxt → ∃ seg ∈ kcp.sndBuf, seg.sn = BitVec.ofNat 32 number

/-- What the segment says does not acknowledge the number. -/
structure Seg.Spares (number : Nat) (seg : Seg) : Prop where
  una : ∃ other ≤ number, other < 2 ^ 31 ∧ seg.una = BitVec.ofNat 32 other
  ack : seg.cmd = ikcpCmdAck → ∃ other < 2 ^ 31, other ≠ number ∧ seg.sn = BitVec.ofNat 32 other

/-- No segment of the packet acknowledges the number. -/
def PacketSpares (number : Nat) (packet : Bytes) : Prop := ∀ conv fuel,
  ∀ segment ∈ accepted conv fuel packet, (segment.1.segment segment.2).Spares number

section Flight

variable {Sent Peer : Nat → Payload → Prop} {Held : Nat → Prop} {limit number : Nat} {kcp : Ikcpcb}
  {seg : Seg}

/-- A number that has not arrived is not acknowledged. -/
theorem Seg.Honest.spares (honest : seg.Honest Sent limit Held) (missing : ¬ Held number) :
    seg.Spares number where
  una := by
    obtain ⟨next, near, una, all⟩ := honest.una
    refine ⟨next, ?_, near, una⟩
    by_contra beyond
    exact missing (all number (Nat.lt_of_not_le beyond))
  ack command := by
    obtain ⟨other, near, sn, held⟩ := honest.ack command
    refine ⟨other, near, ?_, sn⟩
    rintro rfl
    exact missing held

/-- To a sender, what is said is honest of a receiver that misses the number only. -/
theorem Seg.Spares.honest (spares : seg.Spares number) (honest : seg.Honest Sent limit Held) :
    seg.Honest Sent limit (· ≠ number) where
  una := by
    obtain ⟨next, below, near, una⟩ := spares.una
    exact ⟨next, near, una, fun other before => by omega⟩
  ack command := by
    obtain ⟨other, near, apart, sn⟩ := spares.ack command
    exact ⟨other, near, sn, apart⟩
  push := honest.push

/-- A segment in flight ties the sender to a receiver that misses this number only. -/
theorem Ikcpcb.Tied.missing (tied : kcp.Tied Sent Held Peer limit) (unacked : kcp.Unacked number) :
    kcp.Tied Sent (· ≠ number) Peer limit where
  flying := tied.flying
  covered other below := by
    by_cases same : other = number
    · rw [same] at below ⊢
      exact .inr (unacked below)
    · exact .inl same
  arrived := tied.arrived
  acks := tied.acks

theorem Ikcpcb.Tied.unacked (tied : kcp.Tied Sent (· ≠ number) Peer limit) : kcp.Unacked number :=
  fun below => (tied.covered number below).resolve_left fun apart => apart rfl

end Flight

namespace Task

variable {ambient : Ambient} {config : Config} {t t' x y y' : Task} {own other : List Payload}
  {number : Nat}

/-- No packet that is delivered has the flag. -/
def Unflagged (ambient : Ambient) (flag : Byte) : Prop :=
  ∀ packet cmd, ambient.Delivered packet → readCmd packet = some cmd → cmd &&& flag = 0

/-- A segment stays in flight as long as it is spared. -/
theorem Move.unacked (move : Move ambient y y') (speaks : y.Speaks own other x)
    (answers : x.Speaks other own y)
    (carried : ∀ packet, ambient.Delivered packet → packet ∈ x.emitted)
    (plain : Unflagged ambient kcpFin)
    (spares : ∀ packet, ambient.Delivered packet → PacketSpares number packet)
    (few : y.kcp.cb.sndNxt < 2 ^ 31) (short : x.kcp.cb.sndNxt < 2 ^ 31)
    (unacked : y.kcp.cb.Unacked number) : y'.kcp.cb.Unacked number := by
  have tied := speaks.tied.missing unacked
  have queued := speaks.written.queued
  obtain ⟨next, buffer, _⟩ | engine | ⟨packet, conv, back, data, _, kcp, arrived, taken, engine, way⟩ :=
    move.flight
  · rw [Ikcpcb.Unacked, next, buffer]
    exact unacked
  · rcases engine with engine | ⟨now, engine⟩
    · rw [engine]
      exact (tied.ikcpFlush queued).unacked
    · rw [engine]
      exact (tied.ikcpUpdate queued now).unacked
  · rcases way with rfl | ⟨cmd, command, flagged⟩
    · obtain ⟨_, rfl⟩ := Kcp.input_eq taken
      have started : (y.kcp.setConv conv).cb.Tied (At own) (· ≠ number) (At other)
          x.kcp.cb.sndNxt :=
        tied.congr (tied.flying.fewer rfl rfl rfl (List.Sublist.refl _)) rfl rfl rfl rfl
      obtain ⟨heard, _⟩ := started.ikcpInput short few fun segment processed =>
        (spares data arrived conv data.length segment processed).honest
          (answers.honest (carried data arrived) processed)
      rw [engine]
      exact heard.unacked
    · exact absurd (plain packet cmd arrived command) flagged

/-! ## The packets of the server -/

/-- A packet of `conv` whose data segments acknowledge the first `count` numbers. -/
def Confirming (conv : U32) (count : Nat) (packet : Bytes) : Prop :=
  ∃ segs, WellFormed conv segs ∧ packet = encodePacket segs ∧ ∀ seg ∈ segs,
    seg.cmd = ikcpCmdPush → ∃ next, count ≤ next ∧ next < 2 ^ 31 ∧ seg.una = BitVec.ofNat 32 next

/-- What a flush emits confirms what has arrived before the first data segment is in flight. -/
theorem Confirming.of_emitted {kcp kcp' : Ikcpcb} {count : Nat} {packet : Bytes} (own : kcp'.Own)
    (conv : kcp'.conv = kcp.conv) (sound : kcp'.Sound) (near : kcp.rcvNxt < 2 ^ 31)
    (heard : kcp'.sndBuf ≠ [] → count ≤ kcp.rcvNxt) (short : packet.length < 2 ^ 31)
    (emitted : ∃ segs, segs ≠ [] ∧ packet = encodePacket segs ∧
      ∀ seg ∈ segs, Emitted kcp.conv kcp.rcvNxt32 kcp.acklist kcp'.sndBuf seg) :
    Confirming kcp.conv count packet := by
  obtain ⟨segs, nonempty, rfl, good⟩ := emitted
  refine ⟨segs, ⟨nonempty, fun seg member => ?_, fun seg member => ?_, short⟩, rfl,
    fun seg member push => ?_⟩
  · obtain ⟨_, inside | ⟨⟨_, same⟩, _⟩⟩ := good seg member
    · exact (own seg inside).trans conv
    · exact same
  · obtain ⟨_, inside | ⟨_, ⟨command, _⟩ | command | command⟩⟩ := good seg member
    · simp [isCommand, sound.push seg inside]
    all_goals simp [isCommand, command]
  · obtain ⟨una, inside | ⟨_, ⟨command, _⟩ | command | command⟩⟩ := good seg member
    · exact ⟨kcp.rcvNxt, heard (List.ne_nil_of_mem inside), near, una⟩
    all_goals
      rw [command] at push
      exact absurd push (by decide)

/-- What a move adds to the output queue confirms what has arrived. -/
theorem Move.confirms (move : Move ambient t t') (disciplined : t.Disciplined)
    (cfg : t.cfg = config) (moderate : config.mtu.toNat < 2 ^ 30) {count : Nat}
    (near : t.kcp.cb.rcvNxt < 2 ^ 31) (heard : t'.kcp.cb.sndBuf ≠ [] → count ≤ t'.kcp.cb.rcvNxt)
    {packet : Bytes} (member : packet ∈ t'.kcp.outputQueue) :
    packet ∈ t.kcp.outputQueue ∨ Confirming t.kcp.cb.conv count packet := by
  have configured := disciplined.configured
  rw [cfg] at configured
  obtain ⟨_, _, fewer⟩ | engine | ⟨_, _, _, _, _, kcp, _, taken, engine, _⟩ := move.flight
  · exact .inl (fewer member)
  · rcases engine with engine | ⟨now, engine⟩
    · have same : t'.kcp.cb.rcvNxt = t.kcp.cb.rcvNxt := by
        rw [engine]
        exact congrArg Ikcpcb.Receiver.rcvNxt (receiver_ikcpFlush t.kcp.cb)
      rw [same] at heard
      rw [engine] at member heard
      refine (List.mem_append.1 member).imp_right fun fresh => ?_
      exact .of_emitted disciplined.own.ikcpFlush (conv_ikcpFlush _) disciplined.sound.ikcpFlush near
        heard (length_of_emitted configured disciplined.sound moderate (.inl fresh))
        (packet_ikcpFlush fresh)
    · have same : t'.kcp.cb.rcvNxt = t.kcp.cb.rcvNxt := by
        rw [engine]
        exact congrArg Ikcpcb.Receiver.rcvNxt (receiver_ikcpUpdate t.kcp.cb now)
      rw [same] at heard
      rw [engine] at member heard
      refine (List.mem_append.1 member).imp_right fun fresh => ?_
      exact .of_emitted (disciplined.own.ikcpUpdate now) (conv_ikcpUpdate _ _)
        (engineStable_sound.update _ now disciplined.sound) near heard
        (length_of_emitted configured disciplined.sound moderate (.inr ⟨now, fresh⟩))
        (packet_ikcpUpdate fresh)
  · obtain ⟨_, rfl⟩ := Kcp.input_eq taken
    rw [engine] at member
    exact .inl member

/-- What is fed to the transport was in the output queue. -/
theorem Move.fed (move : Move ambient t t') {bytes : Bytes} (member : .packet bytes ∈ t'.trace) :
    .packet bytes ∈ t.trace ∨ ∃ packet ∈ t.kcp.outputQueue, bytes = stamp t.hs packet := by
  have quiet {u : Task} {extra : List Obs} (member : .packet bytes ∈ u.trace)
      (trace : u.trace = t.trace ++ extra) (other : .packet bytes ∉ extra) :
      .packet bytes ∈ t.trace := by
    rw [trace, List.mem_append] at member
    exact member.resolve_right other
  cases move with
  | feed taken _ =>
      rw [Task.feed, List.mem_append, List.mem_map] at member
      refine member.imp_right ?_
      rintro ⟨packet, inside, stamped⟩
      cases stamped
      exact ⟨packet, taken.subset inside, rfl⟩
  | app event _ acted =>
      obtain ⟨_, _, _, rfl | ⟨_, rfl⟩⟩ := app_eq acted
      · exact .inl member
      · exact .inl (quiet member rfl (by simp))
  | recv _ taken =>
      obtain ⟨kcp, ⟨_, _, rfl⟩ | ⟨_, _, ⟨_, _, rfl⟩ | ⟨_, _, rfl⟩⟩⟩ := kcpRecv_cases taken
      · exact .inl member
      all_goals exact .inl (quiet member rfl (by simp))
  | finish =>
      obtain ⟨_, resets, only, equal⟩ := finish_eq t
      rw [equal] at member
      refine .inl (quiet member (List.append_assoc _ _ _) fun inside => ?_)
      rcases List.mem_append.1 inside with reset | last
      · obtain ⟨_, other⟩ := only _ reset
        cases other
      · simp at last
  | sendSyn | replySyn | sendData | sendFin => exact .inl (quiet member rfl (by simp [sentRecord]))
  | refuse | announce | deliver | drained => exact .inl (quiet member rfl (by simp))
  | _ => exact .inl member

/-- Before the FIN frame packets are fed as they are. -/
theorem stamp_of_beforeFin (before : t.beforeFin) (packet : Bytes) : stamp t.hs packet = packet := by
  rw [stamp, if_neg]
  rintro ⟨sent, _⟩
  simp [beforeFin, sent] at before

/-- Before its FIN frame all that a task says confirms what has arrived. -/
def Confirms (count : Nat) (t : Task) : Prop :=
  ∀ bytes, t.Utters bytes → Confirming t.kcp.cb.conv count bytes

theorem Move.confirms_all (move : Move ambient t t') (server : t.client = false)
    (before : t.beforeFin) (disciplined : t.Disciplined) (cfg : t.cfg = config)
    (moderate : config.mtu.toNat < 2 ^ 30) {count : Nat} (near : t.kcp.cb.rcvNxt < 2 ^ 31)
    (heard : t'.kcp.cb.sndBuf ≠ [] → count ≤ t'.kcp.cb.rcvNxt) (confirms : t.Confirms count) :
    t'.Confirms count := by
  have conv : t'.kcp.cb.conv = t.kcp.cb.conv := by
    refine move.conv.2.resolve_right ?_
    rintro ⟨client, _⟩
    rw [server] at client
    cases client
  rw [Confirms, conv]
  rintro bytes (fed | queued)
  · rcases move.fed fed with earlier | ⟨packet, inside, equal⟩
    · exact confirms bytes (.inl earlier)
    · rw [equal, stamp_of_beforeFin before]
      exact confirms packet (.inr inside)
  · exact (move.confirms disciplined cfg moderate near heard queued).elim
      (fun earlier => confirms bytes (.inr earlier)) id

/-! ## The states of the server -/

/-- A server whose SYN reply waits for its acknowledgement stays connected or begins its shutdown. -/
theorem Move.beforeFin (move : Move ambient t t') (stays : ¬ ambient.Quits)
    (plain : Unflagged ambient kcpReset) (regular : t.Regular config) (departed : t.Departed)
    (stream : t.hasStream) (waiting : t.kcp.getWaitsnd ≠ 0) (before : t.beforeFin) :
    t'.beforeFin := by
  have alive : t.hs ≠ .disconnected := fun gone => by simp [Task.beforeFin, gone] at before
  by_contra later
  have state : t'.hs = .disconnected ∨ t'.finishing := by
    cases hs : t'.hs <;> simp [Task.beforeFin, Task.finishing, hs] at later ⊢
  rcases state with gone | finishing
  · rcases move.finished (.inl gone) with (ended | left) | quits | ⟨_, unheld | ⟨packet, arrived,
      flagged⟩ | ⟨wait, _⟩⟩
    · exact alive ended
    · exact alive (departed.left left)
    · exact stays quits
    · rw [move.unannounced_before unheld] at stream
      cases stream
    · unfold resetFlagged at flagged
      split at flagged
      · rename_i cmd command
        simp [plain packet cmd arrived command] at flagged
      · cases flagged
    · simp [Task.beforeFin, wait] at before
  · obtain ⟨sent, member, kind⟩ := (move.regular regular).finLast.finQueued_of_finishing finishing
    have unqueued := regular.unqueued before
    rcases move.sends with same | ⟨last, trace, queues⟩
    · exact unqueued ⟨sent, same ▸ member, kind⟩
    · rw [sends_of_trace trace, List.mem_append, List.mem_singleton] at member
      rcases member with earlier | rfl
      · exact unqueued ⟨sent, earlier, kind⟩
      · cases queues with
        | syn other | reply other | data other =>
            rw [kind] at other
            cases other
        | fin _ _ settled => exact waiting settled

/-! ## The first frame -/

theorem Move.left (move : Move ambient t t') (isLeft : t.left) : t'.left := by
  have stopped {running : t.running} : False := by
    rw [not_left_of_running running] at isLeft
    cases isLeft
  cases move with
  | goto _ running => exact absurd running fun running => @stopped running
  | leave running => exact absurd running fun running => @stopped running
  | recv running => exact absurd running fun running => @stopped running
  | app event _ acted =>
      obtain ⟨_, _, _, rfl | ⟨_, rfl⟩⟩ := app_eq acted <;> exact isLeft
  | finish =>
      obtain ⟨_, _, _, equal⟩ := finish_eq t
      simp [equal, Task.left]
  | _ => exact isLeft

/-- The input channel is closed by the FIN flag of the peer or at the end of the loop. -/
theorem Move.rxClosed (move : Move ambient t t') (closed : t'.inputRx.rxClosed) :
    t.inputRx.rxClosed ∨ t'.finRecved ∨ t'.left := by
  cases move with
  | @app _ event _ acted =>
      cases event <;> simp only [Task.app] at acted
      case reserve | startSend =>
        split at acted
        · cases acted
          exact .inl closed
        · cases acted
      all_goals
        cases acted
        exact .inl closed
  | noticeFin => exact .inr (.inl rfl)
  | leave => exact .inr (.inr rfl)
  | recv _ taken =>
      obtain ⟨kcp, ⟨_, _, rfl⟩ | ⟨_, _, ⟨_, _, rfl⟩ | ⟨_, _, rfl⟩⟩⟩ := kcpRecv_cases taken <;>
        exact .inl closed
  | finish =>
      obtain ⟨_, _, _, equal⟩ := finish_eq t
      rw [equal] at closed
      exact .inl closed
  | _ => exact .inl closed

/-- A server that becomes connected has received a frame. -/
theorem Move.answers (move : Move ambient t t') (server : t.client = false) (early : t.hs = .syn)
    (later : t'.hs = .connected) : t.received ≠ [] := by
  have stays {u : Task} (later : u.hs = .connected) (same : u.hs = t.hs) : t.received ≠ [] := by
    rw [same, early] at later
    cases later
  cases move with
  | replySyn _ _ popped =>
      have member := List.mem_of_getLast? popped
      exact List.ne_nil_of_mem (List.mem_filterMap.2 ⟨_, member, by rw [Obs.popped]⟩)
  | connect client =>
      rw [server] at client
      cases client
  | app event _ acted =>
      obtain ⟨_, _, _, rfl | ⟨_, rfl⟩⟩ := app_eq acted <;> exact stays later rfl
  | recv _ taken => exact stays later (kcpRecv_hs taken)
  | finish =>
      obtain ⟨_, _, _, equal⟩ := finish_eq t
      rw [equal] at later
      exact stays later rfl
  | sendFin | abort | pend | waitPeer | done | expire | reset => cases later
  | _ => exact stays later rfl

/-- The first frame is the handshake frame of the task, and a server sends it in answer to a frame. -/
structure Introduced (t : Task) : Prop where
  named : ∀ sent rest, t.sends = sent :: rest → sent.frame = t.handshakeFrame
  answered : t.client = false → t.sends ≠ [] → t.received ≠ []
  shut : t.inputRx.rxClosed → t.finRecved ∨ t.left

theorem Move.introduced (move : Move ambient t t') (unheld : t.Unheld) (opens : t.Opens)
    (introduced : t.Introduced) : t'.Introduced := by
  have same (some : t.sends ≠ []) : t'.handshakeFrame = t.handshakeFrame := by
    have id : t'.sessionId = t.sessionId := by
      refine move.sessionId.resolve_right ?_
      rintro ⟨server, early⟩
      obtain ⟨none, _⟩ | ⟨_, _, _, _, _, _, answered⟩ := opens
      · exact some none
      · exact answered server early
    rw [handshakeFrame, handshakeFrame, move.identity.1, id]
  have grows : t.received <+: t'.received :=
    (trace_prefix_of_moves (.single move)).filterMap Obs.popped
  have received (some : t.received ≠ []) : t'.received ≠ [] := fun none =>
    some (List.prefix_nil.1 (none ▸ grows))
  refine ⟨fun sent rest sends => ?_, fun server some => ?_, fun closed => ?_⟩
  · rcases move.sends with equal | ⟨last, trace, queues⟩
    · rw [equal] at sends
      rw [same (by simp [sends])]
      exact introduced.named sent rest sends
    · rw [sends_of_trace trace] at sends
      cases earlier : t.sends with
      | cons first more =>
          rw [earlier, List.cons_append, List.cons.injEq] at sends
          rw [same (by simp [earlier]), ← sends.1]
          exact introduced.named first more earlier
      | nil =>
          rw [earlier, List.nil_append, List.cons.injEq] at sends
          obtain ⟨_, server, unknown, early⟩ | ⟨_, _, opened, _⟩ := opens
          · rw [← sends.1]
            cases queues with
            | syn _ client =>
                rw [server] at client
                cases client
            | reply _ _ _ _ frame =>
                obtain ⟨id, _, known, frame⟩ := frame
                rw [frame, handshakeFrame, move.identity.1, known]
            | data _ queued => exact absurd (unheld unknown).1 queued
            | fin _ pending =>
                rcases early with early | early <;> rw [early] at pending <;> cases pending
          · rw [earlier] at opened
            cases opened
  · have server' : t.client = false := move.conv.1 ▸ server
    by_cases none : t.sends = []
    · rcases move.sends with equal | ⟨last, trace, queues⟩
      · exact absurd (equal.trans none) some
      · obtain ⟨_, _, unknown, early⟩ | ⟨_, _, opened, _⟩ := opens
        · cases queues with
          | syn _ client =>
              rw [server'] at client
              cases client
          | reply _ _ syn connected => exact received (move.answers server' syn connected)
          | data _ queued => exact absurd (unheld unknown).1 queued
          | fin _ pending =>
              rcases early with early | early <;> rw [early] at pending <;> cases pending
        · rw [none] at opened
          cases opened
    · exact received (introduced.answered server' none)
  · rcases move.rxClosed closed with before | now
    · rcases introduced.shut before with noticed | isLeft
      · rcases move.finRecved with kept | ⟨noticed', _⟩
        · exact .inl (kept.trans noticed)
        · exact .inl noticed'
      · exact .inr (move.left isLeft)
    · exact now

/-! ## The server of a client in `Syn` -/

section Serving

variable {body body' : List Payload} {syn : Sent}

/-- A server that has a segment in flight has received the whole SYN frame. -/
theorem Acquainted.heard (acquainted : Acquainted body body' x y) (asked : x.sends = [syn])
    (answered : y.sends ≠ [] → y.received ≠ []) (flying : y.kcp.cb.sndBuf ≠ []) :
    body.length ≤ y.kcp.cb.rcvNxt := by
  have numbered : 0 < y.kcp.cb.sndNxt := by
    obtain ⟨una, flight⟩ := acquainted.answers.tied.flying
    have count := flight.window.length_le
    have some := List.length_pos_iff.2 flying
    rw [List.length_map] at count
    omega
  have replied : y.sends ≠ [] := by
    intro none
    have empty := acquainted.opening'.silent none
    have most := acquainted.rcvNxt_le.2
    rw [empty, List.length_nil] at most
    omega
  obtain ⟨inside, whole, received⟩ := acquainted.reads'
  have split := List.take_append_drop y.kcp.cb.taken body
  have alone := acquainted.opening.alone syn asked
  have rest : body.drop y.kcp.cb.taken = [] := by
    by_contra some
    rw [← split, messages_append whole, ← received] at alone
    have more := messagesFrom_ne_nil (acquainted.out.framed.whole.drop y.kcp.cb.taken) some []
    have read := answered replied
    have size := congrArg List.length alone
    rw [List.length_append, List.length_singleton] at size
    have least := List.length_pos_iff.2 read
    have least' := List.length_pos_iff.2 more
    rw [messages] at size
    omega
  have past := List.drop_eq_nil_iff.1 rest
  have position := acquainted.answers.tied.arrived.rcvNxt_eq
  omega

/-- What is kept of a server while its client waits for the reply, when the SYN frame of the client
takes up `count` segments. -/
structure Serves (count : Nat) (t : Task) : Prop where
  disciplined : t.Disciplined
  introduced : t.Introduced
  server : t.client = false
  confirms : t.Confirms count

theorem Move.serves (move : Move ambient y y') (acquainted : Acquainted body body' x y')
    (asked : x.sends = [syn]) (regular : y.Regular config) (opens : y.Opens) (before : y.beforeFin)
    (near : y.kcp.cb.rcvNxt < 2 ^ 31) (moderate : config.mtu.toNat < 2 ^ 30)
    (serves : y.Serves body.length) : y'.Serves body.length where
  disciplined := move.disciplined serves.disciplined
  introduced := move.introduced regular.unheld opens serves.introduced
  server := move.conv.1.trans serves.server
  confirms := by
    have introduced := move.introduced regular.unheld opens serves.introduced
    have server := move.conv.1.trans serves.server
    exact move.confirms_all serves.server before serves.disciplined regular.cfg moderate near
      (acquainted.heard asked (introduced.answered server)) serves.confirms

/-- Moves of the server before its FIN frame. -/
theorem Moves.serves (moves : Moves ambient y y') (acquainted : Acquainted body body' x y)
    (asked : x.sends = [syn]) (before : y'.beforeFin) (regular : y.Regular config) (opens : y.Opens)
    (still : x.FinLast) (modest : y'.Modest) (short : x.kcp.cb.sndNxt < 2 ^ 31)
    (carried : ∀ packet, ambient.Delivered packet → packet ∈ x.emitted)
    (named : 0 < config.sessionKey.length + config.sessionIdLen) (fits : config.synWhole)
    (moderate : config.mtu.toNat < 2 ^ 30)
    (apart : config.stream = false ∨ 1 ≤ y.kcp.cb.sndNxt ∨
      y'.sends.length ≤ max 1 y.sends.length) (serves : y.Serves body.length) :
    ∃ body'', Acquainted body body'' x y' ∧ y'.Serves body.length := by
  obtain ⟨regular', opens'⟩ := moves.opens regular opens
  obtain ⟨body'', acquainted', ⟨serves', _⟩, _⟩ := moves.acquainted acquainted.symm regular
    (opens'.begins regular'.cfg) still modest short carried named fits apart
    (fun _ t => t.Serves body.length ∧ t.Opens) ⟨serves, opens⟩ (by
      rintro own u u' move rest _ regular acquainted ⟨serves, opens⟩
      have early {t : Task} (rank : t.hs.rank ≤ y'.hs.rank) : t.beforeFin := by
        cases hs : t.hs <;> cases hs' : y'.hs <;>
          simp [hs, hs', Handshake.rank, Task.beforeFin] at rank before ⊢
      have most := acquainted.rcvNxt_le
      exact ⟨(move.regular regular).unqueued (early rest.advances), fun own' acquainted' =>
        ⟨move.serves acquainted'.symm asked regular opens
          (early (move.advances.trans rest.advances)) (most.1.trans_lt short) moderate serves,
          move.opens regular.unheld regular.known opens⟩⟩)
  exact ⟨body'', acquainted'.symm, serves'⟩

/-- A server that has replied, and whose reply waits for the acknowledgement of one segment. -/
structure Replied (number : Nat) (body' : List Payload) (t : Task) : Prop where
  before : t.beforeFin
  later : t.hs ≠ .syn
  stream : t.hasStream
  departed : t.Departed
  number_lt : number < body'.length
  unacked : t.kcp.cb.Unacked number

/-- The reply has not been acknowledged as a whole. -/
theorem Replied.waitsnd (replied : y.Replied number body') (acquainted : Acquainted body body' x y) :
    y.kcp.getWaitsnd ≠ 0 := by
  intro settled
  obtain ⟨_, numbered, _⟩ := acquainted.answers.settled settled
  rw [List.append_nil] at numbered
  obtain ⟨seg, flying, _⟩ := replied.unacked (replied.number_lt.trans_le numbered)
  have pending : y.kcp.cb.pending = [] := List.length_eq_zero_iff.1
    (acquainted.answers.counted.waitsnd.symm.trans settled)
  rw [Ikcpcb.pending, List.map_eq_nil_iff, List.append_eq_nil_iff] at pending
  rw [pending.1] at flying
  cases flying

/-- Moves of the server after its reply, when what it is told spares the segment. -/
theorem Moves.replied (moves : Moves ambient y y') (acquainted : Acquainted body body' x y)
    (asked : x.sends = [syn]) (stays : ¬ ambient.Quits) (unreset : Unflagged ambient kcpReset)
    (unfinished : Unflagged ambient kcpFin)
    (spares : ∀ packet, ambient.Delivered packet → PacketSpares number packet)
    (regular : y.Regular config) (opens : y.Opens) (still : x.FinLast) (modest : y'.Modest)
    (short : x.kcp.cb.sndNxt < 2 ^ 31)
    (carried : ∀ packet, ambient.Delivered packet → packet ∈ x.emitted)
    (named : 0 < config.sessionKey.length + config.sessionIdLen) (fits : config.synWhole)
    (moderate : config.mtu.toNat < 2 ^ 30)
    (apart : config.stream = false ∨ 1 ≤ y.kcp.cb.sndNxt ∨
      y'.sends.length ≤ max 1 y.sends.length) (serves : y.Serves body.length)
    (replied : y.Replied number body') :
    ∃ body'', Acquainted body body'' x y' ∧ y'.Serves body.length ∧ y'.Replied number body'' := by
  obtain ⟨regular', opens'⟩ := moves.opens regular opens
  obtain ⟨body'', acquainted', ⟨serves', replied', _⟩, _⟩ := moves.acquainted acquainted.symm regular
    (opens'.begins regular'.cfg) still modest short carried named fits apart
    (fun own t => t.Serves body.length ∧ t.Replied number own ∧ t.Opens) ⟨serves, replied, opens⟩ (by
      rintro own u u' move - modest regular acquainted ⟨serves, replied, opens⟩
      have most := acquainted.rcvNxt_le
      have before := move.beforeFin stays unreset regular replied.departed replied.stream
        (replied.waitsnd acquainted.symm) replied.before
      refine ⟨(move.regular regular).unqueued before, fun own' acquainted' => ⟨?_, ⟨before,
        (move.identity.2 replied.later).2, ?_, move.departed stays replied.departed, ?_, ?_⟩,
        move.opens regular.unheld regular.known opens⟩⟩
      · exact move.serves acquainted'.symm asked regular opens replied.before (most.1.trans_lt short)
          moderate serves
      · by_contra unknown
        have before := move.unannounced_before (by simpa using unknown)
        rw [replied.stream] at before
        cases before
      · -- Nothing that has been queued is taken back.
        have grows := (engineStable_queued _).move move ⟨acquainted.speaks.counted, le_rfl⟩
        have length := acquainted.speaks.written.length
        have length' := acquainted'.speaks.written.length
        rw [List.append_nil] at length length'
        exact replied.number_lt.trans_le (by omega)
      · exact move.unacked acquainted.speaks acquainted.answers carried unfinished spares
          (move.sndNxt_le.trans_lt modest.few) short replied.unacked)
  exact ⟨body'', acquainted'.symm, serves', replied'⟩

end Serving

end Task
end KcpRs
