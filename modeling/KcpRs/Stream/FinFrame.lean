import KcpRs.Stream.FinFlag
import KcpRs.Stream.Settled

/-!
# The FIN frame comes last

From `FinSent` on, everything that waits for an acknowledgement belongs to the FIN
frame, and so does everything that `kcp_output` stamps with the FIN flag. Since the
frame is queued only when nothing else waits, all data has been acknowledged before
the first stamped packet leaves.
-/

namespace KcpRs

open Lib

/-- The fragments that `Kcp::send` cuts a frame into when nothing is queued. The
length is the one that it passes as a C `int`. -/
def Config.fragments (cfg : Config) (frame : Bytes) : List Payload :=
  let mss := cfg.mtu.toNat - ikcpOverhead
  let len := (BitVec.ofNat 32 frame.length).toInt.toNat
  (sendFragments mss cfg.stream (fragmentCount mss len) frame len).map Seg.payload

theorem pending_of_getWaitsnd {kcp : Kcp} (counted : kcp.cb.Counted) (settled : kcp.getWaitsnd = 0) :
    kcp.cb.pending = [] :=
  List.length_eq_zero_iff.1 (counted.waitsnd.symm.trans settled)

/-- With nothing queued, a successful `Kcp::send` queues the fragments of its frame. -/
theorem pending_send {cfg : Config} {kcp kcp' : Kcp} {frame : Bytes} {size : Nat}
    (counted : kcp.cb.Counted) (configured : kcp.cb.Configured cfg)
    (settled : kcp.getWaitsnd = 0) (sent : kcp.send frame = some (.ok size, kcp')) :
    kcp'.cb.pending.Sublist (cfg.fragments frame) := by
  have idle := pending_of_getWaitsnd counted settled
  have nothing : kcp.cb.sndBuf = [] ∧ kcp.cb.sndQueue = [] := by
    simpa [Ikcpcb.pending] using idle
  have rest (len : Nat) (accepted : (sendRest kcp.cb frame len).1 = 0) :
      (sendRest kcp.cb frame len).2.pending = (sendFragments (cfg.mtu.toNat - ikcpOverhead)
        cfg.stream (fragmentCount (cfg.mtu.toNat - ikcpOverhead) len) frame len).map
          Seg.payload := by
    unfold sendRest at accepted ⊢
    dsimp only at accepted ⊢
    split at accepted
    · cases accepted
    · rename_i fits
      rw [if_neg fits]
      simp [Ikcpcb.pending, nothing.1, nothing.2, configured.mss, configured.stream]
  obtain ⟨_, rfl⟩ | ⟨_, result, rfl⟩ := Kcp.send_eq sent
  · rw [idle]
    exact List.nil_sublist _
  · have code : (ikcpSend kcp.cb frame (BitVec.ofNat 32 frame.length).toInt).1 = 0 := by
      obtain code | code | code :=
        ikcpSend_code kcp.cb frame (BitVec.ofNat 32 frame.length).toInt
      · exact code
      · rw [code] at result
        cases result
      · rw [code] at result
        cases result
    generalize length : (BitVec.ofNat 32 frame.length).toInt = len at code ⊢
    have extended : sendExtend kcp.cb frame len.toNat = (kcp.cb, frame, len.toNat) := by
      simp [sendExtend, nothing.2]
    unfold Config.fragments
    simp only [length]
    unfold ikcpSend at code ⊢
    rw [extended] at code ⊢
    dsimp only at code ⊢
    by_cases negative : len < 0
    · rw [if_pos negative] at code
      cases code
    · rw [if_neg negative] at code ⊢
      by_cases stream : kcp.cb.stream = true
      · rw [if_pos stream] at code ⊢
        by_cases empty : len.toNat = 0
        · rw [if_pos empty, idle]
          exact List.nil_sublist _
        · rw [if_neg empty] at code ⊢
          rw [rest _ code]
      · rw [if_neg stream] at code ⊢
        rw [rest _ code]

/-- A packet of well-formed segments whose payloads satisfy `Carries`. -/
def Packed (Carries : Payload → Prop) (packet : Bytes) : Prop :=
  ∃ segs, segs ≠ [] ∧ packet = encodePacket segs ∧
    (∀ seg ∈ segs, isCommand seg.cmd ∧ seg.data.length < 2 ^ 32) ∧
    ∀ seg ∈ segs, seg.data ≠ [] → Carries seg.payload

/-- The FIN flag of a packet. -/
def finFlagged (packet : Bytes) : Bool := packet.getD 4 0 &&& kcpFin ≠ 0

/-- What a sound block emits is well formed and carries what waits. -/
theorem Packed.of_emitted {kcp : Ikcpcb} (sound : kcp.Sound) (small : kcp.mss < 2 ^ 32)
    {conv una : U32} {acklist : List (U32 × U32)} {packet : Bytes}
    (emitted : ∃ segs, segs ≠ [] ∧ packet = encodePacket segs ∧
      ∀ seg ∈ segs, Emitted conv una acklist kcp.sndBuf seg) : Packed (· ∈ kcp.pending) packet := by
  obtain ⟨segs, nonempty, equal, good⟩ := emitted
  have buffered {seg : Seg} (member : seg ∈ kcp.sndBuf) : seg.payload ∈ kcp.pending := by
    rw [Ikcpcb.pending, List.map_append]
    exact List.mem_append_left _ (List.mem_map_of_mem member)
  refine ⟨segs, nonempty, equal, fun seg member => ?_, fun seg member carries => ?_⟩
  · obtain ⟨_, inside | ⟨⟨empty, _⟩, ack | wask | wins⟩⟩ := good seg member
    · refine ⟨by simp [isCommand, sound.push seg inside], ?_⟩
      exact (sound.sized seg.payload (buffered inside)).trans_lt small
    · exact ⟨by simp [isCommand, ack.1], by simp [empty]⟩
    · exact ⟨by simp [isCommand, wask], by simp [empty]⟩
    · exact ⟨by simp [isCommand, wins], by simp [empty]⟩
  · obtain ⟨_, inside | ⟨⟨empty, _⟩, _⟩⟩ := good seg member
    · exact buffered inside
    · exact absurd empty carries

theorem Packed.mono {Carries Carries' : Payload → Prop} {packet : Bytes}
    (packed : Packed Carries packet) (weaker : ∀ payload, Carries payload → Carries' payload) :
    Packed Carries' packet := by
  obtain ⟨segs, nonempty, equal, formed, carries⟩ := packed
  exact ⟨segs, nonempty, equal, formed, fun seg member data => weaker _ (carries seg member data)⟩

theorem Packed.not_finFlagged {Carries : Payload → Prop} {packet : Bytes}
    (packed : Packed Carries packet) : finFlagged packet = false := by
  obtain ⟨segs, nonempty, rfl, formed, _⟩ := packed
  cases segs with
  | nil => exact absurd rfl nonempty
  | cons seg rest =>
      have command := (formed seg List.mem_cons_self).1
      rw [finFlagged, getD_encodePacket, isCommand_and_kcpFin command]
      decide

namespace Task

variable {t t' : Task}

/-- The payloads of the FIN frame. -/
def finPayloads (t : Task) : List Payload := t.cfg.fragments t.handshakeFrame

/-- A packet with the FIN flag that has payload, all of it of the FIN frame. -/
def FinPacket (t : Task) (packet : Bytes) : Prop :=
  ∃ seg rest, packet = encodePacket ({ seg with cmd := seg.cmd ||| kcpFin } :: rest) ∧
    (∃ other ∈ seg :: rest, other.data ≠ []) ∧
    ∀ other ∈ seg :: rest, other.data ≠ [] → other.payload ∈ t.finPayloads

/-- Stamping sets the FIN flag exactly on the packets with payload, and only in
`FinSent`. -/
theorem stamp_packed {packet : Bytes} (packed : Packed (· ∈ t.finPayloads) packet) :
    stamp .finSent packet = packet ∧ finFlagged packet = false ∧
        (readPayloadData packet).isSome = false ∨
      t.FinPacket (stamp .finSent packet) ∧ finFlagged (stamp .finSent packet) ∧
        (readPayloadData packet).isSome := by
  have unflagged := packed.not_finFlagged
  obtain ⟨segs, nonempty, rfl, formed, carries⟩ := packed
  by_cases payload : (readPayloadData (encodePacket segs)).isSome
  · right
    cases segs with
    | nil => exact absurd rfl nonempty
    | cons seg rest =>
        have some := (isSome_readPayloadData fun other member => (formed other member).2).1
          payload
        have stamped : stamp .finSent (encodePacket (seg :: rest)) =
            encodePacket ({ seg with cmd := seg.cmd ||| kcpFin } :: rest) := by
          rw [stamp, if_pos ⟨rfl, payload⟩, getD_encodePacket, writeCmd_encodePacket]
        refine ⟨⟨seg, rest, stamped, some, carries⟩, ?_, payload⟩
        have command := (formed seg List.mem_cons_self).1
        rw [stamped, finFlagged, getD_encodePacket]
        exact decide_eq_true (isCommand_or_kcpFin command)
  · left
    exact ⟨by rw [stamp, if_neg (by simp [payload])], unflagged, by simpa using payload⟩

/-! ## The invariant -/

end Task

/-- The record of a frame of the given kind. -/
def Obs.isSend (kind : FrameKind) : Obs → Bool
  | .send sent => sent.kind = kind
  | _ => false

/-- A packet with the FIN flag. -/
def Obs.isFin : Obs → Bool
  | .packet bytes => finFlagged bytes
  | _ => false

namespace Task

variable {ambient : Ambient} {t t' : Task}

/-- The FIN frame has been queued and not been given up. -/
def finishing (t : Task) : Prop := t.hs = .finSent ∨ t.hs = .finWaitPeer

/-- Nothing of the FIN handshake has been recorded. -/
def BeforeFin (t : Task) : Prop :=
  ¬ t.finishing ∧ ∀ obs ∈ t.trace, obs.isSend .fin = false ∧ obs.isFin = false

/-- The one FIN frame was queued when nothing waited, no FIN packet was sent before and
no data was queued after it. -/
def AfterFin (t : Task) : Prop :=
  t.inputClosed ∧ (t.finishing ∨ t.hs = .disconnected) ∧ ∃ before sent after,
    t.trace = before ++ .send sent :: after ∧ sent.kind = .fin ∧ sent.waitsnd = 0 ∧
    (∀ obs ∈ before, obs.isFin = false) ∧
    ∀ obs ∈ after, obs.isSend .data = false ∧ ∀ bytes, obs = .packet bytes → finFlagged bytes →
      t.FinPacket bytes

/-- The invariant of the FIN handshake. -/
structure FinLast (t : Task) : Prop where
  counted : t.kcp.cb.Counted
  sound : t.kcp.cb.Sound
  configured : t.kcp.cb.Configured t.cfg
  queue : ∀ packet ∈ t.kcp.outputQueue,
    Packed (fun payload => t.finishing → payload ∈ t.finPayloads) packet
  only : t.finishing → t.kcp.cb.pending.Sublist t.finPayloads
  order : t.BeforeFin ∨ t.AfterFin

/-- The configuration never changes, and the session id not after the SYN handshake. -/
theorem Move.identity (move : Move ambient t t') :
    t'.cfg = t.cfg ∧ (t.hs ≠ .syn → t'.sessionId = t.sessionId ∧ t'.hs ≠ .syn) := by
  cases move with
  | app event _ acted =>
      obtain ⟨_, _, _, rfl | ⟨_, rfl⟩⟩ := app_eq acted <;>
        exact ⟨rfl, fun state => ⟨rfl, state⟩⟩
  | recv _ taken =>
      obtain ⟨kcp, ⟨_, _, rfl⟩ | ⟨_, _, ⟨_, _, rfl⟩ | ⟨_, _, rfl⟩⟩⟩ := kcpRecv_cases taken <;>
        exact ⟨rfl, fun state => ⟨rfl, state⟩⟩
  | finish =>
      obtain ⟨_, _, _, equal⟩ := finish_eq t
      rw [equal]
      exact ⟨rfl, fun state => ⟨rfl, state⟩⟩
  | replySyn _ state => exact ⟨rfl, fun other => absurd state other⟩
  | sendFin => exact ⟨rfl, fun _ => ⟨rfl, by simp [log]⟩⟩
  | reset => exact ⟨rfl, fun _ => ⟨rfl, by simp⟩⟩
  | abort => exact ⟨rfl, fun _ => ⟨rfl, by simp⟩⟩
  | pend => exact ⟨rfl, fun _ => ⟨rfl, by simp⟩⟩
  | waitPeer => exact ⟨rfl, fun _ => ⟨rfl, by simp⟩⟩
  | done => exact ⟨rfl, fun _ => ⟨rfl, by simp⟩⟩
  | expire => exact ⟨rfl, fun _ => ⟨rfl, by simp⟩⟩
  | connect => exact ⟨rfl, fun _ => ⟨rfl, by simp⟩⟩
  | _ => exact ⟨rfl, fun state => ⟨rfl, state⟩⟩

theorem Move.finPayloads (move : Move ambient t t') (state : t.hs ≠ .syn) :
    t'.finPayloads = t.finPayloads := by
  obtain ⟨cfg, rest⟩ := move.identity
  rw [Task.finPayloads, Task.finPayloads, handshakeFrame, handshakeFrame, cfg, (rest state).1]

theorem FinPacket.congr {packet : Bytes} (same : t'.finPayloads = t.finPayloads)
    (fin : t.FinPacket packet) : t'.FinPacket packet := by
  unfold FinPacket at fin ⊢
  rwa [same]

theorem AfterFin.not_syn (after : t.AfterFin) : t.hs ≠ .syn := by
  rcases after.2.1 with (state | state) | state <;> simp [state]

/-- Records that are neither frames nor FIN packets. -/
def Plain (obs : Obs) : Prop := (∀ kind, obs.isSend kind = false) ∧ obs.isFin = false

/-- Recording more keeps the order of the FIN handshake. -/
theorem FinLast.extend (order : t.BeforeFin ∨ t.AfterFin) (move : Move ambient t t')
    (extra : List Obs) (trace : t'.trace = t.trace ++ extra) (plain : ∀ obs ∈ extra, Plain obs)
    (closed : t.inputClosed → t'.inputClosed) (state : t'.finishing → t.finishing)
    (given : t.finishing ∨ t.hs = .disconnected → t'.finishing ∨ t'.hs = .disconnected) :
    t'.BeforeFin ∨ t'.AfterFin := by
  rcases order with before | after
  · refine .inl ⟨fun finishing => before.1 (state finishing), fun obs member => ?_⟩
    rw [trace] at member
    rcases List.mem_append.1 member with earlier | later
    · exact before.2 obs earlier
    · exact ⟨(plain obs later).1 _, (plain obs later).2⟩
  · have same := move.finPayloads after.not_syn
    obtain ⟨shut, at_, first, sent, rest, equal, kind, settled, unflagged, last⟩ := after
    refine .inr ⟨closed shut, given at_, first, sent, rest ++ extra, ?_, kind, settled, unflagged,
      fun obs member => ?_⟩
    · rw [trace, equal, List.append_assoc, List.cons_append]
    · rcases List.mem_append.1 member with earlier | later
      · refine ⟨(last obs earlier).1, fun bytes packet flagged => ?_⟩
        exact ((last obs earlier).2 bytes packet flagged).congr same
      · refine ⟨(plain obs later).1 _, fun bytes packet flagged => ?_⟩
        have unflagged := (plain obs later).2
        rw [packet, Obs.isFin, flagged] at unflagged
        cases unflagged

/-- Moves that do not touch the state keep the order. -/
theorem FinLast.extend_same (order : t.BeforeFin ∨ t.AfterFin) (move : Move ambient t t')
    (extra : List Obs) (trace : t'.trace = t.trace ++ extra) (plain : ∀ obs ∈ extra, Plain obs)
    (closed : t'.inputClosed = t.inputClosed) (state : t'.hs = t.hs) :
    t'.BeforeFin ∨ t'.AfterFin :=
  extend order move extra trace plain (fun shut => closed.trans shut)
    (fun finishing => by simpa [Task.finishing, state] using finishing)
    (fun given => by simpa [Task.finishing, state] using given)

theorem FinLast.not_finishing (order : t.BeforeFin ∨ t.AfterFin) (opened : t.inputClosed = false) :
    t.BeforeFin := by
  rcases order with before | after
  · exact before
  · simp [after.1] at opened

/-- A frame other than FIN that is queued before the FIN handshake. -/
theorem BeforeFin.send (before : t.BeforeFin) {sent : Sent} (kind : sent.kind ≠ .fin)
    (trace : t'.trace = t.trace ++ [.send sent]) (state : t'.finishing → t.finishing) :
    t'.BeforeFin := by
  refine ⟨fun finishing => before.1 (state finishing), fun obs member => ?_⟩
  rw [trace] at member
  rcases List.mem_append.1 member with earlier | last
  · exact before.2 obs earlier
  · rw [List.mem_singleton.1 last]
    exact ⟨by simp [Obs.isSend, kind], rfl⟩

/-- The packets that are fed. -/
theorem FinLast.feed (inv : t.FinLast) (move : Move ambient t t') {packets : List Bytes}
    (taken : packets <+: t.kcp.outputQueue)
    (trace : t'.trace = t.trace ++ packets.map fun packet => .packet (stamp t.hs packet))
    (closed : t'.inputClosed = t.inputClosed) (state : t'.hs = t.hs) :
    t'.BeforeFin ∨ t'.AfterFin := by
  have packed (packet : Bytes) (member : packet ∈ packets) := inv.queue packet (taken.subset member)
  by_cases sent : t.hs = .finSent
  · rcases inv.order with before | after
    · exact absurd (.inl sent) before.1
    · have same := move.finPayloads after.not_syn
      obtain ⟨shut, at_, first, record, rest, equal, kind, settled, unflagged, last⟩ := after
      refine .inr ⟨closed.trans shut, by simpa [finishing, state] using at_, first, record,
        rest ++ packets.map fun packet => .packet (stamp t.hs packet), ?_, kind, settled, unflagged,
        fun obs member => ?_⟩
      · rw [trace, equal, List.append_assoc, List.cons_append]
      · rcases List.mem_append.1 member with earlier | later
        · refine ⟨(last obs earlier).1, fun bytes packet flagged => ?_⟩
          exact ((last obs earlier).2 bytes packet flagged).congr same
        · obtain ⟨packet, inside, rfl⟩ := List.mem_map.1 later
          refine ⟨rfl, fun bytes fed flagged => ?_⟩
          cases fed
          have carried : Packed (· ∈ t.finPayloads) packet :=
            (packed packet inside).mono fun _ carries => carries (.inl sent)
          rw [sent] at flagged ⊢
          obtain ⟨same', unflagged', _⟩ | ⟨fin, _, _⟩ := stamp_packed carried
          · rw [same', unflagged'] at flagged
            cases flagged
          · exact fin.congr same
  · refine extend_same inv.order move _ trace (fun obs member => ?_) closed state
    obtain ⟨packet, inside, rfl⟩ := List.mem_map.1 member
    have plain : stamp t.hs packet = packet := by rw [stamp, if_neg (by simp [sent])]
    exact ⟨fun _ => rfl, by rw [plain]; exact (packed packet inside).not_finFlagged⟩

theorem Move.finOrder (move : Move ambient t t') (inv : t.FinLast) :
    t'.BeforeFin ∨ t'.AfterFin := by
  have order := inv.order
  have ended {t' : Task} (move : Move ambient t t') (trace : t'.trace = t.trace)
      (closed : t'.inputClosed = t.inputClosed) (state : t'.hs = .disconnected) :
      t'.BeforeFin ∨ t'.AfterFin :=
    FinLast.extend order move [] (by simp [trace]) (by simp)
      (fun shut => closed.trans shut) (fun finishing => by simp [Task.finishing, state] at finishing)
      (fun _ => .inr state)
  cases move' : move with
  | app event _ acted =>
      obtain ⟨_, _, _, rfl | ⟨frame, rfl⟩⟩ := app_eq acted
      · exact FinLast.extend_same order move [] (by simp) (by simp) rfl rfl
      · exact FinLast.extend_same order move [.accepted frame] rfl
          (by simp [Plain, Obs.isSend, Obs.isFin]) rfl rfl
  | recv _ taken =>
      obtain ⟨kcp, ⟨_, _, rfl⟩ | ⟨bytes, _, ⟨_, _, rfl⟩ | ⟨_, _, rfl⟩⟩⟩ := kcpRecv_cases taken
      · exact FinLast.extend_same order move [] (by simp) (by simp) rfl rfl
      · exact FinLast.extend_same order move [.discard bytes] rfl
          (by simp [Plain, Obs.isSend, Obs.isFin]) rfl rfl
      · exact FinLast.extend_same order move [.recv bytes] rfl
          (by simp [Plain, Obs.isSend, Obs.isFin]) rfl rfl
  | finish =>
      obtain ⟨_, resets, isReset, equal⟩ := finish_eq t
      refine FinLast.extend_same order move (resets ++ [.disconnect t.kcp.cb.conv])
        (by rw [equal]; simp) ?_ (by rw [equal]) (by rw [equal])
      intro obs member
      rcases List.mem_append.1 member with reset | last
      · obtain ⟨bytes, rfl⟩ := isReset obs reset
        exact ⟨fun _ => rfl, rfl⟩
      · rw [List.mem_singleton.1 last]
        exact ⟨fun _ => rfl, rfl⟩
  | sendSyn _ state _ _ sent =>
      refine .inl (BeforeFin.send (t := t) ?_ (by simp) rfl id)
      rcases order with before | after
      · exact before
      · exact absurd state after.not_syn
  | replySyn _ state _ _ sent =>
      refine .inl (BeforeFin.send (t := t) ?_ (by simp) rfl fun finishing => by
        simp [Task.finishing, log] at finishing)
      rcases order with before | after
      · exact before
      · exact absurd state after.not_syn
  | sendData queued opened _ sent =>
      exact .inl (BeforeFin.send (FinLast.not_finishing order opened) (by simp) rfl id)
  | @refuse frame _ _ _ _ _ _ _ =>
      exact FinLast.extend_same order move [.tooBig frame] rfl
        (by simp [Plain, Obs.isSend, Obs.isFin]) rfl rfl
  | sendFin _ state closed settled quiet sent =>
      have before : t.BeforeFin := by
        rcases order with before | after
        · exact before
        · rcases after.2.1 with (other | other) | other <;> simp [state] at other
      exact .inr ⟨closed, .inl (.inl rfl), t.trace, _, [], rfl, rfl, settled,
        fun obs member => (before.2 obs member).2, by simp⟩
  | reset => exact ended move rfl rfl rfl
  | abort => exact ended move rfl rfl rfl
  | done => exact ended move rfl rfl rfl
  | expire => exact ended move rfl rfl rfl
  | pend state _ =>
      exact FinLast.extend order move [] (by simp) (by simp) id
        (fun finishing => by simp [Task.finishing] at finishing)
        (fun given => by simp [Task.finishing, state] at given)
  | waitPeer state _ =>
      exact FinLast.extend order move [] (by simp) (by simp) id
        (fun _ => .inl state) (fun _ => .inl (.inr rfl))
  | connect _ state _ _ =>
      exact FinLast.extend order move [] (by simp) (by simp) id
        (fun finishing => by simp [Task.finishing] at finishing)
        (fun given => by simp [Task.finishing, state] at given)
  | closeInput =>
      exact FinLast.extend order move [] (by simp) (by simp) (fun _ => rfl) id id
  | announce =>
      exact FinLast.extend_same order move [.output (.connected t.kcp.cb.conv)] rfl
        (by simp [Plain, Obs.isSend, Obs.isFin]) rfl rfl
  | deliver frame =>
      exact FinLast.extend_same order move [.output (.frame frame)] rfl
        (by simp [Plain, Obs.isSend, Obs.isFin]) rfl rfl
  | @drained frame _ _ _ =>
      exact FinLast.extend_same order move [.drained frame] rfl
        (by simp [Plain, Obs.isSend, Obs.isFin]) rfl rfl
  | feed taken => exact inv.feed move taken rfl rfl rfl
  | _ => exact FinLast.extend_same order move [] (by simp [Task.leave]) (by simp) rfl rfl

/-- What waits during the FIN handshake is of the FIN frame. -/
theorem Move.finOnly (move : Move ambient t t') (inv : t.FinLast) (finishing : t'.finishing) :
    t'.kcp.cb.pending.Sublist t'.finPayloads := by
  have input {kcp kcp' : Kcp} {packet : Bytes} {result : Except ErrorKind Unit}
      (taken : kcp.input packet = some (result, kcp')) :
      kcp'.cb.pending.Sublist kcp.cb.pending := by
    obtain ⟨_, rfl⟩ := Kcp.input_eq taken
    exact pending_ikcpInput kcp.cb packet
  have payloads := move.finPayloads
  cases move with
  | app event _ acted =>
      obtain ⟨_, _, _, rfl | ⟨_, rfl⟩⟩ := app_eq acted <;> exact inv.only finishing
  | update now =>
      refine Eq.subst (motive := fun pending => List.Sublist pending _) ?_ (inv.only finishing)
      exact (pending_ikcpUpdate t.kcp.cb now).symm
  | flush =>
      refine Eq.subst (motive := fun pending => List.Sublist pending _) ?_ (inv.only finishing)
      exact (pending_ikcpFlush t.kcp.cb).symm
  | sendSyn _ state => simp [Task.finishing, log, state] at finishing
  | replySyn => simp [Task.finishing, log] at finishing
  | sendData _ opened => exact absurd finishing (FinLast.not_finishing inv.order opened).1
  | refuse _ opened => exact absurd finishing (FinLast.not_finishing inv.order opened).1
  | sendFin _ _ _ settled _ sent => exact pending_send inv.counted inv.configured settled sent
  | input _ _ taken => exact (input taken).trans (inv.only finishing)
  | inputAs back _ _ taken _ => exact (input taken).trans (inv.only finishing)
  | inputFin _ _ _ _ _ taken => exact (input taken).trans (inv.only finishing)
  | recv _ taken =>
      obtain ⟨_, _, engine⟩ := kcpRecv_kcp taken
      have finishing' : t.finishing := by rwa [Task.finishing, kcpRecv_hs taken] at finishing
      have started : t.hs ≠ .syn := fun state => by simp [Task.finishing, state] at finishing'
      rw [payloads started, engine]
      exact inv.only finishing'
  | waitPeer state => exact inv.only (.inl state)
  | finish =>
      obtain ⟨_, _, _, equal⟩ := finish_eq t
      rw [equal] at finishing ⊢
      exact inv.only finishing
  | pend => simp [Task.finishing] at finishing
  | connect => simp [Task.finishing] at finishing
  | reset => simp [Task.finishing] at finishing
  | abort => simp [Task.finishing] at finishing
  | done => simp [Task.finishing] at finishing
  | expire => simp [Task.finishing] at finishing
  | _ => exact inv.only finishing

/-- Moves that produce no packet keep the queue well formed. -/
theorem FinLast.queue_same (inv : t.FinLast) (move : Move ambient t t')
    (queue : t'.kcp.outputQueue = t.kcp.outputQueue) (state : t'.finishing → t.finishing) :
    ∀ packet ∈ t'.kcp.outputQueue,
      Packed (fun payload => t'.finishing → payload ∈ t'.finPayloads) packet := by
  intro packet member
  rw [queue] at member
  refine (inv.queue packet member).mono fun payload carries finishing => ?_
  have before := state finishing
  have awake : t.hs ≠ .syn := by rcases before with state | state <;> simp [state]
  rw [move.finPayloads awake]
  exact carries before

/-- Packets that are added carry what waits. -/
theorem FinLast.queue_emit (inv : t.FinLast) {cb : Ikcpcb} {packets : List Bytes}
    (sound : cb.Sound) (configured : cb.Configured t.cfg) (same : cb.pending = t.kcp.cb.pending)
    {conv una : U32} {acklist : List (U32 × U32)}
    (emitted : ∀ packet ∈ packets, ∃ segs, segs ≠ [] ∧ packet = encodePacket segs ∧
      ∀ seg ∈ segs, Emitted conv una acklist cb.sndBuf seg) :
    ∀ packet ∈ t.kcp.outputQueue ++ packets,
      Packed (fun payload => t.finishing → payload ∈ t.finPayloads) packet := by
  intro packet member
  rcases List.mem_append.1 member with earlier | later
  · exact inv.queue packet earlier
  · have small : cb.mss < 2 ^ 32 := by
      have := configured.mss
      have := configured.most
      omega
    refine (Packed.of_emitted sound small (emitted packet later)).mono
      fun payload waits finishing => ?_
    exact (inv.only finishing).subset (same ▸ waits)

theorem Move.finQueue (move : Move ambient t t') (inv : t.FinLast) :
    ∀ packet ∈ t'.kcp.outputQueue,
      Packed (fun payload => t'.finishing → payload ∈ t'.finPayloads) packet := by
  have sent {kcp kcp' : Kcp} {frame : Bytes} {result : Except ErrorKind Nat}
      (sent : kcp.send frame = some (result, kcp')) : kcp'.outputQueue = kcp.outputQueue := by
    obtain ⟨_, rfl⟩ | ⟨_, _, rfl⟩ := Kcp.send_eq sent <;> rfl
  have input {kcp kcp' : Kcp} {packet : Bytes} {result : Except ErrorKind Unit}
      (taken : kcp.input packet = some (result, kcp')) : kcp'.outputQueue = kcp.outputQueue := by
    obtain ⟨_, rfl⟩ := Kcp.input_eq taken
    rfl
  cases move' : move with
  | app event _ acted =>
      obtain ⟨_, _, _, rfl | ⟨_, rfl⟩⟩ := app_eq acted <;> exact inv.queue_same move rfl id
  | update now =>
      exact inv.queue_emit (engineStable_sound.update _ now inv.sound)
        ((engineStable_configured t.cfg).update _ now inv.configured)
        (pending_ikcpUpdate t.kcp.cb now) fun _ => packet_ikcpUpdate
  | flush =>
      exact inv.queue_emit (engineStable_sound.flush _ inv.sound)
        ((engineStable_configured t.cfg).flush _ inv.configured)
        (pending_ikcpFlush t.kcp.cb) fun _ => packet_ikcpFlush
  | sendSyn _ _ _ _ accepted => exact inv.queue_same move (sent accepted) id
  | replySyn _ _ _ _ accepted =>
      exact inv.queue_same move (sent accepted) fun finishing => by
        simp [Task.finishing, log] at finishing
  | sendData _ _ _ accepted => exact inv.queue_same move (sent accepted) id
  | refuse _ _ _ refused => exact inv.queue_same move (sent refused) id
  | sendFin _ _ _ _ quiet accepted =>
      intro packet member
      simp only [log, sent accepted, quiet] at member
      cases member
  | input _ _ taken => exact inv.queue_same move (input taken) id
  | inputAs back _ _ taken _ =>
      have same := input taken
      exact inv.queue_same move same id
  | inputFin _ _ _ _ _ taken => exact inv.queue_same move (input taken) id
  | recv _ taken =>
      refine inv.queue_same move (kcpRecv_outputQueue taken) ?_
      obtain ⟨kcp, ⟨_, _, rfl⟩ | ⟨_, _, ⟨_, _, rfl⟩ | ⟨_, _, rfl⟩⟩⟩ := kcpRecv_cases taken <;>
        exact id
  | finish =>
      obtain ⟨_, _, _, equal⟩ := finish_eq t
      refine inv.queue_same move (by rw [equal]) ?_
      rw [equal]
      exact id
  | feed =>
      intro packet member
      cases member
  | waitPeer state => exact inv.queue_same move rfl fun _ => .inl state
  | pend => exact inv.queue_same move rfl fun finishing => by simp [Task.finishing] at finishing
  | connect => exact inv.queue_same move rfl fun finishing => by simp [Task.finishing] at finishing
  | reset => exact inv.queue_same move rfl fun finishing => by simp [Task.finishing] at finishing
  | abort => exact inv.queue_same move rfl fun finishing => by simp [Task.finishing] at finishing
  | done => exact inv.queue_same move rfl fun finishing => by simp [Task.finishing] at finishing
  | expire => exact inv.queue_same move rfl fun finishing => by simp [Task.finishing] at finishing
  | _ => exact inv.queue_same move rfl id

theorem Move.finLast (move : Move ambient t t') (inv : t.FinLast) : t'.FinLast where
  counted := engineStable_counted.move move inv.counted
  sound := engineStable_sound.move move inv.sound
  configured := by
    rw [move.identity.1]
    exact (engineStable_configured t.cfg).move move inv.configured
  queue := move.finQueue inv
  only := move.finOnly inv
  order := move.finOrder inv

theorem Fresh.finLast {config : Config} {conv : U32} {id : Bytes} (fresh : Fresh config conv id t) :
    t.FinLast where
  counted := fresh.empty.counted
  sound := fresh.empty.sound
  configured := fresh.cfg ▸ fresh.configured
  queue := by simp [fresh.outputQueue]
  only finishing := by simp [Task.finishing, fresh.hs] at finishing
  order := .inl ⟨by simp [Task.finishing, fresh.hs], by simp [fresh.trace]⟩

end Task

/-- The invariant holds of every reachable task. -/
theorem reach_finLast {config : Config} {allow : Task → Event → Prop} {t : Task}
    (reach : (taskMachine config).Reach allow t) : t.FinLast :=
  reach_invariant (fun _ _ _ fresh => fresh.finLast) (fun _ _ _ move inv => move.finLast inv) reach

/-- The FIN frame is the last one. In `FinSent` and `FinWaitPeer` the input is closed and
only the FIN frame waits. Before a packet with the FIN flag was fed to the transport,
the FIN frame was queued with nothing waiting, after all data; the payload of such a
packet is of the FIN frame. In `FinSent` the flag is put on exactly the packets with
payload. -/
theorem finFrame_is_last {config : Config} {t : Task} (reach : (taskMachine config).Reachable t) :
    (t.hs = .finSent ∨ t.hs = .finWaitPeer →
      t.inputClosed ∧ t.kcp.cb.pending.Sublist t.finPayloads) ∧
    (∀ before bytes after, t.trace = before ++ .packet bytes :: after → finFlagged bytes →
      t.FinPacket bytes ∧ ∃ earlier sent later, before = earlier ++ .send sent :: later ∧
        sent.kind = .fin ∧ sent.waitsnd = 0 ∧
        ∀ obs ∈ later ++ .packet bytes :: after, obs.isSend .data = false) ∧
    (t.hs = .finSent → ∀ packet ∈ t.kcp.outputQueue, ∃ segs, packet = encodePacket segs ∧
      (∀ seg ∈ segs, seg.data ≠ [] → seg.payload ∈ t.finPayloads) ∧
      (finFlagged (Task.stamp t.hs packet) ↔ ∃ seg ∈ segs, seg.data ≠ [])) := by
  have inv := reach_finLast reach
  refine ⟨fun finishing => ⟨?_, inv.only finishing⟩, fun before bytes after trace flagged => ?_,
    fun state packet member => ?_⟩
  · rcases inv.order with early | late
    · exact absurd finishing early.1
    · exact late.1
  · rcases inv.order with early | late
    · have unflagged := (early.2 (.packet bytes) (by simp [trace])).2
      rw [Obs.isFin, flagged] at unflagged
      cases unflagged
    · obtain ⟨_, _, first, sent, rest, equal, kind, settled, unflagged, last⟩ := late
      rw [equal, List.append_eq_append_iff] at trace
      rcases trace with ⟨gap, split, tail⟩ | ⟨gap, split, tail⟩
      · cases gap with
        | nil => cases tail
        | cons obs gap =>
            cases tail
            refine ⟨(last (.packet bytes) (by simp)).2 bytes rfl flagged, first, sent, gap, split,
              kind, settled, fun obs member => (last obs member).1⟩
      · cases gap with
        | nil => cases tail
        | cons obs gap =>
            cases tail
            have early := unflagged (.packet bytes) (by simp [split])
            rw [Obs.isFin, flagged] at early
            cases early
  · have packed : Packed (· ∈ t.finPayloads) packet :=
      (inv.queue packet member).mono fun _ carries => carries (.inl state)
    have stamped := Task.stamp_packed packed
    obtain ⟨segs, _, rfl, formed, carries⟩ := packed
    have payload := isSome_readPayloadData fun seg member => (formed seg member).2
    refine ⟨segs, rfl, carries, ?_⟩
    rw [← payload, state]
    obtain ⟨same, unflagged, none⟩ | ⟨_, flagged, some⟩ := stamped
    · rw [same, unflagged, none]
    · rw [flagged, some]

/-- The FIN packet of the closing client. -/
theorem finFrame_is_last_closing : ∃ t bytes, (taskMachine sampleConfig).Reachable t ∧
    t.hs = .finSent ∧ .packet bytes ∈ t.trace ∧ finFlagged bytes ∧ t.FinPacket bytes := by
  have run : (clientRun sampleConfig [7] (fun _ => 0) (fun _ _ => true)
      (closingEvents ++ [.drain .sent])).map
        (fun t => (t.hs, t.trace.any Obs.isFin)) = some (.finSent, true) := by decide +kernel
  obtain ⟨t, executed, view⟩ := Option.map_eq_some_iff.1 run
  obtain ⟨state, some⟩ := Prod.mk.inj view
  have reach : (taskMachine sampleConfig).Reachable t :=
    reach_of_clientRun (fun _ _ _ => trivial) rfl executed
  obtain ⟨obs, member, flagged⟩ := List.any_eq_true.1 some
  cases obs with
  | packet bytes =>
      obtain ⟨before, after, trace⟩ := List.append_of_mem member
      exact ⟨t, bytes, reach, state, member, flagged,
        ((finFrame_is_last reach).2.1 before bytes after trace flagged).1⟩
  | _ => cases flagged

end KcpRs
