import KcpRs.Stream.Settled

/-!
# The conv a client agrees on

A client in `Syn` tries the conv of every packet, while the SYN reply is examined only
after a batch. `admits` is the condition on a packet under which the two cannot come
apart: nothing held was received under another conv, and a packet with data is taken as
a whole. Then everything a client in `Syn` holds was received under the conv in force
(`Agreed`), and so was the reply it accepts (`conv_of_connected`).
-/

namespace KcpRs

open Lib Relation

/-- One of the segments of a packet carries data. -/
def carriesData (segments : List (Head × Bytes)) : Bool :=
  segments.any fun segment => segment.1.cmd = ikcpCmdPush

/-- Nothing is queued, and a cumulative acknowledgement of one of the segments is past
everything in flight, or each segment in flight has an acknowledgement of its own. -/
def Ikcpcb.acknowledgedBy (kcp : Ikcpcb) (segments : List (Head × Bytes)) : Bool :=
  kcp.sndQueue = [] &&
    ((segments.any fun segment => kcp.sndBuf.all fun seg => 0 < itimediff segment.1.una seg.sn) ||
      kcp.sndBuf.all fun seg => segments.any fun segment =>
        segment.1.cmd = ikcpCmdAck && segment.1.sn = seg.sn)

/-- A packet from which `seg` was taken. -/
def Carries (packet : Bytes) (seg : Seg) : Prop :=
  readConv packet = some seg.conv ∧ ∃ segment ∈ accepted seg.conv packet.length packet,
    segment.1.cmd = ikcpCmdPush ∧ seg = segment.1.segment segment.2

namespace Task

/-- A packet that a client in `Syn` handles without losing track of the conv. If it is
not ignored, everything held is of its conv; and if then something is or will be held,
its conv is valid, it does not mix convs, and one that makes the client change its conv
is well-formed and acknowledges everything that was sent. -/
def admits (t : Task) (packet : Bytes) : Bool :=
  match readConv packet with
  | none => true
  | some conv =>
      let segments := accepted conv packet.length packet
      !t.client || t.hs ≠ .syn || (conv = Kcp.synConv && t.kcp.cb.conv ≠ Kcp.synConv) ||
        t.kcp.cb.received.all (fun seg => seg.conv = conv) &&
        (t.kcp.cb.received = [] && !carriesData segments ||
          Kcp.isValidConv conv && inputCode conv packet ≠ -1 &&
            (conv = t.kcp.cb.conv ||
              inputCode conv packet = 0 && t.kcp.cb.acknowledgedBy segments))

/-- What a client in `Syn` holds was received under the conv in force, which is then
valid, and came with a delivered packet. -/
def Agreed (Delivered : Bytes → Prop) (t : Task) : Prop :=
  t.client → t.hs = .syn → ∀ seg ∈ t.kcp.cb.received, seg.conv = t.kcp.cb.conv ∧
    Kcp.isValidConv seg.conv ∧ ∃ packet, Delivered packet ∧ Carries packet seg

variable {Delivered : Bytes → Prop} {Sent : Nat → Payload → Prop} {t t' : Task}

/-- What `admits` says of a packet that is not ignored. -/
theorem admits_cases {packet : Bytes} {conv : U32} (admitted : t.admits packet)
    (client : t.client) (state : t.hs = .syn) (read : readConv packet = some conv)
    (heeded : conv = Kcp.synConv → t.kcp.cb.conv = Kcp.synConv) :
    (∀ seg ∈ t.kcp.cb.received, seg.conv = conv) ∧
      (t.kcp.cb.received = [] ∧ ¬ carriesData (accepted conv packet.length packet) ∨
        Kcp.isValidConv conv ∧ inputCode conv packet ≠ -1 ∧ (conv = t.kcp.cb.conv ∨
          inputCode conv packet = 0 ∧
            t.kcp.cb.acknowledgedBy (accepted conv packet.length packet))) := by
  unfold admits at admitted
  rw [read] at admitted
  simp only [client, state, Bool.or_eq_true, Bool.and_eq_true, Bool.not_eq_true', List.all_eq_true,
    decide_eq_true_eq, ne_eq, not_true_eq_false, decide_false, Bool.false_eq_true,
    or_false] at admitted
  rcases admitted with (false | ignored) | heard
  · cases false
  · exact absurd (heeded ignored.1) ignored.2
  · simpa [and_assoc] using heard

/-- Something is processed only under the conv of the packet. -/
theorem readConv_of_mem_accepted {conv : U32} {packet : Bytes} {segment : Head × Bytes}
    (member : segment ∈ accepted conv packet.length packet) : readConv packet = some conv := by
  cases size : packet.length with
  | zero =>
      rw [size] at member
      cases member
  | succ fuel =>
      rw [size] at member
      unfold accepted at member
      dsimp only at member
      split at member
      · cases member
      · rename_i whole
        rw [readConv_eq_decode (by omega)]
        split at member
        · cases member
        · rename_i same
          rw [not_not.1 same]

theorem carries_of_mem_accepted {conv : U32} {packet : Bytes} {segment : Head × Bytes}
    (member : segment ∈ accepted conv packet.length packet) (data : segment.1.cmd = ikcpCmdPush) :
    (segment.1.segment segment.2).conv = conv ∧
      Carries packet (segment.1.segment segment.2) ∧
      carriesData (accepted conv packet.length packet) := by
  have same : (segment.1.segment segment.2).conv = conv := conv_of_mem_accepted member
  refine ⟨same, ⟨?_, segment, ?_, data, rfl⟩, List.any_eq_true.2 ⟨segment, member, by simpa using data⟩⟩
  · rw [same]
    exact readConv_of_mem_accepted member
  · rw [same]
    exact member

/-- Processing a packet under the conv in force. -/
theorem agreed_input {packet : Bytes} {result : Except ErrorKind Unit} {kcp : Kcp}
    (delivered : Delivered packet) (admitted : t.admits packet) (agreed : t.Agreed Delivered)
    (taken : t.kcp.input packet = some (result, kcp)) : { t with kcp }.Agreed Delivered := by
  obtain ⟨_, rfl⟩ := Kcp.input_eq taken
  intro client state seg member
  rcases mem_received_ikcpInput member with earlier | ⟨segment, inside, data, rfl⟩
  · simp only [conv_ikcpInput]
    exact agreed client state seg earlier
  · obtain ⟨same, carried, some⟩ := carries_of_mem_accepted inside data
    simp only [conv_ikcpInput]
    refine ⟨same, ?_, packet, delivered, carried⟩
    obtain ⟨_, ⟨_, none⟩ | ⟨valid, _⟩⟩ := admits_cases admitted client state
      (readConv_of_mem_accepted inside) id
    · exact absurd some none
    · rw [same]
      exact valid

/-- A packet that acknowledges everything leaves nothing waiting. -/
theorem getWaitsnd_of_acknowledgedBy {kcp kcp' : Kcp} {packet : Bytes}
    {result : Except ErrorKind Unit} (counted : kcp.cb.Counted)
    (flying : kcp.cb.Flying Sent)
    (acknowledged : kcp.cb.acknowledgedBy (accepted kcp.cb.conv packet.length packet))
    (whole : inputCode kcp.cb.conv packet = 0)
    (taken : kcp.input packet = some (result, kcp')) : kcp'.getWaitsnd = 0 := by
  obtain ⟨_, rfl⟩ := Kcp.input_eq taken
  simp only [Ikcpcb.acknowledgedBy, Bool.and_eq_true, Bool.or_eq_true, decide_eq_true_eq,
    List.any_eq_true, List.all_eq_true] at acknowledged
  obtain ⟨queue, acknowledged⟩ := acknowledged
  have long : ¬ (BitVec.ofNat 32 packet.length).toInt < ikcpOverhead := by
    intro short
    rw [inputCode, if_pos short] at whole
    cases whole
  have landed : (ikcpInput kcp.cb packet).2.sndBuf = [] := by
    rcases acknowledged with ⟨segment, inside, past⟩ | each
    · exact sndBuf_ikcpInput_of_una inside past long
    · rw [List.eq_nil_iff_forall_not_mem]
      intro seg left
      -- It was in flight before under its number.
      have fewer := ikcpInput_sndBuf Seg.sn (fun _ _ => rfl) kcp.cb packet
      obtain ⟨old, flies, same⟩ := List.mem_map.1 (fewer.subset (List.mem_map_of_mem left))
      obtain ⟨segment, inside, ack, number⟩ := each old flies
      exact acked_ikcpInput flying inside long ack seg left (same.symm.trans number.symm)
  have queued : (ikcpInput kcp.cb packet).2.sndQueue = kcp.cb.sndQueue :=
    congrArg InputKept.sndQueue (inputKept_ikcpInput kcp.cb packet)
  rw [Kcp.getWaitsnd, (counted.ikcpInput packet).waitsnd, Ikcpcb.pending, landed, queued, queue]
  rfl

/-- Without a data segment in the packet, nothing new is held. -/
theorem received_of_not_carriesData (cb : Ikcpcb) (packet : Bytes)
    (empty : cb.received = []) (none : ¬ carriesData (accepted cb.conv packet.length packet)) :
    (ikcpInput cb packet).2.received = [] := by
  rw [List.eq_nil_iff_forall_not_mem]
  intro seg member
  rcases mem_received_ikcpInput member with earlier | ⟨segment, inside, data, _⟩
  · rw [empty] at earlier
    cases earlier
  · exact none (carries_of_mem_accepted inside data).2.2

/-- Processing a packet under its own conv. -/
theorem agreed_synHandshakeInput {packet : Bytes} {ok : Bool} {kcp : Kcp}
    (counted : t.kcp.cb.Counted) (flying : t.kcp.cb.Flying Sent)
    (delivered : Delivered packet) (admitted : t.admits packet)
    (agreed : t.Agreed Delivered) (taken : t.kcp.input packet = some (.error .notFound, kcp))
    (moved : { t with kcp }.synHandshakeInput packet = some (ok, t')) : t'.Agreed Delivered := by
  obtain rfl | ⟨conv, back, result, kcp', read, again, rfl,
    ⟨client, state, foreign, equal⟩ | ⟨server, _⟩⟩ := synHandshakeInput_cases moved
  · exact agreed_input delivered admitted agreed taken
  · intro _ _ seg member
    obtain ⟨held, rest⟩ := admits_cases admitted client state read fun same => absurd same foreign
    obtain ⟨code, rfl⟩ := Kcp.input_eq taken
    have code' := (Kcp.input_eq again).1
    by_cases same : conv = t.kcp.cb.conv
    · -- The packet mixes convs, so it brings nothing and finds nothing held.
      have refused : inputCode conv packet = -1 := by
        rw [same, ← ikcpInput_fst]
        rcases ikcpInput_code t.kcp.cb packet with zero | found | short | unknown
        · rw [zero] at code
          cases code
        · exact found
        · rw [short] at code
          cases code
        · rw [unknown] at code
          cases code
      obtain ⟨empty, none⟩ | ⟨_, mixed, _⟩ := rest
      · obtain ⟨_, rfl⟩ := Kcp.input_eq again
        have first := received_of_not_carriesData t.kcp.cb packet empty (by rwa [← same])
        have second : seg ∈ ([] : List Seg) := by
          rw [← received_of_not_carriesData { (ikcpInput t.kcp.cb packet).2 with conv } packet first
            none]
          exact member
        cases second
      · exact absurd refused mixed
    · -- The client changes its conv, so it held nothing before.
      have empty : t.kcp.cb.received = [] := by
        rw [List.eq_nil_iff_forall_not_mem]
        intro seg inside
        exact same ((held seg inside).symm.trans (agreed client state seg inside).1)
      have skipped : { t.kcp with cb := (ikcpInput t.kcp.cb packet).2 } = t.kcp := by
        rw [ikcpInput_other read same]
      rw [skipped] at again
      obtain ⟨_, none⟩ | ⟨valid, _, whole⟩ := rest
      · obtain ⟨_, rfl⟩ := Kcp.input_eq again
        have second : seg ∈ ([] : List Seg) := by
          rw [← received_of_not_carriesData { t.kcp.cb with conv } packet empty none]
          exact member
        cases second
      · obtain ⟨whole, acknowledged⟩ := whole.resolve_left same
        have flies : Ikcpcb.Flying Sent { t.kcp.cb with conv } :=
          flying.fewer rfl rfl rfl (List.Sublist.refl _)
        have settled : kcp'.getWaitsnd = 0 :=
          getWaitsnd_of_acknowledgedBy (engineStable_counted.conv _ conv counted)
            flies acknowledged whole again
        have accepts : result = .ok () := by
          rw [skipped] at code'
          rw [ikcpInput_fst, show (t.kcp.setConv conv).cb.conv = conv from rfl, whole] at code'
          exact (Option.some.inj code').symm
        have kept : back = conv := by
          rw [equal, if_neg (by simp [accepts, settled])]
        obtain ⟨_, rfl⟩ := Kcp.input_eq again
        rcases mem_received_ikcpInput member with earlier | ⟨segment, inside, data, rfl⟩
        · rw [show (t.kcp.setConv conv).cb.received = [] from empty] at earlier
          cases earlier
        · obtain ⟨under, carried, _⟩ := carries_of_mem_accepted inside data
          refine ⟨under.trans kept.symm, ?_, packet, delivered, carried⟩
          rw [under]
          exact valid
  · intro client
    rw [show t.client = false from server] at client
    cases client

/-- `fin_transit_state` gives up a SYN handshake. -/
theorem finTransitLoop_not_syn {fuel : Nat} (started : t.hs ≠ .syn)
    (moved : finTransitLoop fuel t = some t') : t'.hs ≠ .syn := by
  refine finTransitLoop_invariant (fun t => t.hs ≠ .syn) moved (fun before after turn _ => ?_) started
  cases turn <;> simp

theorem finTransitState_not_syn (moved : t.finTransitState = some t') : t'.hs ≠ .syn := by
  by_cases state : t.hs = .syn
  · unfold finTransitState finTransitLoop at moved
    rw [state] at moved
    exact finTransitLoop_not_syn (by simp) moved
  · exact finTransitLoop_not_syn state moved

theorem finInput_not_syn {packet : Bytes} {cmd : Byte} (moved : t.finInput packet cmd = some t') :
    t'.hs ≠ .syn := by
  obtain ⟨later, _, _, transit, _, rfl⟩ := finInput_eq moved
  have left : later.hs ≠ .syn := finTransitState_not_syn transit
  exact left

/-- An admitted packet keeps what a client holds under the conv in force. -/
theorem agreed_kcpInput {packet : Bytes} (counted : t.kcp.cb.Counted)
    (flying : t.kcp.cb.Flying Sent) (delivered : Delivered packet) (admitted : t.admits packet) (agreed : t.Agreed Delivered)
    (moved : t.kcpInput packet = some t') : t'.Agreed Delivered := by
  obtain ⟨_, kcp, taken, ⟨_, rfl⟩ | ⟨rfl, _, stray⟩ | ⟨_, cmd, _, flags⟩⟩ := kcpInput_cases moved
  · exact agreed_input delivered admitted agreed taken
  · exact agreed_synHandshakeInput counted flying delivered admitted agreed taken stray
  · obtain ⟨_, rfl⟩ | ⟨_, _, noticed⟩ | ⟨_, _, rfl⟩ := flags
    · rintro - state
      cases state
    · rintro - state
      exact absurd state (finInput_not_syn noticed)
    · exact agreed_input delivered admitted agreed taken

theorem agreed_kcpRecv {frame : Option Bytes} (agreed : t.Agreed Delivered)
    (taken : t.kcpRecv = some (frame, t')) : t'.Agreed Delivered := by
  have kept {kcp : Kcp} {got : Option Bytes} (received : t.kcp.recvBytes = some (got, kcp)) :
      { t with kcp }.Agreed Delivered := by
    obtain ⟨_, rfl⟩ | ⟨_, _, _, rfl⟩ := Kcp.recvBytes_eq received
    · exact agreed
    · intro client state seg member
      have conv : (recvMoved t.kcp.cb false).conv = t.kcp.cb.conv := by
        obtain ⟨probe, equal⟩ := recvMoved_eq t.kcp.cb false
        rw [equal]
        rfl
      rw [show (Kcp.mk (recvMoved t.kcp.cb false) t.kcp.outputQueue).cb =
        recvMoved t.kcp.cb false from rfl, received_recvMoved] at member
      simp only [conv]
      refine agreed client state seg ?_
      rw [Ikcpcb.received, ← takeMessage_append t.kcp.cb.rcvQueue, List.append_assoc]
      exact List.mem_append_right _ member
  obtain ⟨kcp, ⟨received, _, rfl⟩ | ⟨_, received, ⟨_, _, rfl⟩ | ⟨_, _, rfl⟩⟩⟩ :=
    kcpRecv_cases taken <;> exact kept received

/-- Only the role, the state, the conv and what is held matter. -/
theorem Agreed.congr (agreed : t.Agreed Delivered) (client : t'.client = t.client)
    (hs : t'.hs = t.hs) (receiver : t'.kcp.cb.receiver = t.kcp.cb.receiver)
    (conv : t'.kcp.cb.conv = t.kcp.cb.conv) : t'.Agreed Delivered := by
  intro isClient state seg member
  simp only [Ikcpcb.receiver, Ikcpcb.Receiver.mk.injEq] at receiver
  rw [Ikcpcb.received, receiver.1, receiver.2.2.1] at member
  rw [conv]
  exact agreed (client ▸ isClient) (hs ▸ state) seg member

/-- Moves that deliver no packet keep it too. -/
theorem Move.agreed {ambient : Ambient} (silent : ∀ packet, ¬ ambient.Delivered packet)
    (move : Move ambient t t') (agreed : t.Agreed Delivered) : t'.Agreed Delivered := by
  cases move with
  | app event _ acted =>
      obtain ⟨_, _, _, rfl | ⟨_, rfl⟩⟩ := app_eq acted <;> exact agreed
  | update now => exact agreed.congr rfl rfl (receiver_ikcpUpdate _ _) (conv_ikcpUpdate _ _)
  | flush => exact agreed.congr rfl rfl (receiver_ikcpFlush _) (conv_ikcpFlush _)
  | sendSyn _ _ _ _ sent =>
      exact agreed.congr rfl rfl (Kcp.receiver_of_send sent) (Kcp.conv_of_send sent)
  | sendData _ _ _ sent =>
      exact agreed.congr rfl rfl (Kcp.receiver_of_send sent) (Kcp.conv_of_send sent)
  | refuse _ _ _ refused =>
      exact agreed.congr rfl rfl (Kcp.receiver_of_send refused) (Kcp.conv_of_send refused)
  | replySyn => rintro - state; cases state
  | sendFin => rintro - state; cases state
  | input delivered => exact absurd delivered (silent _)
  | inputAs _ delivered => exact absurd delivered (silent _)
  | inputFin delivered => exact absurd delivered (silent _)
  | reset delivered => exact absurd delivered (silent _)
  | noticeFin delivered => exact absurd delivered (silent _)
  | recv _ taken => exact agreed_kcpRecv agreed taken
  | finish =>
      obtain ⟨_, _, _, equal⟩ := finish_eq t
      rw [equal]
      exact agreed
  | abort | pend | waitPeer | done | expire | connect => rintro - state; cases state
  | _ => exact agreed

theorem step_packet {packet : Bytes} (stepped : t.step (.packet packet) = some t') :
    ∃ pc, t' = t.goto pc (t.kcpInput packet) := by
  cases place : t.pc with
  | select =>
      simp only [step, place, Option.some.injEq] at stepped
      exact ⟨_, stepped.symm⟩
  | batch room =>
      cases room with
      | zero => simp [step, place] at stepped
      | succ room =>
          simp only [step, place, Option.some.injEq] at stepped
          exact ⟨_, stepped.symm⟩
  | _ => simp [step, place] at stepped

theorem step_agreed {event : Event} (placed : t.Placed) (counted : t.kcp.cb.Counted)
    (flying : t.kcp.cb.Flying Sent)
    (allowed : ∀ packet, event.Delivers packet → Delivered packet ∧ t.admits packet)
    (agreed : t.Agreed Delivered) (stepped : t.step event = some t') : t'.Agreed Delivered := by
  by_cases delivers : ∃ packet, event.Delivers packet
  · obtain ⟨packet, rfl⟩ := delivers
    obtain ⟨delivered, admitted⟩ := allowed packet rfl
    obtain ⟨pc, rfl⟩ := step_packet stepped
    cases moved : t.kcpInput packet with
    | none => exact agreed
    | some later =>
        have kept := agreed_kcpInput counted flying delivered admitted agreed moved
        exact kept
  · exact (step_moves placed stepped).invariant
      (fun _ _ move => move.agreed fun packet delivered => delivers ⟨packet, delivered⟩) agreed

/-! ## Connecting -/

/-- The state of a task that has not answered or got a SYN reply. -/
def Early (t : Task) : Prop := t.hs = .syn ∨ t.hs = .disconnected

theorem finTransitLoop_disconnected {fuel : Nat} (state : t.hs = .disconnected)
    (moved : finTransitLoop fuel t = some t') : t'.hs = .disconnected := by
  cases fuel with
  | zero =>
      cases moved
      exact state
  | succ fuel =>
      unfold finTransitLoop at moved
      rw [state] at moved
      cases moved
      exact state

/-- The packet has the RESET or the FIN flag. -/
def Flagged (packet : Bytes) : Prop :=
  ∃ cmd, readCmd packet = some cmd ∧ (cmd &&& kcpReset ≠ 0 ∨ cmd &&& kcpFin ≠ 0)

/-- What ends a SYN handshake outside the end of a batch: the loop is given up, the input channel
is found closed, or a flagged packet arrives. -/
def Ends (t : Task) (event : Event) : Prop :=
  t.quits event ∨ t.pc = .inputDone true ∨ ∃ packet, event = .packet packet ∧ Flagged packet

/-- Before its FIN frame a task gives these bytes to the network, or has. -/
def Utters (t : Task) (bytes : Bytes) : Prop := .packet bytes ∈ t.trace ∨ bytes ∈ t.kcp.outputQueue

/-- Nothing new is uttered. -/
def Hushes (t t' : Task) : Prop := ∀ bytes, t'.Utters bytes → t.Utters bytes

theorem hushes_of_same (trace : t'.trace = t.trace)
    (queue : t'.kcp.outputQueue = t.kcp.outputQueue) : t.Hushes t' := by
  intro bytes
  unfold Utters
  rw [trace, queue]
  exact id

theorem hushes_of_extra {extra : List Obs} (trace : t'.trace = t.trace ++ extra)
    (unwired : ∀ bytes, .packet bytes ∉ extra) (queue : t'.kcp.outputQueue = t.kcp.outputQueue) :
    t.Hushes t' := by
  intro bytes
  unfold Utters
  rw [trace, queue, List.mem_append]
  exact Or.imp_left fun member => member.resolve_right (unwired bytes)

theorem kcpRecv_hushes {frame : Option Bytes} (taken : t.kcpRecv = some (frame, t')) : t.Hushes t' := by
  obtain ⟨kcp, ⟨got, _, rfl⟩ | ⟨bytes, got, ⟨_, _, rfl⟩ | ⟨_, _, rfl⟩⟩⟩ := kcpRecv_cases taken
  all_goals
    have queue : kcp.outputQueue = t.kcp.outputQueue := by
      obtain ⟨_, rfl⟩ | ⟨_, _, _, rfl⟩ := Kcp.recvBytes_eq got <;> rfl
  · exact hushes_of_same rfl queue
  · exact hushes_of_extra rfl (by simp) queue
  · exact hushes_of_extra rfl (by simp) queue

/-- A packet that arrives in `Syn`. -/
theorem kcpInput_of_syn {packet : Bytes} (state : t.hs = .syn) (moved : t.kcpInput packet = some t') :
    t'.hs = .syn ∧ t.Hushes t' ∨ t'.hs = .disconnected ∧ Flagged packet := by
  have quiet {kcp : Kcp} {data : Bytes} {result : Except ErrorKind Unit} {before : Kcp}
      (taken : before.input data = some (result, kcp)) : kcp.outputQueue = before.outputQueue := by
    obtain ⟨_, rfl⟩ := Kcp.input_eq taken
    rfl
  obtain ⟨_, kcp, taken, ⟨_, rfl⟩ | ⟨_, _, stray⟩ | ⟨_, cmd, command, flags⟩⟩ := kcpInput_cases moved
  · exact .inl ⟨state, hushes_of_same rfl (quiet taken)⟩
  · obtain rfl | ⟨_, _, _, _, _, again, rfl, _⟩ := synHandshakeInput_cases stray
    · exact .inl ⟨state, hushes_of_same rfl (quiet taken)⟩
    · have first := quiet taken
      have second := quiet again
      exact .inl ⟨state, hushes_of_same rfl (second.trans first)⟩
  · obtain ⟨flagged, rfl⟩ | ⟨_, flagged, noticed⟩ | ⟨_, _, rfl⟩ := flags
    · exact .inr ⟨rfl, cmd, command, .inl flagged⟩
    · obtain ⟨later, _, _, transit, _, rfl⟩ := finInput_eq noticed
      have gone : later.hs = .disconnected := by
        rw [finTransitState, finTransitLoop, hs_noticeFin, state] at transit
        exact finTransitLoop_disconnected rfl transit
      exact .inr ⟨gone, cmd, command, .inr flagged⟩
    · exact .inl ⟨state, hushes_of_same rfl (quiet taken)⟩

theorem processInput_hs {frame : Bytes} (moved : t.processInput frame = some t') :
    t'.hs = t.hs := by
  unfold processInput at moved
  split at moved <;> cases moved <;> rfl

theorem processInput_hushes {frame : Bytes} (moved : t.processInput frame = some t') :
    t.Hushes t' := by
  have queue {frame : Bytes} {kcp : Kcp} {result : Except ErrorKind Nat}
      (sent : t.kcp.send frame = some (result, kcp)) : kcp.outputQueue = t.kcp.outputQueue := by
    rcases Kcp.send_eq sent with ⟨_, rfl⟩ | ⟨_, _, rfl⟩ <;> rfl
  unfold processInput at moved
  split at moved
  · cases moved
  · rename_i sent
    cases moved
    exact hushes_of_extra rfl (by simp [sentRecord]) (queue sent)
  · rename_i sent
    cases moved
    exact hushes_of_extra rfl (by simp) (queue sent)

/-- In `Syn` the packets are fed as they are. -/
theorem hushes_fed {packets : List Bytes} (before : t.hs = .syn)
    (part : packets <+: t.kcp.outputQueue) :
    t.Hushes ({ t with kcp := { t.kcp with outputQueue := [] }, pc := .check }.feed packets) := by
  rintro bytes (recorded | waiting)
  · simp only [feed, before, List.mem_append, List.mem_map, Obs.packet.injEq] at recorded
    obtain earlier | ⟨packet, inside, rfl⟩ := recorded
    · exact .inl earlier
    · exact .inr (part.subset inside)
  · cases waiting

theorem hushes_finish (t : Task) : t.Hushes t.finish := by
  obtain ⟨ticks, resets, only, equal⟩ := finish_eq t
  rw [equal]
  refine hushes_of_extra (List.append_assoc _ _ _) ?_ rfl
  intro bytes member
  rcases List.mem_append.1 member with reset | last
  · obtain ⟨_, other⟩ := only _ reset
    cases other
  · cases List.mem_singleton.1 last

/-- In `Syn`, only the end of a batch leads to `Connected`. Other steps stay in `Syn`, and either
utter nothing new or lead to the top of the loop, or they end the handshake. -/
theorem step_syn {event : Event} (stepped : t.step event = some t') (before : t.hs = .syn) :
    t.pc = .batchDone ∧ t' = t.batchDone ∨
      t'.hs = .syn ∧ (t.Hushes t' ∨ t'.pc = .head) ∨ t'.hs = .disconnected ∧ t.Ends event := by
  have same : t.Hushes t := fun _ => id
  cases transition_of_step stepped with
  | app acted =>
      obtain ⟨_, _, _, rfl | ⟨_, rfl⟩⟩ := app_eq acted
      · exact .inr (.inl ⟨before, .inl same⟩)
      · exact .inr (.inl ⟨before, .inl (hushes_of_extra rfl (by simp) rfl)⟩)
  | fed _ part | broken _ part => exact .inr (.inl ⟨before, .inl (hushes_fed before part)⟩)
  | timeout pc _ late =>
      refine .inr (.inr ⟨rfl, .inl ?_⟩)
      simp [quits, pc, before, lapsed_iff.2 (.inr late)]
  | update | sleep => exact .inr (.inl ⟨before, .inr rfl⟩)
  | frame _ _ _ sent =>
      have hushes := processInput_hushes sent
      exact .inr (.inl ⟨(processInput_hs sent).trans before, .inl hushes⟩)
  | @inputClosed later pc transit =>
      have gone : later.hs = .disconnected := by
        rw [finTransitState, finTransitLoop, before] at transit
        exact finTransitLoop_disconnected rfl transit
      exact .inr (.inr ⟨(hs_kcpFlush later).trans gone, .inr (.inl pc)⟩)
  | inputFlush | held => exact .inr (.inl ⟨(hs_kcpFlush t).trans before, .inr rfl⟩)
  | permit => exact .inr (.inl ⟨before, .inl (hushes_of_extra rfl (by simp) rfl)⟩)
  | @more frame later _ taken =>
      have shown : later.Hushes (later.log (.output (.frame frame))) :=
        hushes_of_extra rfl (by simp) rfl
      exact .inr (.inl ⟨(kcpRecv_hs taken).trans before,
        .inl fun bytes uttered => kcpRecv_hushes taken bytes (shown bytes uttered)⟩)
  | stash _ taken | emptied _ taken =>
      have hushes := kcpRecv_hushes taken
      exact .inr (.inl ⟨(kcpRecv_hs taken).trans before, .inl hushes⟩)
  | packet _ taken =>
      obtain ⟨state, hushes⟩ | ⟨gone, flagged⟩ := kcpInput_of_syn before taken
      · exact .inr (.inl ⟨state, .inl hushes⟩)
      · exact .inr (.inr ⟨gone, .inr (.inr ⟨_, rfl, flagged⟩)⟩)
  | batchDone pc _ equal => exact .inl ⟨pc, equal⟩
  | fetched _ _ taken =>
      exact .inr (.inl ⟨(hs_kcpFlush _).trans ((kcpRecv_hs taken).trans before), .inr rfl⟩)
  | thrown => exact .inr (.inl ⟨before, .inl (hushes_of_extra rfl (by simp) rfl)⟩)
  | finish => exact .inr (.inl ⟨(hs_finish t).trans before, .inl (hushes_finish t)⟩)
  | _ => exact .inr (.inl ⟨before, .inl same⟩)

theorem step_early {event : Event} (stepped : t.step event = some t') (before : t.hs = .syn) :
    t.pc = .batchDone ∧ t' = t.batchDone ∨ t'.Early :=
  (step_syn stepped before).imp_right fun outcome => outcome.imp And.left And.left

/-- Only the end of a batch can connect a task. -/
theorem step_connected {event : Event} (stepped : t.step event = some t') (before : t.hs = .syn)
    (after : t'.hs = .connected) : t.pc = .batchDone ∧ t' = t.batchDone := by
  rcases step_early stepped before with done | syn | disconnected
  · exact done
  · rw [syn] at after
    cases after
  · rw [disconnected] at after
    cases after

/-- A SYN frame with the right session id is the key followed by it. -/
theorem eq_append_of_synSessionId {syn id : Bytes} (valid : t.synSessionId syn = some id) :
    syn = t.cfg.sessionKey ++ id := by
  unfold synSessionId at valid
  dsimp only at valid
  split at valid
  · rename_i starts
    split at valid
    · cases valid
      obtain ⟨rest, rfl⟩ := List.isPrefixOf_iff_prefix.1 starts
      rw [List.drop_left]
    · cases valid
  · cases valid

theorem length_of_synSessionId {syn id : Bytes} (valid : t.synSessionId syn = some id) :
    id.length = t.cfg.sessionIdLen := by
  unfold synSessionId at valid
  dsimp only at valid
  split at valid
  · split at valid
    · rename_i length
      cases valid
      exact length
    · cases valid
  · cases valid

/-- A client that the end of a batch connects has taken its own handshake frame from the
receive queue and reports the conv in force. -/
theorem batchDone_connected (client : t.client) (before : t.hs = .syn)
    (after : t.batchDone.hs = .connected) :
    t.kcp.cb.rcvQueue ≠ [] ∧ payloadOf (takeMessage t.kcp.cb.rcvQueue).1 = t.handshakeFrame ∧
      t.batchDone.kcp.cb.conv = t.kcp.cb.conv ∧ t.batchDone.trace = t.trace ++
        [.recv t.handshakeFrame, .output (.connected t.kcp.cb.conv)] := by
  unfold batchDone at after ⊢
  rw [if_pos before] at after ⊢
  split at after
  · rename_i later received
    obtain ⟨_, taken⟩ | ⟨syn, popped, taken, outcome⟩ := synHandshakeRecv_cases received
    · have state : later.hs = .syn := (kcpRecv_hs taken).trans before
      rw [state] at after
      cases after
    · obtain ⟨kcp, got, _, rfl⟩ := kcpRecv_some taken
      obtain ⟨none, _⟩ | ⟨queued, _, equal, rfl⟩ := Kcp.recvBytes_eq got
      · cases none
      · cases equal
        have conv : (recvMoved t.kcp.cb false).conv = t.kcp.cb.conv := by
          obtain ⟨probe, moved⟩ := recvMoved_eq t.kcp.cb false
          rw [moved]
          rfl
        obtain ⟨failed, _⟩ | ⟨_, valid, connected⟩ | ⟨server, _⟩ := outcome
        · cases failed
        · have frame := eq_append_of_synSessionId valid
          obtain ⟨_, rfl⟩ | ⟨failed, _⟩ := connect_cases connected
          · refine ⟨queued, frame, conv, ?_⟩
            simp only [log, kcpApplyNodelay, Kcp.setNodelay, ikcpNodelay, conv]
            rw [frame]
            simp [handshakeFrame, log]
          · cases failed
        · have server' : t.client = false := server
          rw [client] at server'
          cases server'
  · cases after
  · rw [panic, before] at after
    cases after

end Task

/-- Under the condition on packets, what a client in `Syn` holds was received under the
conv in force. -/
theorem reach_agreed {config : Config} {Delivered : Bytes → Prop} {t : Task}
    (reach : (taskMachine config).Reach (fun t event => ∀ packet, event.Delivers packet →
      Delivered packet ∧ t.admits packet) t) : t.Agreed Delivered := by
  refine reach.invariant (Task.Agreed Delivered) (fun t initial => ?_)
    (fun t event next prior agreed allowed stepped => Task.step_agreed (reach_placed prior)
      (reach_counted prior) (reach_flying prior) allowed agreed stepped)
  obtain ⟨conv, id, fresh, isFresh, moves⟩ := taskMachine_initial .idle initial
  refine moves.invariant (fun _ _ move => move.agreed fun _ delivered => delivered) ?_
  intro _ _ seg member
  rw [Ikcpcb.received, isFresh.empty.rcvQueue, isFresh.empty.rcvBuf] at member
  cases member

/-- A client that becomes connected does so with a SYN reply that is its own handshake
frame. Its conv is then valid, it is the one it reports, and it is the conv of the
delivered packets that carried the reply. -/
theorem conv_of_connected {config : Config} {Delivered : Bytes → Prop} {t t' : Task}
    {event : Event} (reach : (taskMachine config).Reach (fun t event => ∀ packet,
      event.Delivers packet → Delivered packet ∧ t.admits packet) t)
    (stepped : (taskMachine config).step t event = some t') (client : t.client)
    (before : t.hs = .syn) (after : t'.hs = .connected) :
    Kcp.isValidConv t'.kcp.cb.conv ∧
      t'.trace = t.trace ++ [.recv t.handshakeFrame, .output (.connected t'.kcp.cb.conv)] ∧
      ∃ reply, reply ≠ [] ∧ reply <+: t.kcp.cb.rcvQueue ∧ payloadOf reply = t.handshakeFrame ∧
        ∀ seg ∈ reply, seg.conv = t'.kcp.cb.conv ∧
          ∃ packet, Delivered packet ∧ Carries packet seg := by
  obtain ⟨_, rfl⟩ := Task.step_connected stepped before after
  obtain ⟨queued, payload, conv, trace⟩ := Task.batchDone_connected client before after
  have agreed := reach_agreed reach client before
  have starts : (takeMessage t.kcp.cb.rcvQueue).1 <+: t.kcp.cb.rcvQueue :=
    ⟨_, takeMessage_append t.kcp.cb.rcvQueue⟩
  have held {seg : Seg} (member : seg ∈ (takeMessage t.kcp.cb.rcvQueue).1) :
      seg ∈ t.kcp.cb.received := List.mem_append_left _ (starts.subset member)
  have nonempty : (takeMessage t.kcp.cb.rcvQueue).1 ≠ [] := by
    cases queue : t.kcp.cb.rcvQueue with
    | nil => exact absurd queue queued
    | cons seg rest =>
        unfold takeMessage
        split <;> simp
  rw [conv]
  refine ⟨?_, trace, _, nonempty, starts, payload, fun seg member => ?_⟩
  · obtain ⟨seg, member⟩ := List.exists_mem_of_ne_nil _ nonempty
    obtain ⟨same, valid, _⟩ := agreed seg (held member)
    rw [← same]
    exact valid
  · obtain ⟨same, _, packet, delivered, carried⟩ := agreed seg (held member)
    exact ⟨same, packet, delivered, carried⟩

/-- A batch with the SYN reply of conv 1. -/
def replyEvents : List Event :=
  [.drain .sent, .tau, .packet (encodePacket [pushSeg 1 0 1 [7]]), .noPacket]

/-- The same batch with a RESET packet of conv 2 behind the reply. -/
def strayResetEvents : List Event :=
  [.drain .sent, .tau, .packet (encodePacket [pushSeg 1 0 1 [7]]),
    .packet (encodePacket [{ pushSeg 2 0 1 [] with cmd := ikcpCmdAck ||| kcpReset }]), .noPacket]

/-- A client that is only given its reply is connected with the conv of the reply. -/
theorem conv_of_connected_reply : ∃ t t' packet,
    (taskMachine sampleConfig).step t .tau = some t' ∧ t'.hs = .connected ∧
      readConv packet = some t'.kcp.cb.conv ∧ Kcp.isValidConv t'.kcp.cb.conv := by
  have run : (clientRun sampleConfig [7] (fun _ => 0) (fun t event => match event with
      | .packet packet => t.admits packet
      | _ => true) replyEvents).map (fun t => (t.client, t.hs,
        ((taskMachine sampleConfig).step t .tau).map Task.hs)) =
      some (true, .syn, some .connected) := by decide +kernel
  obtain ⟨t, executed, view⟩ := Option.map_eq_some_iff.1 run
  simp only [Prod.mk.injEq, Option.map_eq_some_iff] at view
  obtain ⟨client, before, t', stepped, after⟩ := view
  have reach : (taskMachine sampleConfig).Reach (fun t event => ∀ packet, event.Delivers packet →
      True ∧ t.admits packet) t := by
    refine reach_of_clientRun (fun t event permitted packet delivers => ?_) rfl executed
    cases delivers
    exact ⟨trivial, permitted⟩
  obtain ⟨valid, _, reply, nonempty, _, _, carried⟩ :=
    conv_of_connected reach stepped client before after
  obtain ⟨seg, member⟩ := List.exists_mem_of_ne_nil _ nonempty
  obtain ⟨same, packet, _, read, _⟩ := carried seg member
  exact ⟨t, t', packet, stepped, after, same ▸ read, valid⟩

/-- The RESET packet of another conversation makes the client connect with the conv of
SYN packets. -/
theorem conv_of_connected_stray : ∃ t t', (taskMachine sampleConfig).Reachable t ∧
    (taskMachine sampleConfig).step t .tau = some t' ∧ t.client ∧ t.hs = .syn ∧
      t'.hs = .connected ∧ t.kcp.cb.rcvQueue.map Seg.conv = [1] ∧
      t'.kcp.cb.conv = Kcp.synConv ∧ ¬ Kcp.isValidConv t'.kcp.cb.conv ∧
      .output (.connected Kcp.synConv) ∈ t'.trace := by
  have run : (clientRun sampleConfig [7] (fun _ => 0) (fun _ _ => true) strayResetEvents).map
      (fun t => (decide (t.client ∧ t.hs = .syn ∧ t.kcp.cb.rcvQueue.map Seg.conv = [1]),
        ((taskMachine sampleConfig).step t .tau).map fun t' => (t'.hs, t'.kcp.cb.conv,
          decide (.output (.connected Kcp.synConv) ∈ t'.trace)))) =
      some (true, some (.connected, Kcp.synConv, true)) := by decide +kernel
  obtain ⟨t, executed, view⟩ := Option.map_eq_some_iff.1 run
  simp only [Prod.mk.injEq, Option.map_eq_some_iff, decide_eq_true_eq] at view
  obtain ⟨⟨client, before, queue⟩, t', stepped, after, conv, reported⟩ := view
  refine ⟨t, t', reach_of_clientRun (fun _ _ _ => trivial) rfl executed, stepped, client, before,
    after, queue, conv, ?_, reported⟩
  rw [conv]
  decide

end KcpRs
