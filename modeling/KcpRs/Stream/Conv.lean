import KcpRs.Stream.FinFrame
import KcpRs.Stream.Ledger

/-!
# Convs on the wire

Every segment in flight has the conv that the control block holds, so every packet of a
flush carries one conv (`Disciplined`). The conv of a server never changes between two
moves, and that of a client only while it searches for the server's conv; it changes then
only to `SYN_CONV`, under which its SYN frame is in flight, or with nothing in flight.
-/

namespace KcpRs

open Lib Relation

/-- A packet whose segments all have the conv. -/
def OfConv (conv : U32) (packet : Bytes) : Prop :=
  ∃ segs, segs ≠ [] ∧ packet = encodePacket segs ∧
    ∀ seg ∈ segs, seg.conv = conv ∧ seg.data.length < 2 ^ 32

/-- What an observation says about the conv. -/
def Obs.Carries (conv : U32) : Obs → Prop
  | .packet bytes => OfConv conv bytes
  | .reset bytes => readConv bytes = some conv
  | .disconnect reported => reported = conv
  | .output (.connected reported) => reported = conv
  | _ => True

/-- Every segment in flight has the conv of the block. -/
def Ikcpcb.Own (kcp : Ikcpcb) : Prop := ∀ seg ∈ kcp.sndBuf, seg.conv = kcp.conv

theorem Ikcpcb.Own.ikcpFlush {kcp : Ikcpcb} (own : kcp.Own) : (ikcpFlush kcp).1.Own := by
  intro seg member
  rw [conv_ikcpFlush]
  cases updated : kcp.updated with
  | false =>
      rw [KcpRs.ikcpFlush, if_pos updated] at member
      exact own seg member
  | true =>
      have moved : (flushMoved kcp).conv = kcp.conv ∧
          ∀ seg ∈ (flushMoved kcp).sndBuf, seg.conv = kcp.conv := by
        refine flushMove_induct (fun block => block.conv = kcp.conv ∧
          ∀ seg ∈ block.sndBuf, seg.conv = kcp.conv) ?_ _ _ ?_
        · rintro block newseg rest _ ⟨conv, all⟩
          refine ⟨conv, fun seg member => ?_⟩
          rcases List.mem_append.1 member with earlier | last
          · exact all seg earlier
          · rw [List.mem_singleton.1 last]
            exact conv
        · have same : (flushProbed kcp).sndBuf = kcp.sndBuf :=
            congrArg Ikcpcb.Sender.sndBuf (sender_flushProbed kcp)
          refine ⟨congrArg FlushKept.conv (flushKept_flushProbed kcp), ?_⟩
          rw [same]
          exact own
      rw [sndBuf_ikcpFlush updated] at member
      obtain ⟨old, inside, rfl⟩ := List.mem_map.1 member
      exact (flushVisit_kept _ _ old).2.2.2.trans (moved.2 old inside)

theorem Ikcpcb.Own.ikcpUpdate {kcp : Ikcpcb} (own : kcp.Own) (now : U32) :
    (ikcpUpdate kcp now).1.Own :=
  ikcpUpdate_induct _ (fun _ _ _ holds => holds) (fun _ holds => holds.ikcpFlush) own now

theorem Ikcpcb.Own.ikcpInput {kcp : Ikcpcb} (own : kcp.Own) (conv : U32) (data : Bytes) :
    ∀ seg ∈ (KcpRs.ikcpInput { kcp with conv } data).2.sndBuf, seg.conv = kcp.conv := by
  intro seg member
  have convs := (ikcpInput_sndBuf Seg.conv (fun _ _ => rfl) { kcp with conv } data).subset
    (List.mem_map_of_mem member)
  obtain ⟨old, inside, same⟩ := List.mem_map.1 convs
  exact same.symm.trans (own old inside)

/-- What a flush emits from segments of one conv. -/
theorem OfConv.of_emitted {kcp : Ikcpcb} (own : kcp.Own) (sound : kcp.Sound)
    (small : kcp.mss < 2 ^ 32) {una : U32} {acklist : List (U32 × U32)} {packet : Bytes}
    (emitted : ∃ segs, segs ≠ [] ∧ packet = encodePacket segs ∧
      ∀ seg ∈ segs, Emitted kcp.conv una acklist kcp.sndBuf seg) : OfConv kcp.conv packet := by
  obtain ⟨segs, nonempty, equal, good⟩ := emitted
  refine ⟨segs, nonempty, equal, fun seg member => ?_⟩
  obtain ⟨_, inside | ⟨⟨empty, conv⟩, _⟩⟩ := good seg member
  · refine ⟨own seg inside, (sound.sized seg.payload ?_).trans_lt small⟩
    rw [Ikcpcb.pending, List.map_append]
    exact List.mem_append_left _ (List.mem_map_of_mem inside)
  · exact ⟨conv, by simp [empty]⟩

namespace Task

variable {ambient : Ambient} {t t' : Task}

theorem OfConv.stamp {conv : U32} {packet : Bytes} (of : OfConv conv packet) (hs : Handshake) :
    OfConv conv (Task.stamp hs packet) := by
  unfold Task.stamp
  split
  · obtain ⟨segs, nonempty, rfl, convs⟩ := of
    cases segs with
    | nil => exact absurd rfl nonempty
    | cons seg rest =>
        rw [writeCmd_encodePacket]
        refine ⟨_, by simp, rfl, fun other member => ?_⟩
        rcases List.mem_cons.1 member with rfl | later
        · exact convs seg List.mem_cons_self
        · exact convs other (List.mem_cons_of_mem _ later)
  · exact of

/-- The engine holds the conv of what is in flight, and a client that searches for a conv has
its SYN frame in flight under `SYN_CONV` only. -/
structure Owned (t : Task) : Prop where
  counted : t.kcp.cb.Counted
  own : t.kcp.cb.Own
  unannounced : t.Unannounced
  unheld : t.Unheld
  searching : t.client → t.hs = .syn → t.kcp.cb.pending = [] ∨ t.kcp.cb.conv = Kcp.synConv

/-- The side of a task does not change, and its conv only while a client searches. -/
theorem Move.conv (move : Move ambient t t') : t'.client = t.client ∧
    (t'.kcp.cb.conv = t.kcp.cb.conv ∨ t.client ∧ t.hs = .syn ∧ t'.trace = t.trace ∧
      t'.kcp.outputQueue = t.kcp.outputQueue ∧
      (t'.kcp.cb.conv = Kcp.synConv ∨ t'.kcp.getWaitsnd = 0)) := by
  cases move with
  | app event _ acted =>
      obtain ⟨_, _, _, rfl | ⟨_, rfl⟩⟩ := app_eq acted <;> exact ⟨rfl, .inl rfl⟩
  | update now => exact ⟨rfl, .inl (conv_ikcpUpdate _ _)⟩
  | flush => exact ⟨rfl, .inl (conv_ikcpFlush _)⟩
  | sendSyn _ _ _ _ sent => exact ⟨rfl, .inl (Kcp.conv_of_send sent)⟩
  | replySyn _ _ _ _ sent => exact ⟨rfl, .inl (Kcp.conv_of_send sent)⟩
  | sendData _ _ _ sent => exact ⟨rfl, .inl (Kcp.conv_of_send sent)⟩
  | refuse _ _ _ refused => exact ⟨rfl, .inl (Kcp.conv_of_send refused)⟩
  | sendFin _ _ _ _ _ sent => exact ⟨rfl, .inl (Kcp.conv_of_send sent)⟩
  | input _ _ taken => exact ⟨rfl, .inl (Kcp.conv_of_input taken)⟩
  | inputFin _ _ _ _ _ taken => exact ⟨rfl, .inl (Kcp.conv_of_input taken)⟩
  | inputAs back _ _ taken side =>
      rcases side with ⟨client, state, chosen⟩ | ⟨_, same⟩
      · obtain ⟨_, rfl⟩ := Kcp.input_eq taken
        exact ⟨rfl, .inr ⟨client, state, rfl, rfl, chosen⟩⟩
      · exact ⟨rfl, .inl same⟩
  | recv _ taken =>
      obtain ⟨_, _, engine⟩ := kcpRecv_kcp taken
      exact ⟨congrArg Aside.client (kcpRecv_aside taken), .inl (by rw [engine]; rfl)⟩
  | finish =>
      obtain ⟨_, _, _, equal⟩ := finish_eq t
      rw [equal]
      exact ⟨rfl, .inl rfl⟩
  | _ => exact ⟨rfl, .inl rfl⟩

/-- A move back to the SYN handshake there is none. -/
theorem Move.syn (move : Move ambient t t') (state : t'.hs = .syn) : t.hs = .syn := by
  by_contra other
  exact (move.identity.2 other).2 state

/-- After the SYN handshake the conv stays. -/
theorem Moves.conv (moves : Moves ambient t t') (state : t.hs ≠ .syn) :
    t'.hs ≠ .syn ∧ t'.kcp.cb.conv = t.kcp.cb.conv := by
  induction moves with
  | refl => exact ⟨state, rfl⟩
  | tail _ move inductionHypothesis =>
      obtain ⟨later, same⟩ := inductionHypothesis
      refine ⟨(move.identity.2 later).2, ?_⟩
      obtain ⟨_, kept | ⟨_, syn, _⟩⟩ := move.conv
      · exact kept.trans same
      · exact absurd syn later

theorem Move.own (move : Move ambient t t') (inv : t.Owned) : t'.kcp.cb.Own := by
  have own := inv.own
  have sent {kcp : Kcp} {data : Bytes} {result : Except ErrorKind Nat}
      (sent : t.kcp.send data = some (result, kcp)) : kcp.cb.Own := by
    obtain ⟨_, rfl⟩ | ⟨_, _, rfl⟩ := Kcp.send_eq sent
    · exact own
    · obtain ⟨queue, count, equal⟩ := ikcpSend_queue t.kcp.cb data (BitVec.ofNat 32 data.length).toInt
      rw [equal]
      exact own
  have input {packet : Bytes} {result : Except ErrorKind Unit} {kcp : Kcp}
      (taken : t.kcp.input packet = some (result, kcp)) : kcp.cb.Own := by
    intro seg member
    have conv := Kcp.conv_of_input taken
    obtain ⟨_, rfl⟩ := Kcp.input_eq taken
    exact (own.ikcpInput t.kcp.cb.conv packet seg member).trans conv.symm
  cases move with
  | app event _ acted =>
      obtain ⟨_, _, _, rfl | ⟨_, rfl⟩⟩ := app_eq acted <;> exact own
  | update now => exact own.ikcpUpdate now
  | flush => exact own.ikcpFlush
  | sendSyn _ _ _ _ accepted => exact sent accepted
  | replySyn _ _ _ _ accepted => exact sent accepted
  | sendData _ _ _ accepted => exact sent accepted
  | refuse _ _ _ refused => exact sent refused
  | sendFin _ _ _ _ _ accepted => exact sent accepted
  | input _ _ taken => exact input taken
  | inputFin _ _ _ _ _ taken => exact input taken
  | @inputAs packet conv back result kcp _ _ taken side =>
      have buffered : ∀ seg ∈ kcp.cb.sndBuf, seg.conv = t.kcp.cb.conv := by
        obtain ⟨_, rfl⟩ := Kcp.input_eq taken
        exact own.ikcpInput conv packet
      have counted : kcp.cb.Counted := engineStable_counted.kcpInput taken
        (engineStable_counted.conv _ _ inv.counted)
      have shorter : kcp.cb.pending.Sublist t.kcp.cb.pending := by
        obtain ⟨_, rfl⟩ := Kcp.input_eq taken
        exact pending_ikcpInput (t.kcp.setConv conv).cb packet
      have none (settled : kcp.cb.pending = []) : (kcp.setConv back).cb.Own := by
        intro seg member
        have empty := (List.map_eq_nil_iff.1 settled)
        rw [List.append_eq_nil_iff] at empty
        rw [show (kcp.setConv back).cb.sndBuf = kcp.cb.sndBuf from rfl, empty.1] at member
        cases member
      rcases side with ⟨client, state, rfl | settled⟩ | ⟨_, same⟩
      · rcases inv.searching client state with empty | conv
        · rw [empty] at shorter
          exact none (List.sublist_nil.1 shorter)
        · exact fun seg member => (buffered seg member).trans conv
      · exact none (List.length_eq_zero_iff.1 (counted.waitsnd.symm.trans settled))
      · exact fun seg member => (buffered seg member).trans same.symm
  | recv _ taken =>
      obtain ⟨_, _, engine⟩ := kcpRecv_kcp taken
      rw [engine]
      exact own
  | finish =>
      obtain ⟨_, _, _, equal⟩ := finish_eq t
      rw [equal]
      exact own
  | _ => exact own

theorem Move.owned (move : Move ambient t t') (inv : t.Owned) : t'.Owned where
  counted := engineStable_counted.move move inv.counted
  own := move.own inv
  unannounced := move.unannounced inv.unannounced
  unheld := move.unheld inv.unheld
  searching client state := by
    have before : t.client := move.conv.1 ▸ client
    have syn := move.syn state
    have counted := engineStable_counted.move move inv.counted
    rcases move.conv.2 with same | ⟨_, _, _, _, searching | settled⟩
    · rw [same]
      rcases move.pending with shorter | ⟨_, searching, _⟩ | ⟨queued, _⟩ | ⟨pending, _⟩
      · refine (inv.searching before syn).imp_left fun empty => ?_
        rw [empty] at shorter
        exact List.sublist_nil.1 shorter
      · exact .inr (searching before)
      · exact absurd (inv.unheld (inv.unannounced syn)).1 queued
      · rw [syn] at pending
        cases pending
    · exact .inr searching
    · exact .inl (List.length_eq_zero_iff.1 (counted.waitsnd.symm.trans settled))

/-- Everything that has been or will be given to the transport carries one conv, on a server
its own. -/
structure Disciplined (t : Task) : Prop extends Owned t where
  sound : t.kcp.cb.Sound
  configured : t.kcp.cb.Configured t.cfg
  queue : ∀ packet ∈ t.kcp.outputQueue,
    ∃ conv, (t.client = false → conv = t.kcp.cb.conv) ∧ OfConv conv packet
  recorded : ∀ obs ∈ t.trace,
    ∃ conv, (t.client = false → conv = t.kcp.cb.conv) ∧ obs.Carries conv

theorem readConv_writeAckHead (kcp : Kcp) (flags : Byte) (size : Nat) (now : U32) :
    readConv (kcp.writeAckHead flags size now) = some kcp.cb.conv := by
  have long : ikcpOverhead ≤ (kcp.writeAckHead flags size now).length := by
    simp [Kcp.writeAckHead, ikcpOverhead]
  rw [readConv, if_pos long]
  exact congrArg some (or_bytes kcp.cb.conv)

/-- What a move gives to the output queue and records. -/
theorem Move.wire (move : Move ambient t t') (inv : t.Disciplined) :
    (t'.kcp.outputQueue = [] ∨ ∃ packets, t'.kcp.outputQueue = t.kcp.outputQueue ++ packets ∧
      ∀ packet ∈ packets, OfConv t.kcp.cb.conv packet) ∧
    ∃ extra, t'.trace = t.trace ++ extra ∧ ∀ obs ∈ extra, obs.Carries t.kcp.cb.conv ∨
      ∃ packet ∈ t.kcp.outputQueue, obs = .packet (Task.stamp t.hs packet) := by
  have silent {t' : Task} (queue : t'.kcp.outputQueue = t.kcp.outputQueue) (extra : List Obs)
      (trace : t'.trace = t.trace ++ extra) (carries : ∀ obs ∈ extra, obs.Carries t.kcp.cb.conv) :
      (t'.kcp.outputQueue = [] ∨ ∃ packets, t'.kcp.outputQueue = t.kcp.outputQueue ++ packets ∧
        ∀ packet ∈ packets, OfConv t.kcp.cb.conv packet) ∧
      ∃ extra, t'.trace = t.trace ++ extra ∧ ∀ obs ∈ extra, obs.Carries t.kcp.cb.conv ∨
        ∃ packet ∈ t.kcp.outputQueue, obs = .packet (Task.stamp t.hs packet) :=
    ⟨.inr ⟨[], by simpa using queue, by simp⟩, extra, trace,
      fun obs member => .inl (carries obs member)⟩
  have sent {data : Bytes} {result : Except ErrorKind Nat} {kcp : Kcp}
      (accepted : t.kcp.send data = some (result, kcp)) :
      kcp.outputQueue = t.kcp.outputQueue := by
    obtain ⟨_, rfl⟩ | ⟨_, _, rfl⟩ := Kcp.send_eq accepted <;> rfl
  have input {kcp kcp' : Kcp} {packet : Bytes} {result : Except ErrorKind Unit}
      (taken : kcp.input packet = some (result, kcp')) : kcp'.outputQueue = kcp.outputQueue := by
    obtain ⟨_, rfl⟩ := Kcp.input_eq taken
    rfl
  have small : t.kcp.cb.mss < 2 ^ 32 := by
    have mss := inv.configured.mss
    have most := inv.configured.most
    omega
  cases move with
  | app event _ acted =>
      obtain ⟨_, _, _, rfl | ⟨_, rfl⟩⟩ := app_eq acted
      · exact silent rfl [] (by simp) (by simp)
      · exact silent rfl [_] rfl (by simp [Obs.Carries])
  | update now =>
      refine ⟨.inr ⟨_, rfl, fun packet member => ?_⟩, [], by simp, by simp⟩
      have conv := conv_ikcpUpdate t.kcp.cb now
      have own := inv.own.ikcpUpdate now
      have sound := engineStable_sound.update _ now inv.sound
      have mss : (ikcpUpdate t.kcp.cb now).1.mss = t.kcp.cb.mss :=
        congrArg Ikcpcb.Settings.mss (settings_ikcpUpdate t.kcp.cb now)
      have emitted := packet_ikcpUpdate member
      rw [← conv] at emitted ⊢
      exact OfConv.of_emitted own sound (mss ▸ small) emitted
  | flush =>
      refine ⟨.inr ⟨_, rfl, fun packet member => ?_⟩, [], by simp, by simp⟩
      have conv := conv_ikcpFlush t.kcp.cb
      have mss : (ikcpFlush t.kcp.cb).1.mss = t.kcp.cb.mss :=
        congrArg Ikcpcb.Settings.mss (settings_ikcpFlush t.kcp.cb)
      have emitted := packet_ikcpFlush member
      rw [← conv] at emitted ⊢
      exact OfConv.of_emitted inv.own.ikcpFlush inv.sound.ikcpFlush (mss ▸ small) emitted
  | sendSyn _ _ _ _ accepted => exact silent (sent accepted) [_] rfl (by simp [Obs.Carries, sentRecord])
  | replySyn _ _ _ _ accepted => exact silent (sent accepted) [_] rfl (by simp [Obs.Carries, sentRecord])
  | sendData _ _ _ accepted => exact silent (sent accepted) [_] rfl (by simp [Obs.Carries, sentRecord])
  | sendFin _ _ _ _ _ accepted =>
      exact silent (sent accepted) [_] rfl (by simp [Obs.Carries, sentRecord])
  | refuse _ _ _ refused => exact silent (sent refused) [_] rfl (by simp [Obs.Carries])
  | input _ _ taken => exact silent (input taken) [] (by simp) (by simp)
  | inputFin _ _ _ _ _ taken => exact silent (input taken) [] (by simp) (by simp)
  | inputAs back _ _ taken _ =>
      have same := input taken
      exact silent same [] (by simp) (by simp)
  | recv _ taken =>
      have same := kcpRecv_outputQueue taken
      obtain ⟨kcp, ⟨_, _, rfl⟩ | ⟨_, _, ⟨_, _, rfl⟩ | ⟨_, _, rfl⟩⟩⟩ := kcpRecv_cases taken
      · exact silent same [] (by simp) (by simp)
      · exact silent same [_] rfl (by simp [Obs.Carries])
      · exact silent same [_] rfl (by simp [Obs.Carries])
  | announce => exact silent rfl [_] rfl (by simp [Obs.Carries])
  | deliver => exact silent rfl [_] rfl (by simp [Obs.Carries])
  | drained => exact silent rfl [_] rfl (by simp [Obs.Carries])
  | feed taken =>
      refine ⟨.inl rfl, _, rfl, fun obs member => .inr ?_⟩
      obtain ⟨packet, inside, rfl⟩ := List.mem_map.1 member
      exact ⟨packet, taken.subset inside, rfl⟩
  | finish =>
      obtain ⟨_, resets, known, equal⟩ := finish_eq t
      refine silent (by rw [equal]) (resets ++ [.disconnect t.kcp.cb.conv]) (by simp [equal]) ?_
      intro obs member
      rcases List.mem_append.1 member with reset | last
      · obtain ⟨now, rfl⟩ := known obs reset
        exact readConv_writeAckHead t.kcp kcpReset 0 now
      · rw [List.mem_singleton.1 last]
        rfl
  | leave => exact silent rfl [] (by simp [Task.leave]) (by simp)
  | _ => exact silent rfl [] (by simp) (by simp)

/-- A server keeps its conv. -/
theorem Move.conv_of_server (move : Move ambient t t') (server : t'.client = false) :
    t.client = false ∧ t'.kcp.cb.conv = t.kcp.cb.conv := by
  obtain ⟨side, same | ⟨client, _⟩⟩ := move.conv
  · exact ⟨side ▸ server, same⟩
  · rw [side, client] at server
    cases server

theorem Move.disciplined (move : Move ambient t t') (inv : t.Disciplined) : t'.Disciplined := by
  obtain ⟨queue, extra, trace, records⟩ := move.wire inv
  have kept {Holds : U32 → Prop}
      (before : ∃ conv, (t.client = false → conv = t.kcp.cb.conv) ∧ Holds conv) :
      ∃ conv, (t'.client = false → conv = t'.kcp.cb.conv) ∧ Holds conv := by
    obtain ⟨conv, own, holds⟩ := before
    refine ⟨conv, fun server => ?_, holds⟩
    obtain ⟨before, same⟩ := move.conv_of_server server
    exact (own before).trans same.symm
  have fresh {Holds : U32 → Prop} (holds : Holds t.kcp.cb.conv) :
      ∃ conv, (t'.client = false → conv = t'.kcp.cb.conv) ∧ Holds conv :=
    kept ⟨_, fun _ => rfl, holds⟩
  refine ⟨move.owned inv.toOwned, engineStable_sound.move move inv.sound, ?_, ?_, ?_⟩
  · rw [move.identity.1]
    exact (engineStable_configured t.cfg).move move inv.configured
  · intro packet member
    rcases queue with empty | ⟨packets, equal, of⟩
    · rw [empty] at member
      cases member
    · rw [equal] at member
      rcases List.mem_append.1 member with earlier | later
      · exact kept (inv.queue packet earlier)
      · exact fresh (of packet later)
  · intro obs member
    rw [trace] at member
    rcases List.mem_append.1 member with earlier | later
    · exact kept (inv.recorded obs earlier)
    · rcases records obs later with carries | ⟨packet, inside, rfl⟩
      · exact fresh carries
      · obtain ⟨conv, own, of⟩ := inv.queue packet inside
        exact kept ⟨conv, own, OfConv.stamp of t.hs⟩

theorem Fresh.disciplined {config : Config} {conv : U32} {id : Bytes}
    (fresh : Fresh config conv id t) : t.Disciplined where
  counted := fresh.empty.counted
  own := by simp [Ikcpcb.Own, fresh.empty.sndBuf]
  unannounced := fresh.unannounced
  unheld := fresh.unheld
  searching _ _ := .inl fresh.empty.pending
  sound := fresh.empty.sound
  configured := fresh.cfg ▸ fresh.configured
  queue := by simp [fresh.outputQueue]
  recorded := by simp [fresh.trace]

end Task

/-! ## Runs -/

/-- A run of a server is a run of a task. -/
theorem reach_of_server {config : Config} {conv : U32} {allow : Task → Event → Prop} {t : Task}
    (reach : (serverMachine config conv).Reach allow t) : (taskMachine config).Reach allow t := by
  induction reach with
  | initial valid => exact .initial (.inr ⟨conv, valid⟩)
  | step _ allowed transition inductionHypothesis =>
      exact .step inductionHypothesis allowed transition

/-- What holds of fresh servers for `conv` and is kept by every move holds of every reachable
server. -/
theorem server_invariant {config : Config} {conv : U32} {allow : Task → Event → Prop}
    (Invariant : Task → Prop)
    (fresh : ∀ t, Task.Fresh config conv [] t → t.client = false → Invariant t)
    (move : ∀ ambient t t', Task.Move ambient t t' → Invariant t → Invariant t') {t : Task}
    (reach : (serverMachine config conv).Reach allow t) : Invariant t := by
  refine reach.invariant Invariant (fun t initial => ?_)
    (fun t event next prior holds _ stepped => ?_)
  · obtain ⟨valid, clock, started⟩ := initial
    obtain ⟨first, isFresh, moves⟩ :
        ∃ first, Task.Fresh config conv [] first ∧ Task.Moves .idle first t := Task.start_moves started
    have server : first.client = false := by
      rw [isFresh.client]
      refine decide_eq_false fun same => ?_
      rw [same] at valid
      exact absurd valid (by decide)
    exact moves.invariant (move _) (fresh _ isFresh server)
  · exact (Task.step_moves (reach_placed (reach_of_server prior)) stepped).invariant (move _) holds

theorem reach_disciplined {config : Config} {allow : Task → Event → Prop} {t : Task}
    (reach : (taskMachine config).Reach allow t) : t.Disciplined :=
  reach_invariant (fun _ _ _ fresh => fresh.disciplined) (fun _ _ _ move => move.disciplined) reach

/-- A server keeps the conv given to `accept`. -/
theorem server_conv {config : Config} {conv : U32} {allow : Task → Event → Prop} {t : Task}
    (reach : (serverMachine config conv).Reach allow t) :
    t.client = false ∧ t.kcp.cb.conv = conv := by
  refine server_invariant (fun t => t.client = false ∧ t.kcp.cb.conv = conv)
    (fun t fresh server => ⟨server, fresh.conv⟩) (fun _ t t' move holds => ?_) reach
  obtain ⟨side, same | ⟨client, _⟩⟩ := move.conv
  · exact ⟨side.trans holds.1, same.trans holds.2⟩
  · rw [holds.1] at client
    cases client

/-- What a server does carries its conv. -/
theorem server_carries {config : Config} {conv : U32} {allow : Task → Event → Prop} {t : Task}
    (reach : (serverMachine config conv).Reach allow t) : ∀ obs ∈ t.trace, obs.Carries conv := by
  obtain ⟨server, same⟩ := server_conv reach
  intro obs member
  obtain ⟨other, own, carries⟩ := (reach_disciplined (reach_of_server reach)).recorded obs member
  rw [own server, same] at carries
  exact carries

/-- Conv discipline on the wire. Every segment in flight has the conv of the block and every
packet fed to the transport carries one conv; a server's packets, its RESET packet and
its reports carry the conv given to `accept`; and a client that has left `Syn` keeps its
conv. -/
theorem conv_on_wire (config : Config) :
    (∀ t, (taskMachine config).Reachable t → (∀ seg ∈ t.kcp.cb.sndBuf, seg.conv = t.kcp.cb.conv) ∧
      ∀ bytes, .packet bytes ∈ t.trace → ∃ conv, OfConv conv bytes) ∧
    (∀ conv t, (serverMachine config conv).Reachable t → t.kcp.cb.conv = conv ∧
      ∀ obs ∈ t.trace, obs.Carries conv) ∧
    ∀ t event t', (taskMachine config).Reachable t → t.client → t.hs ≠ .syn →
      t.step event = some t' → t'.kcp.cb.conv = t.kcp.cb.conv := by
  refine ⟨fun t reach => ?_, fun conv t reach => ?_, fun t event t' reach client state stepped => ?_⟩
  · have inv := reach_disciplined reach
    refine ⟨inv.own, fun bytes member => ?_⟩
    obtain ⟨conv, _, carries⟩ := inv.recorded _ member
    exact ⟨conv, carries⟩
  · obtain ⟨server, same⟩ := server_conv reach
    have inv := reach_disciplined (reach_of_server reach)
    refine ⟨same, fun obs member => ?_⟩
    obtain ⟨other, own, carries⟩ := inv.recorded obs member
    rw [own server, same] at carries
    exact carries
  · exact (Task.Moves.conv (Task.step_moves (reach_placed reach) stepped) state).2

/-- A trace that ends with a packet, a RESET packet and the report of a conversation over. -/
def lastWords : List Obs → Option (Bytes × Bytes × U32)
  | [.packet packet, .reset reset, .disconnect conv] => some (packet, reset, conv)
  | _ => none

theorem lastWords_eq_some {obs : List Obs} {packet reset : Bytes} {conv : U32}
    (said : lastWords obs = some (packet, reset, conv)) :
    obs = [.packet packet, .reset reset, .disconnect conv] := by
  unfold lastWords at said
  split at said
  · cases said
    rfl
  · cases said

/-- A server that is told to close: what it sends, its RESET packet and its report. -/
theorem conv_on_wire_server : ∃ t packet reset before, (serverMachine sampleConfig 5).Reachable t ∧
    t.trace = before ++ [.packet packet, .reset reset, .disconnect 5] ∧ OfConv 5 packet ∧
      readConv reset = some 5 := by
  have run : ((Task.start sampleConfig 5 [] fun _ => 0).bind fun t =>
      (serverMachine sampleConfig 5).exec (fun _ _ => true) t
        [.drain .sent, .tau, .packet (encodePacket [pushSeg Kcp.synConv 0 0 [7]]), .noPacket, .tau,
          .tau, .app .closeSender, .app .cancel, .app .closeOutput, .drain .sent, .tau, .cancelled,
          .tau]).map (fun t => (lastWords (t.trace.drop 3)).any (·.2.2 = 5)) = some true := by
    decide +kernel
  obtain ⟨t, executed, view⟩ := Option.map_eq_some_iff.1 run
  obtain ⟨first, started, executed⟩ := Option.bind_eq_some_iff.1 executed
  have reach : (serverMachine sampleConfig 5).Reachable t :=
    Machine.reach_of_exec (fun _ _ _ => trivial) (.initial ⟨by decide, _, started⟩) executed
  have carries := ((conv_on_wire sampleConfig).2.1 5 t reach).2
  obtain ⟨⟨packet, reset, conv⟩, said, five⟩ := (Option.any_eq_true _ _).1 view
  obtain rfl : conv = 5 := of_decide_eq_true five
  have trace := (List.take_append_drop 3 t.trace).symm
  rw [lastWords_eq_some said] at trace
  have of (obs : Obs) (member : obs ∈ [.packet packet, .reset reset, .disconnect 5]) :
      obs.Carries 5 := by
    apply carries obs
    rw [trace]
    exact List.mem_append_right _ member
  exact ⟨t, packet, reset, _, reach, trace, of (.packet packet) (by simp), of (.reset reset) (by simp)⟩

end KcpRs
