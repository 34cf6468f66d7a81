import KcpRs.Stream.Engine

/-!
# Accounting of the frames of an application

Every frame that the application put into the input channel has been passed to
`Kcp::send`, refused by it, dropped by the teardown or is still queued, in the order it
was put there (`Accounted`). A frame of a size that `max_frame_size` allows and that
fits a C integer is never refused (`Kcp.send_ok`).
-/

namespace KcpRs

open Lib Relation

/-- The frame that the application put into the input channel. -/
def Obs.offered : Obs → Option Bytes
  | .accepted frame => some frame
  | _ => none

/-- The frame of the application that `Kcp::send` took. -/
def Obs.sentData : Obs → Option Bytes
  | .send sent => if sent.kind = .data then some sent.frame else none
  | _ => none

/-- The frame taken out of the input channel. -/
def Obs.consumed : Obs → Option Bytes
  | .send sent => if sent.kind = .data then some sent.frame else none
  | .tooBig frame => some frame
  | .drained frame => some frame
  | _ => none

namespace Task

/-- The frames that the application put into the input channel. -/
def offered (t : Task) : List Bytes := t.trace.filterMap Obs.offered

/-- The frames of the application that `Kcp::send` took. -/
def sentData (t : Task) : List Bytes := t.trace.filterMap Obs.sentData

/-- Every frame of the application is accounted for. -/
def Accounted (t : Task) : Prop :=
  t.offered = t.trace.filterMap Obs.consumed ++ t.inputRx.queue

variable {ambient : Ambient} {t t' : Task}

/-- What a move does to the input channel and records about it. -/
theorem Move.channel (move : Move ambient t t') : ∃ extra, t'.trace = t.trace ++ extra ∧
    (t'.inputRx.queue = t.inputRx.queue ∧
        (∀ obs ∈ extra, obs.offered = none ∧ obs.consumed = none) ∨
      (∃ frame, t.inputRx.permit ∧ ambient.Offered frame ∧
        t'.inputRx.queue = t.inputRx.queue ++ [frame] ∧ extra = [.accepted frame]) ∨
      ∃ frame obs, t.inputRx.queue = frame :: t'.inputRx.queue ∧ extra = [obs] ∧
        obs.offered = none ∧ obs.consumed = some frame) := by
  have plain {t' : Task} (extra : List Obs) (trace : t'.trace = t.trace ++ extra)
      (queue : t'.inputRx.queue = t.inputRx.queue)
      (silent : ∀ obs ∈ extra, obs.offered = none ∧ obs.consumed = none) :
      ∃ extra, t'.trace = t.trace ++ extra ∧ (t'.inputRx.queue = t.inputRx.queue ∧
          (∀ obs ∈ extra, obs.offered = none ∧ obs.consumed = none) ∨
        (∃ frame, t.inputRx.permit ∧ ambient.Offered frame ∧
          t'.inputRx.queue = t.inputRx.queue ++ [frame] ∧ extra = [.accepted frame]) ∨
        ∃ frame obs, t.inputRx.queue = frame :: t'.inputRx.queue ∧ extra = [obs] ∧
          obs.offered = none ∧ obs.consumed = some frame) :=
    ⟨extra, trace, .inl ⟨queue, silent⟩⟩
  cases move with
  | app event offered acted =>
      obtain ⟨_, _, _, rfl, queue, _⟩ | ⟨frame, sends, held, rfl⟩ := app_cases acted
      · exact plain [] (by simp) queue (by simp)
      · exact ⟨[.accepted frame], rfl, .inr (.inl ⟨frame, held, offered frame sends, rfl, rfl⟩)⟩
  | sendData queued _ _ _ =>
      exact ⟨[_], rfl, .inr (.inr ⟨_, _, queued, rfl, rfl, rfl⟩)⟩
  | refuse queued _ _ _ =>
      exact ⟨[_], rfl, .inr (.inr ⟨_, _, queued, rfl, rfl, rfl⟩)⟩
  | drained _ queued =>
      exact ⟨[_], rfl, .inr (.inr ⟨_, _, queued, rfl, rfl, rfl⟩)⟩
  | sendSyn => exact plain [_] rfl rfl (by simp [Obs.offered, Obs.consumed, sentRecord])
  | replySyn => exact plain [_] rfl rfl (by simp [Obs.offered, Obs.consumed, sentRecord])
  | sendFin => exact plain [_] rfl rfl (by simp [Obs.offered, Obs.consumed, sentRecord])
  | recv _ taken =>
      obtain ⟨kcp, ⟨_, _, rfl⟩ | ⟨_, _, ⟨_, _, rfl⟩ | ⟨_, _, rfl⟩⟩⟩ := kcpRecv_cases taken
      · exact plain [] (by simp) rfl (by simp)
      · exact plain [_] rfl rfl (by simp [Obs.offered, Obs.consumed])
      · exact plain [_] rfl rfl (by simp [Obs.offered, Obs.consumed])
  | announce => exact plain [_] rfl rfl (by simp [Obs.offered, Obs.consumed])
  | deliver => exact plain [_] rfl rfl (by simp [Obs.offered, Obs.consumed])
  | feed => exact plain _ rfl rfl (by simp [Obs.offered, Obs.consumed])
  | finish =>
      obtain ⟨_, resets, silent, equal⟩ := finish_eq t
      refine plain (resets ++ [.disconnect t.kcp.cb.conv]) (by simp [equal]) (by rw [equal]) ?_
      intro obs member
      rcases List.mem_append.1 member with reset | last
      · obtain ⟨bytes, rfl⟩ := silent obs reset
        exact ⟨rfl, rfl⟩
      · rw [List.mem_singleton.1 last]
        exact ⟨rfl, rfl⟩
  | leave => exact plain [] (by simp [Task.leave]) rfl (by simp)
  | _ => exact plain [] (by simp) rfl (by simp)

theorem Move.accounted (move : Move ambient t t') (holds : t.Accounted) : t'.Accounted := by
  have before : t.trace.filterMap Obs.offered =
      t.trace.filterMap Obs.consumed ++ t.inputRx.queue := holds
  unfold Accounted offered
  obtain ⟨extra, trace, ⟨queue, silent⟩ | ⟨frame, _, _, queue, rfl⟩ |
    ⟨frame, obs, queue, rfl, unoffered, consumed⟩⟩ := move.channel
  · have none : extra.filterMap Obs.offered = [] ∧ extra.filterMap Obs.consumed = [] :=
      ⟨List.filterMap_eq_nil_iff.2 fun obs member => (silent obs member).1,
        List.filterMap_eq_nil_iff.2 fun obs member => (silent obs member).2⟩
    rw [trace, List.filterMap_append, List.filterMap_append, none.1, none.2, queue, before]
    simp
  · rw [trace, List.filterMap_append, List.filterMap_append, before, queue]
    simp [Obs.offered, Obs.consumed]
  · rw [trace, List.filterMap_append, List.filterMap_append, before, queue]
    simp [unoffered, consumed]

/-- The trace only grows. -/
theorem trace_prefix_of_moves (moves : Moves ambient t t') : t.trace <+: t'.trace := by
  induction moves with
  | refl => exact List.prefix_rfl
  | tail _ move inductionHypothesis =>
      obtain ⟨extra, trace, _⟩ := move.channel
      exact inductionHypothesis.trans ⟨extra, trace.symm⟩

/-- Without its stream the application has put nothing into the input channel. -/
def Unheld (t : Task) : Prop :=
  t.hasStream = false → t.inputRx.queue = [] ∧ t.inputRx.permit = false

/-- A stream is not given back. -/
theorem Move.unannounced_before (move : Move ambient t t') (unknown : t'.hasStream = false) :
    t.hasStream = false := by
  rcases move.hasStream with same | ⟨_, _, _, rfl⟩
  · exact same.symm.trans unknown
  · simp [Task.hasStream, log, Obs.connects] at unknown

theorem Move.unheld (move : Move ambient t t') (holds : t.Unheld) : t'.Unheld := by
  intro unknown
  have before := move.unannounced_before unknown
  obtain ⟨queue, permit⟩ := holds before
  have permit' : t'.inputRx.permit = false := by
    cases move with
    | app event _ acted =>
        obtain ⟨inputRx, _, _, rfl, _, _, held⟩ | ⟨frame, _, held, rfl⟩ := app_cases acted
        · cases given : inputRx.permit with
          | false => rfl
          | true =>
              rcases held given with held | stream
              · rw [permit] at held
                cases held
              · rw [before] at stream
                cases stream
        · rfl
    | recv _ taken =>
        obtain ⟨kcp, ⟨_, _, rfl⟩ | ⟨_, _, ⟨_, _, rfl⟩ | ⟨_, _, rfl⟩⟩⟩ := kcpRecv_cases taken <;>
          exact permit
    | finish =>
        obtain ⟨_, _, _, equal⟩ := finish_eq t
        rw [equal]
        exact permit
    | _ => exact permit
  refine ⟨?_, permit'⟩
  obtain ⟨_, _, ⟨same, _⟩ | ⟨_, held, _⟩ | ⟨_, _, taken, _⟩⟩ := move.channel
  · exact same.trans queue
  · rw [permit] at held
    cases held
  · rw [queue] at taken
    cases taken

theorem Fresh.accounted {config : Config} {conv : U32} {id : Bytes} (fresh : Fresh config conv id t) :
    t.Accounted := by
  rw [Accounted, offered, fresh.trace, fresh.inputRx]
  rfl

theorem Fresh.unheld {config : Config} {conv : U32} {id : Bytes} (fresh : Fresh config conv id t) :
    t.Unheld := by
  rw [Unheld, fresh.inputRx]
  exact fun _ => ⟨rfl, rfl⟩

end Task

/-! ## Frames that are never refused -/

/-- A size that `max_frame_size` allows and that fits a C integer. -/
def Config.fits (cfg : Config) (frame : Bytes) : Bool :=
  frame.length ≤ (Kcp.maxFrameSize cfg.mtu).toNat && frame.length < 2 ^ 31

/-- `ikcp_send` accepts a message of at most 255 segments. -/
theorem sendRest_ok {kcp : Ikcpcb} (positive : 0 < kcp.mss) {buffer : Bytes} {len : Nat}
    (fits : len ≤ 255 * kcp.mss) : (sendRest kcp buffer len).1 = 0 := by
  have count := fragmentCount_le positive (by decide) fits
  unfold sendRest
  dsimp only
  rw [if_neg (by simp only [ikcpWndRcv]; omega)]

/-- So it does in streaming mode, where the last segment may be filled up first. -/
theorem ikcpSend_ok {kcp : Ikcpcb} (positive : 0 < kcp.mss) {buffer : Bytes} {len : Int}
    (nonnegative : 0 ≤ len) (fits : len.toNat ≤ 255 * kcp.mss) : (ikcpSend kcp buffer len).1 = 0 := by
  have extended : (sendExtend kcp buffer len.toNat).1.mss = kcp.mss ∧
      (sendExtend kcp buffer len.toNat).2.2 ≤ len.toNat := by
    unfold sendExtend
    split
    · split
      · exact ⟨rfl, Nat.sub_le _ _⟩
      · exact ⟨rfl, le_refl _⟩
    · exact ⟨rfl, le_refl _⟩
  unfold ikcpSend
  rw [if_neg (by omega)]
  split
  · dsimp only
    split
    · rfl
    · obtain ⟨mss, less⟩ := extended
      exact sendRest_ok (positive.trans_eq mss.symm)
        (less.trans (fits.trans (Nat.mul_le_mul_left 255 mss.ge)))
  · exact sendRest_ok positive (by omega)

/-- `Kcp::send` takes every frame that fits. -/
theorem Kcp.send_ok {config : Config} {kcp kcp' : Kcp} (configured : kcp.cb.Configured config)
    {frame : Bytes} (fits : config.fits frame) {result : Except ErrorKind Nat}
    (sent : kcp.send frame = some (result, kcp')) : ∃ size, result = .ok size := by
  simp only [Config.fits, Bool.and_eq_true, decide_eq_true_eq] at fits
  have least := configured.least
  have mss := configured.mss
  obtain ⟨rfl, rfl⟩ | ⟨nonempty, code, _⟩ := Kcp.send_eq sent
  · exact ⟨0, by simpa [Kcp.send] using sent.symm⟩
  · have length : (BitVec.ofNat 32 frame.length).toInt = frame.length := by
      rw [BitVec.toInt_ofNat', Int.bmod_eq_of_le] <;> norm_num <;> omega
    have size : (Kcp.maxFrameSize config.mtu).toNat ≤ 255 * kcp.cb.mss := by
      have payload : (config.mtu - 24).toNat = config.mtu.toNat - 24 := by bv_omega
      have factor : BitVec.toNat (255 : U32) = 255 := rfl
      rw [mss, Kcp.maxFrameSize, BitVec.toNat_mul, payload, factor, Nat.mul_comm]
      exact Nat.mod_le _ _
    rw [ikcpSend_ok (by rw [mss]; simp only [ikcpOverhead]; omega) (by omega) (by rw [length]; omega)]
      at code
    exact ⟨0, (Option.some.inj code).symm⟩

end KcpRs
