import KcpRs.Engine.Input
import KcpRs.Engine.Flush

/-!
# Timers of the engine

`ikcp_check` and `ikcp_update` decide by different data: the first also looks at the
retransmission times of the segments in flight, the second only at `ts_flush`. This
module says what each of them sees (`ikcpCheck_eq_iff`, `ikcpUpdate_idle`,
`ikcpUpdate_due`) and what a flush does to retransmission times
(`not_overdue_ikcpFlush_iff`), as long as the timer fields are in range (`Timed`).
-/

namespace KcpRs

open Lib

/-! ## Clock differences -/

/-- Swapping two times negates their distance, unless they are half the circle apart. -/
theorem itimediff_swap {a b : U32} (apart : -2 ^ 31 < itimediff a b) :
    itimediff b a = - itimediff a b := by
  have left := a.isLt
  have right := b.isLt
  unfold itimediff serialDiff at *
  rw [BitVec.toInt_eq_toNat_cond, BitVec.toNat_sub] at *
  rw [BitVec.toInt_eq_toNat_cond, BitVec.toNat_sub]
  split at apart <;> split <;> omega

/-- Half the circle apart, both distances are the least one. -/
theorem itimediff_half {a b : U32} (apart : itimediff a b = -2 ^ 31) :
    itimediff b a = -2 ^ 31 := by
  have left := a.isLt
  have right := b.isLt
  unfold itimediff serialDiff at *
  rw [BitVec.toInt_eq_toNat_cond, BitVec.toNat_sub] at *
  split at apart <;> split <;> omega

/-- Moving the earlier time forward by a short step shortens the distance. -/
theorem itimediff_add_right {now time step : U32} (reached : 0 ≤ itimediff now time)
    (short : step.toNat < 2 ^ 31) :
    itimediff now (time + step) = itimediff now time - step.toNat := by
  have left := now.isLt
  have right := time.isLt
  unfold itimediff serialDiff at *
  rw [BitVec.toInt_eq_toNat_cond, BitVec.toNat_sub] at *
  rw [BitVec.toInt_eq_toNat_cond, BitVec.toNat_sub, BitVec.toNat_add]
  split at reached <;> split <;> omega

theorem itimediff_add_self (now step : U32) : itimediff (now + step) now = step.toInt :=
  serialDiff_add_left now step

/-- Short distances are read as they are. -/
theorem toInt_of_short {step : U32} (short : step.toNat < 2 ^ 31) : step.toInt = step.toNat := by
  rw [BitVec.toInt_eq_toNat_cond, if_pos (by omega)]

/-! ## The timer fields stay in range -/

theorem toNat_ibound {lower upper : U32} (ordered : lower ≤ upper) (middle : U32) :
    lower.toNat ≤ (ibound lower middle upper).toNat ∧
      (ibound lower middle upper).toNat ≤ upper.toNat := by
  have raised : lower ≤ imax lower middle := by
    unfold imax
    split
    · exact BitVec.le_refl _
    · rename_i less
      exact BitVec.le_of_lt (BitVec.not_le.1 less)
  unfold ibound imin
  split
  · rename_i inside
    exact ⟨raised, inside⟩
  · exact ⟨ordered, le_refl _⟩

/-- The timer fields are among what a flush leaves alone. -/
theorem Ikcpcb.Timed.of_flushKept {kcp kcp' : Ikcpcb} (kept : flushKept kcp' = flushKept kcp)
    (timed : kcp.Timed) : kcp'.Timed := by
  simp only [flushKept, Ikcpcb.settings, FlushKept.mk.injEq, Ikcpcb.Settings.mk.injEq] at kept
  obtain ⟨⟨_, _, _, _, interval, minrto, _⟩, _, _, updated, _, _, rto, _⟩ := kept
  exact ⟨updated.trans timed.updated, by rw [interval]; exact timed.interval, by
    rw [minrto]; exact timed.rxMinrto, by rw [rto]; exact timed.rxRto⟩

theorem Ikcpcb.Timed.ikcpFlush {kcp : Ikcpcb} (timed : kcp.Timed) : (ikcpFlush kcp).1.Timed :=
  timed.of_flushKept (flushKept_ikcpFlush kcp)

theorem Ikcpcb.Timed.ikcpUpdate {kcp : Ikcpcb} (timed : kcp.Timed) (now : U32) :
    (ikcpUpdate kcp now).1.Timed :=
  ikcpUpdate_induct _ (fun _ _ _ holds => ⟨rfl, holds.interval, holds.rxMinrto, holds.rxRto⟩)
    (fun _ holds => holds.ikcpFlush) timed now

/-- An acknowledgement measures a new timeout within its bounds. -/
theorem Ikcpcb.Timed.ikcpUpdateAck {kcp : Ikcpcb} (timed : kcp.Timed) (rtt : Int) :
    (ikcpUpdateAck kcp rtt).Timed := by
  have ordered : kcp.rxMinrto ≤ ikcpRtoMax := by
    have := timed.rxMinrto
    rw [BitVec.le_def]
    simp only [ikcpRtoMax]
    exact this.2.trans (by decide)
  have upper : ikcpRtoMax.toNat = 60000 := rfl
  have bound (middle : U32) := toNat_ibound ordered middle
  exact ⟨timed.updated, timed.interval, timed.rxMinrto, timed.rxMinrto.1.trans (bound _).1,
    (bound _).2.trans_eq upper⟩

theorem Ikcpcb.Timed.ikcpInput {kcp : Ikcpcb} (timed : kcp.Timed) (data : Bytes) :
    (ikcpInput kcp data).2.Timed := by
  have stable : InputStable Ikcpcb.Timed (accepted kcp.conv data.length data) := by
    constructor
    case rtt => exact fun _ rtt holds => holds.ikcpUpdateAck rtt
    case push =>
      intro segment _ _ block holds
      obtain ⟨acklist, equal⟩ := inputPush_eq block segment.1 segment.2
      rw [equal]
      exact ⟨holds.updated, holds.interval, holds.rxMinrto, holds.rxRto⟩
    case shrink =>
      intro block holds
      unfold ikcpShrinkBuf
      split <;> exact ⟨holds.updated, holds.interval, holds.rxMinrto, holds.rxRto⟩
    case ack =>
      intro segment _ _ block holds
      unfold ikcpParseAck
      split <;> exact ⟨holds.updated, holds.interval, holds.rxMinrto, holds.rxRto⟩
    case fastack =>
      intro block sn holds
      unfold ikcpParseFastack
      split <;> exact ⟨holds.updated, holds.interval, holds.rxMinrto, holds.rxRto⟩
    all_goals
      intros
      rename_i holds
      exact ⟨holds.updated, holds.interval, holds.rxMinrto, holds.rxRto⟩
  exact stable.ikcpInput timed

/-! ## What `ikcp_check` and `ikcp_update` see -/

namespace Ikcpcb

/-- `ikcp_update` would flush at `now`: `ts_flush` has passed or is far away. -/
def flushDue (kcp : Ikcpcb) (now : U32) : Prop :=
  0 ≤ itimediff now kcp.tsFlush ∨ itimediff now kcp.tsFlush < -10000

/-- The retransmission time of a segment has passed at `now`. -/
def overdue (now : U32) (seg : Seg) : Prop := itimediff seg.resendts now ≤ 0

instance (kcp : Ikcpcb) (now : U32) : Decidable (kcp.flushDue now) :=
  inferInstanceAs (Decidable (_ ∨ _))

instance (now : U32) (seg : Seg) : Decidable (overdue now seg) :=
  inferInstanceAs (Decidable (_ ≤ _))

end Ikcpcb

/-- The scan of `ikcp_check` stops at an overdue segment, and else finds a positive
time. -/
theorem checkLoop_cases (now : U32) (segs : List Seg) {tmPacket : Int} (positive : 0 < tmPacket) :
    (checkLoop now segs tmPacket = none ∧ ∃ seg ∈ segs, Ikcpcb.overdue now seg) ∨
      (∃ least, checkLoop now segs tmPacket = some least ∧ 0 < least) ∧
        ∀ seg ∈ segs, ¬ Ikcpcb.overdue now seg := by
  induction segs generalizing tmPacket with
  | nil => exact .inr ⟨⟨tmPacket, rfl, positive⟩, by simp⟩
  | cons seg rest inductionHypothesis =>
      unfold checkLoop
      dsimp only
      split
      · rename_i late
        exact .inl ⟨rfl, seg, List.mem_cons_self, late⟩
      · rename_i early
        have positive' : 0 < if itimediff seg.resendts now < tmPacket then
            itimediff seg.resendts now else tmPacket := by
          split <;> omega
        obtain ⟨stopped, other, member, late⟩ | ⟨found, ahead⟩ := inductionHypothesis positive'
        · exact .inl ⟨stopped, other, List.mem_cons_of_mem _ member, late⟩
        · exact .inr ⟨found, List.forall_mem_cons.2 ⟨early, ahead⟩⟩

/-- `ikcp_check` asks for an immediate update exactly when a flush is due or a segment
is overdue. -/
theorem ikcpCheck_eq_iff {kcp : Ikcpcb} (timed : kcp.Timed) (now : U32) :
    ikcpCheck kcp now = now ↔ kcp.flushDue now ∨ ∃ seg ∈ kcp.sndBuf, Ikcpcb.overdue now seg := by
  have interval := timed.interval
  unfold ikcpCheck
  rw [if_neg (by simp [timed.updated])]
  dsimp only
  by_cases due : kcp.flushDue now
  · rw [if_pos]
    · exact iff_of_true rfl (.inl due)
    · split
      · simp
      · rename_i near
        rcases due with reached | far
        · exact reached
        · exact absurd (.inr far) near
  · have later : itimediff now kcp.tsFlush < 0 ∧ -10000 ≤ itimediff now kcp.tsFlush := by
      unfold Ikcpcb.flushDue at due
      omega
    have swapped := itimediff_swap (a := now) (b := kcp.tsFlush) (by omega)
    rw [if_neg (show ¬ (10000 ≤ itimediff now kcp.tsFlush ∨ itimediff now kcp.tsFlush < -10000) by
      omega), if_neg (by omega)]
    obtain ⟨stopped, late⟩ | ⟨⟨least, found, positive⟩, ahead⟩ :=
      @checkLoop_cases now kcp.sndBuf 0x7fffffff (by decide)
    · rw [stopped]
      exact iff_of_true rfl (.inr late)
    · rw [found]
      refine iff_of_false (fun same => ?_) ?_
      · obtain ⟨minimal, equal, positive, short⟩ : ∃ minimal, (if least < itimediff kcp.tsFlush now
            then least else itimediff kcp.tsFlush now) = minimal ∧ 0 < minimal ∧ minimal ≤ 10000 :=
          ⟨_, rfl, by split <;> omega, by split <;> omega⟩
        dsimp only at same
        rw [equal, add_eq_left] at same
        have value := congrArg BitVec.toNat same
        have zero : BitVec.toNat (0 : U32) = 0 := rfl
        split at value
        · omega
        · rw [BitVec.toNat_ofInt] at value
          omega
      · rintro (reached | ⟨seg, member, late⟩)
        · exact due reached
        · exact ahead seg member late

/-- Before its time, an update only sets the clock. -/
theorem ikcpUpdate_idle {kcp : Ikcpcb} (timed : kcp.Timed) {now : U32}
    (early : ¬ kcp.flushDue now) : ikcpUpdate kcp now = ({ kcp with current := now }, []) := by
  have later : itimediff now kcp.tsFlush < 0 ∧ -10000 ≤ itimediff now kcp.tsFlush := by
    unfold Ikcpcb.flushDue at early
    omega
  have slap : updateSlap kcp now = ({ kcp with current := now }, itimediff now kcp.tsFlush) := by
    unfold updateSlap
    simp only [timed.updated, if_true]
    rw [if_neg (by omega)]
  rw [ikcpUpdate, slap]
  exact if_neg (by omega)

/-- When it is due, an update flushes, and the next flush is then ahead. -/
theorem ikcpUpdate_due {kcp : Ikcpcb} (timed : kcp.Timed) {now : U32} (due : kcp.flushDue now) :
    ∃ tsFlush, ikcpUpdate kcp now = ikcpFlush { kcp with current := now, tsFlush } ∧
      ¬ { kcp with current := now, tsFlush }.flushDue now := by
  have interval := timed.interval
  have restart : itimediff now (now + kcp.interval) = - kcp.interval.toNat := by
    have := @itimediff_add_right now now kcp.interval (by simp) (by omega)
    simpa using this
  have ahead {tsFlush : U32} (soon : itimediff now tsFlush < 0)
      (near : -5000 ≤ itimediff now tsFlush) :
      ¬ { kcp with current := now, tsFlush }.flushDue now := by
    simp only [Ikcpcb.flushDue]
    omega
  by_cases far : 10000 ≤ itimediff now kcp.tsFlush ∨ itimediff now kcp.tsFlush < -10000
  · have slap : updateSlap kcp now = ({ kcp with current := now, tsFlush := now }, 0) := by
      unfold updateSlap
      simp only [timed.updated, if_true]
      rw [if_pos far]
    refine ⟨now + kcp.interval, ?_, ahead (by omega) (by omega)⟩
    rw [ikcpUpdate, slap]
    simp only [le_refl, if_true]
    rw [if_neg (by omega)]
  · have reached : 0 ≤ itimediff now kcp.tsFlush := by
      unfold Ikcpcb.flushDue at due
      omega
    have slap : updateSlap kcp now = ({ kcp with current := now }, itimediff now kcp.tsFlush) := by
      unfold updateSlap
      simp only [timed.updated, if_true]
      rw [if_neg far]
    have moved := @itimediff_add_right now kcp.tsFlush kcp.interval reached (by omega)
    rw [ikcpUpdate, slap]
    simp only [reached, if_true]
    split
    · exact ⟨_, rfl, ahead (by omega) (by omega)⟩
    · exact ⟨_, rfl, ahead (by omega) (by omega)⟩

/-! ## Retransmission times after a flush -/

/-- A flush moves segments behind those in flight and has not sent them before. -/
theorem sndBuf_flushMoved (kcp : Ikcpcb) : ∃ fresh, (flushMoved kcp).sndBuf = kcp.sndBuf ++ fresh ∧
    ∀ seg ∈ fresh, seg.xmit = 0 := by
  refine flushMove_induct (fun moved => ∃ fresh, moved.sndBuf = kcp.sndBuf ++ fresh ∧
    ∀ seg ∈ fresh, seg.xmit = 0) ?_ _ _ ⟨[], ?_, by simp⟩
  · rintro block newseg rest - ⟨fresh, equal, unsent⟩
    refine ⟨fresh ++ [_], by simp only [flushTake, equal, List.append_assoc]; rfl, ?_⟩
    intro seg member
    rcases List.mem_append.1 member with earlier | last
    · exact unsent seg earlier
    · rw [List.mem_singleton.1 last]
  · rw [List.append_nil]
    exact congrArg Ikcpcb.Sender.sndBuf (sender_flushProbed kcp)

/-- A flush at `now` gives a segment in flight a retransmission time after `now`: the
timeout it is retransmitted with is positive as a signed number, and one that is left
alone is not half the circle away. -/
def Ikcpcb.rearms (kcp : Ikcpcb) (now : U32) (seg : Seg) : Bool :=
  match resendKind { kcp with current := now } seg with
  | .first => true
  | .lost => 0 < (backoff kcp seg.rto).toInt
  | .fast => 0 < seg.rto.toInt
  | .none => itimediff now seg.resendts ≠ -2 ^ 31

theorem not_overdue_flushVisit {kcp : Ikcpcb} (timed : kcp.Timed) (wnd : BitVec 16) (seg : Seg) :
    ¬ Ikcpcb.overdue kcp.current (flushVisit kcp wnd seg) ↔ kcp.rearms kcp.current seg := by
  have rto := timed.rxRto
  have visited : (flushVisit kcp wnd seg).resendts =
      (reschedule kcp seg (resendKind kcp seg)).resendts := by
    unfold flushVisit
    dsimp only
    split <;> rfl
  rw [Ikcpcb.overdue, visited, not_le]
  unfold Ikcpcb.rearms
  cases kind : resendKind kcp seg with
  | first =>
      refine iff_of_true ?_ rfl
      have shifted : (kcp.rxRto >>> 3).toNat ≤ kcp.rxRto.toNat := by
        rw [BitVec.toNat_ushiftRight]
        exact Nat.shiftRight_le _ _
      have step : (kcp.rxRto + if kcp.nodelay = 0 then kcp.rxRto >>> 3 else 0).toNat =
          kcp.rxRto.toNat + (if kcp.nodelay = 0 then kcp.rxRto >>> 3 else 0).toNat := by
        rw [BitVec.toNat_add, Nat.mod_eq_of_lt]
        split
        · omega
        · have zero : BitVec.toNat (0 : U32) = 0 := rfl
          omega
      have bound : (if kcp.nodelay = 0 then kcp.rxRto >>> 3 else 0).toNat ≤ kcp.rxRto.toNat := by
        split
        · exact shifted
        · exact Nat.zero_le _
      simp only [reschedule]
      rw [BitVec.add_assoc, itimediff_add_self, toInt_of_short (by omega)]
      omega
  | lost =>
      simp only [reschedule, decide_eq_true_eq]
      rw [itimediff_add_self]
  | fast =>
      simp only [reschedule, decide_eq_true_eq]
      rw [itimediff_add_self]
  | none =>
      have early : itimediff kcp.current seg.resendts < 0 := by
        unfold resendKind at kind
        by_contra reached
        rw [not_lt] at reached
        simp only [reached, if_true] at kind
        split at kind <;> cases kind
      simp only [reschedule, decide_eq_true_eq]
      constructor
      · intro ahead half
        have := itimediff_half half
        omega
      · intro apart
        have least : -2 ^ 31 ≤ itimediff kcp.current seg.resendts := by
          have := BitVec.le_toInt (kcp.current - seg.resendts)
          simpa [itimediff, serialDiff] using this
        have := itimediff_swap (a := kcp.current) (b := seg.resendts) (by omega)
        omega

/-- After a flush no segment is overdue exactly when every segment in flight before it
is given a new time. -/
theorem not_overdue_ikcpFlush_iff {kcp : Ikcpcb} (timed : kcp.Timed) :
    (∀ seg ∈ (ikcpFlush kcp).1.sndBuf, ¬ Ikcpcb.overdue kcp.current seg) ↔
      ∀ seg ∈ kcp.sndBuf, kcp.rearms kcp.current seg := by
  obtain ⟨fresh, moved, unsent⟩ := sndBuf_flushMoved kcp
  have kept := flushKept_flushMoved kcp
  have current : (flushMoved kcp).current = kcp.current := congrArg FlushKept.current kept
  have rto : (flushMoved kcp).rxRto = kcp.rxRto := congrArg FlushKept.rxRto kept
  have settings : (flushMoved kcp).settings = kcp.settings := congrArg FlushKept.settings kept
  have nodelay : (flushMoved kcp).nodelay = kcp.nodelay := congrArg Ikcpcb.Settings.nodelay settings
  have fastresend : (flushMoved kcp).fastresend = kcp.fastresend :=
    congrArg Ikcpcb.Settings.fastresend settings
  have timed' : (flushMoved kcp).Timed := timed.of_flushKept kept
  have same (seg : Seg) :
      (flushMoved kcp).rearms kcp.current seg = kcp.rearms kcp.current seg := by
    have kind : resendKind { flushMoved kcp with current := kcp.current } seg =
        resendKind { kcp with current := kcp.current } seg := by
      rw [resendKind, resendKind, resentOf, resentOf, fastresend]
    have timeout : backoff (flushMoved kcp) seg.rto = backoff kcp seg.rto := by
      simp only [backoff, rto, nodelay]
    rw [Ikcpcb.rearms, Ikcpcb.rearms, kind, timeout]
  have visit (seg : Seg) : ¬ Ikcpcb.overdue kcp.current
      (flushVisit (flushMoved kcp) (flushSeg kcp).wnd seg) ↔ kcp.rearms kcp.current seg := by
    rw [← same, ← current]
    exact not_overdue_flushVisit timed' _ seg
  rw [sndBuf_ikcpFlush timed.updated, moved, List.forall_mem_map]
  constructor
  · intro ahead seg member
    exact (visit seg).1 (ahead seg (List.mem_append_left _ member))
  · intro rearmed seg member
    rcases List.mem_append.1 member with flying | new
    · exact (visit seg).2 (rearmed seg flying)
    · refine (visit seg).2 ?_
      simp [Ikcpcb.rearms, resendKind, unsent seg new]

end KcpRs
