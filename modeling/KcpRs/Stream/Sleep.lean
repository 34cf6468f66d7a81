import KcpRs.Stream.Timer

/-!
# How long a task sleeps

`ikcp_check` computes the time of the next update from the retransmission times, the time of the next
flush and the interval, and `run` sleeps until then, or until the deadline of a handshake. It sleeps
exactly as long as nothing is due (`sleep_exact`).
-/

namespace KcpRs

open Lib

/-! ## Clock differences -/

/-- The later time moves away. -/
theorem itimediff_forward {a b : U32} {step : Nat} (near : itimediff a b + step < 2 ^ 31) :
    itimediff (a + BitVec.ofNat 32 step) b = itimediff a b + step := by
  have left := a.isLt
  have right := b.isLt
  unfold itimediff serialDiff at *
  rw [BitVec.toInt_eq_toNat_cond, BitVec.toNat_sub] at *
  rw [BitVec.toInt_eq_toNat_cond, BitVec.toNat_sub, BitVec.toNat_add, BitVec.toNat_ofNat]
  split at near <;> split <;> omega

/-- The earlier time comes closer. -/
theorem itimediff_backward {a b : U32} {step : Nat} (near : -2 ^ 31 ≤ itimediff a b - step) :
    itimediff a (b + BitVec.ofNat 32 step) = itimediff a b - step := by
  have left := a.isLt
  have right := b.isLt
  unfold itimediff serialDiff at *
  rw [BitVec.toInt_eq_toNat_cond, BitVec.toNat_sub] at *
  rw [BitVec.toInt_eq_toNat_cond, BitVec.toNat_sub, BitVec.toNat_add, BitVec.toNat_ofNat]
  split at near <;> split <;> omega

/-! ## The scan of `ikcp_check` -/

/-- The scan finds the least time to a retransmission that is below the limit. -/
theorem checkLoop_some {now : U32} {segs : List Seg} {tmPacket least : Int}
    (found : checkLoop now segs tmPacket = some least) :
    least ≤ tmPacket ∧ (∀ seg ∈ segs, 0 < itimediff seg.resendts now ∧
      least ≤ itimediff seg.resendts now) ∧
        (least = tmPacket ∨ ∃ seg ∈ segs, least = itimediff seg.resendts now) := by
  induction segs generalizing tmPacket with
  | nil =>
      cases found
      exact ⟨le_refl _, List.forall_mem_nil _, .inl rfl⟩
  | cons seg rest inductionHypothesis =>
      simp only [checkLoop] at found
      split at found
      · cases found
      · rename_i ahead
        obtain ⟨most, all, exact⟩ := inductionHypothesis found
        have bound : least ≤ tmPacket ∧ least ≤ itimediff seg.resendts now := by
          split at most <;> omega
        refine ⟨bound.1, List.forall_mem_cons.2 ⟨⟨not_le.1 ahead, bound.2⟩, all⟩, ?_⟩
        rcases exact with limit | ⟨other, member, equal⟩
        · split at limit
          · exact .inr ⟨seg, List.mem_cons_self, limit⟩
          · exact .inl limit
        · exact .inr ⟨other, List.mem_cons_of_mem _ member, equal⟩

/-- Something of the engine is due at `now`: a flush, or a retransmission. -/
def Ikcpcb.due (kcp : Ikcpcb) (now : U32) : Prop :=
  kcp.flushDue now ∨ ∃ seg ∈ kcp.sndBuf, Ikcpcb.overdue now seg

/-- When nothing is due, `ikcp_check` adds the least of the interval, the time to the next flush and
the times to the retransmissions. -/
theorem ikcpCheck_wait {kcp : Ikcpcb} (timed : kcp.Timed) {now : U32} (quiet : ¬ kcp.due now) :
    ∃ (least : Int) (wait : Nat), checkLoop now kcp.sndBuf 0x7fffffff = some least ∧
      ikcpCheck kcp now = now + BitVec.ofNat 32 wait ∧
        (wait : Int) = min (kcp.interval.toNat : Int) (min least (itimediff kcp.tsFlush now)) := by
  have interval := timed.interval
  have later : itimediff now kcp.tsFlush < 0 ∧ -10000 ≤ itimediff now kcp.tsFlush := by
    unfold Ikcpcb.due Ikcpcb.flushDue at quiet
    omega
  have swapped := itimediff_swap (a := now) (b := kcp.tsFlush) (by omega)
  rcases @checkLoop_cases now kcp.sndBuf 0x7fffffff (by decide) with ⟨_, late⟩ |
    ⟨⟨least, found, positive⟩, _⟩
  · exact absurd (.inr late) quiet
  · have choice : (if least < itimediff kcp.tsFlush now then least else itimediff kcp.tsFlush now) =
        min least (itimediff kcp.tsFlush now) := by
      split <;> omega
    obtain ⟨minimal, equal⟩ := Int.eq_ofNat_of_zero_le
      (show 0 ≤ min least (itimediff kcp.tsFlush now) by omega)
    refine ⟨least, min kcp.interval.toNat minimal, found, ?_, by omega⟩
    unfold ikcpCheck
    rw [if_neg (by simp [timed.updated]), found]
    dsimp only
    rw [if_neg (show ¬ (10000 ≤ itimediff now kcp.tsFlush ∨ itimediff now kcp.tsFlush < -10000) by
      omega), if_neg (by omega), choice, equal, BitVec.ofInt_natCast]
    refine congrArg (now + ·) ?_
    have size : (BitVec.ofNat 32 minimal).toNat = minimal := by
      rw [BitVec.toNat_ofNat]
      omega
    split
    · rename_i first
      rw [BitVec.le_def, size] at first
      rw [min_eq_left first, BitVec.ofNat_toNat, BitVec.setWidth_eq]
    · rename_i second
      rw [BitVec.le_def, size] at second
      rw [min_eq_right (Nat.le_of_not_le second)]

/-- The time that `ikcp_check` asks for is the first at which something is due, or an interval away
when nothing is due before. -/
theorem ikcpCheck_exact {kcp : Ikcpcb} (timed : kcp.Timed) (now : U32) :
    (ikcpCheck kcp now - now).toNat ≤ kcp.interval.toNat ∧
      (∀ step < (ikcpCheck kcp now - now).toNat, ¬ kcp.due (now + BitVec.ofNat 32 step)) ∧
        (kcp.due (ikcpCheck kcp now) ∨ (ikcpCheck kcp now - now).toNat = kcp.interval.toNat) := by
  by_cases asked : kcp.due now
  · have same := (ikcpCheck_eq_iff timed now).2 asked
    rw [same, sub_self]
    exact ⟨Nat.zero_le _, fun step early => absurd early (Nat.not_lt_zero _), .inl asked⟩
  · obtain ⟨least, wait, found, check, size⟩ := ikcpCheck_wait timed asked
    have most := (checkLoop_some found).1
    have all := (checkLoop_some found).2.1
    have interval := timed.interval
    have elapsed : (ikcpCheck kcp now - now).toNat = wait := by
      rw [check, add_sub_cancel_left, BitVec.toNat_ofNat]
      omega
    have later : itimediff now kcp.tsFlush < 0 ∧ -10000 ≤ itimediff now kcp.tsFlush := by
      unfold Ikcpcb.due Ikcpcb.flushDue at asked
      omega
    have swapped := itimediff_swap (a := now) (b := kcp.tsFlush) (by omega)
    rw [elapsed]
    refine ⟨by omega, fun step early => ?_, ?_⟩
    · rintro (flush | ⟨seg, member, late⟩)
      · have moved := @itimediff_forward now kcp.tsFlush step (by omega)
        unfold Ikcpcb.flushDue at flush
        omega
      · have ahead := (all seg member).2
        have moved := @itimediff_backward seg.resendts now step (by omega)
        unfold Ikcpcb.overdue at late
        omega
    · rw [check]
      have reached : wait = kcp.interval.toNat ∨ (wait : Int) = itimediff kcp.tsFlush now ∨
          (wait : Int) = least := by
        omega
      rcases reached with whole | flush | packet
      · exact .inr whole
      · have moved := @itimediff_forward now kcp.tsFlush wait (by omega)
        exact .inl (.inl (.inl (by omega)))
      · rcases (checkLoop_some found).2.2 with limit | ⟨seg, member, equal⟩
        · omega
        · have moved := @itimediff_backward seg.resendts now wait (by omega)
          exact .inl (.inr ⟨seg, member, by unfold Ikcpcb.overdue; omega⟩)

/-! ## The sleep of the loop -/

/-- The deadline of a handshake has passed at `now`. -/
def Task.lapsedAt (t : Task) (now : U32) : Prop := t.hs ≠ .connected ∧ (t.hsEndTime - now).toInt ≤ 0

/-- The sleep ends with the time of `ikcp_check` or with the deadline, whichever is first. -/
theorem Task.interval_cases {t : Task} {now : U32} (timed : t.kcp.cb.Timed) :
    (t.interval now).toNat ≤ (t.kcp.check now - now).toNat ∧
      (t.hs ≠ .connected → (t.interval now).toNat ≤ (t.hsEndTime - now).toNat) ∧
        (t.interval now = t.kcp.check now - now ∨
          t.hs ≠ .connected ∧ t.interval now = t.hsEndTime - now) := by
  have short := (ikcpCheck_exact timed now).1
  have interval := timed.interval
  have capped : imin (t.kcp.check now - now) 60000 = t.kcp.check now - now := by
    refine if_pos (BitVec.le_def.2 ?_)
    have limit : (60000 : U32).toNat = 60000 := rfl
    have check : t.kcp.check now = ikcpCheck t.kcp.cb now := rfl
    rw [check]
    omega
  unfold Task.interval
  rw [capped]
  dsimp only
  split
  · rename_i shaking
    unfold imin
    split
    · rename_i first
      exact ⟨le_refl _, fun _ => BitVec.le_def.1 first, .inl rfl⟩
    · rename_i second
      rw [BitVec.le_def] at second
      exact ⟨Nat.le_of_not_le second, fun _ => le_refl _, .inr ⟨shaking, rfl⟩⟩
  · rename_i connected
    exact ⟨le_refl _, fun shaking => absurd shaking connected, .inl rfl⟩

/-- A task sleeps exactly as long as nothing is due. In every reachable state, when `run` sleeps from
`now`, it sleeps for at most the interval of the engine, which is 5 s at most. At any time before it wakes up, an update
would only set the clock and send nothing, `Kcp::check` would not ask for one, and the deadline of a
handshake has not passed. When it wakes up, `Kcp::check` asks for an update at once, the deadline has
passed, or it has slept for a whole interval. -/
theorem sleep_exact {config : Config} {allow : Task → Event → Prop} {t : Task}
    (reach : (taskMachine config).Reach allow t) {now : U32} (ahead : ¬ t.lapsedAt now) :
    ((t.interval now).toNat ≤ t.kcp.cb.interval.toNat ∧ t.kcp.cb.interval.toNat ≤ 5000) ∧
      (∀ step < (t.interval now).toNat,
        let later := now + BitVec.ofNat 32 step
        ikcpUpdate t.kcp.cb later = ({ t.kcp.cb with current := later }, []) ∧
          t.kcp.check later ≠ later ∧ ¬ t.lapsedAt later) ∧
        let wake := now + t.interval now
        t.kcp.check wake = wake ∨ t.lapsedAt wake ∨ t.interval now = t.kcp.cb.interval := by
  have timed := reach_timed reach
  obtain ⟨short, quiet, exact⟩ := ikcpCheck_exact timed now
  obtain ⟨within, before, wakes⟩ := @Task.interval_cases t now timed
  refine ⟨⟨within.trans short, timed.interval.2⟩, fun step early => ?_, ?_⟩
  · have idle := quiet step (early.trans_le within)
    refine ⟨ikcpUpdate_idle timed fun flush => idle (.inl flush), fun asks => ?_, ?_⟩
    · exact idle ((ikcpCheck_eq_iff timed _).1 asks)
    · rintro ⟨shaking, lapsed⟩
      have left := before shaking
      have positive : 0 < (t.hsEndTime - now).toInt :=
        not_le.1 fun passed => ahead ⟨shaking, passed⟩
      have size : itimediff t.hsEndTime now = (t.hsEndTime - now).toNat := by
        rw [BitVec.toInt_eq_toNat_cond] at positive
        rw [itimediff, serialDiff, BitVec.toInt_eq_toNat_cond]
        split at positive <;> split <;> omega
      have moved := @itimediff_backward t.hsEndTime now step (by omega)
      have passed : itimediff t.hsEndTime (now + BitVec.ofNat 32 step) ≤ 0 := lapsed
      omega
  · intro wake
    rcases wakes with check | ⟨shaking, deadline⟩
    · have woken : wake = t.kcp.check now := by
        simp only [wake, check]
        exact add_sub_cancel now _
      rcases exact with asks | whole
      · rw [woken]
        exact .inl ((ikcpCheck_eq_iff timed _).2 asks)
      · exact .inr (.inr (check.trans (BitVec.eq_of_toNat_eq whole)))
    · have woken : wake = t.hsEndTime := by
        simp only [wake, deadline]
        exact add_sub_cancel now _
      refine .inr (.inl ⟨shaking, ?_⟩)
      rw [woken, sub_self]
      decide

/-- A client that has sent its SYN frame at time 0 sleeps until 100. -/
theorem sleep_exact_syn : ∃ t, (taskMachine sampleConfig).Reachable t ∧ t.pc = .select ∧
    t.interval 0 = 100 ∧ ∀ step < 100, t.kcp.check (0 + BitVec.ofNat 32 step) ≠
      0 + BitVec.ofNat 32 step := by
  have run : (clientRun sampleConfig [7] (fun _ => 0) (fun _ _ => true)
      [.drain .sent, .tau]).map (fun t =>
        (t.pc, t.interval 0, decide ((t.hsEndTime - 0).toInt ≤ 0))) =
          some (.select, 100, false) := by decide +kernel
  obtain ⟨t, executed, seen⟩ := Option.map_eq_some_iff.1 run
  have reach : (taskMachine sampleConfig).Reachable t :=
    reach_of_clientRun (fun _ _ _ => trivial) rfl executed
  simp only [Prod.mk.injEq, decide_eq_false_iff_not] at seen
  obtain ⟨pc, sleep, ahead⟩ := seen
  have exact := @sleep_exact _ _ t reach 0 fun lapsed => ahead lapsed.2
  rw [sleep] at exact
  exact ⟨t, reach, pc, sleep, fun step early => (exact.2.1 step early).2.1⟩

end KcpRs
