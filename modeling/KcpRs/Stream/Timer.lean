import KcpRs.Engine.Timer
import KcpRs.Stream.Engine

/-!
# The timer branch of the loop

When `Kcp::check` asks for an immediate update, `run` calls `Kcp::update` and goes on
without waiting. Whether it can do so twice at one clock value is decided by the block
before the update (`check_after_update_iff`).
-/

namespace KcpRs

open Lib

/-- The timer fields of every reachable task are in range. -/
theorem engineStable_timed : EngineStable Ikcpcb.Timed where
  update _ now timed := timed.ikcpUpdate now
  flush _ timed := timed.ikcpFlush
  send kcp data len timed := by
    obtain ⟨queue, count, equal⟩ := ikcpSend_queue kcp data len
    rw [equal]
    exact ⟨timed.updated, timed.interval, timed.rxMinrto, timed.rxRto⟩
  input _ data timed := timed.ikcpInput data
  recv kcp timed := by
    obtain ⟨probe, equal⟩ := recvMoved_eq kcp false
    rw [equal]
    exact ⟨timed.updated, timed.interval, timed.rxMinrto, timed.rxRto⟩
  nodelay _ _ _ _ _ timed := timed.ikcpNodelay _ _ _ _
  conv _ _ timed := ⟨timed.updated, timed.interval, timed.rxMinrto, timed.rxRto⟩

theorem reach_timed {config : Config} {allow : Task → Event → Prop} {t : Task}
    (reach : (taskMachine config).Reach allow t) : t.kcp.cb.Timed :=
  engineStable_timed.reach (fun _ _ timed _ => timed) reach

/-- An update at `now` leaves nothing that asks for another one: without a flush that is
due nothing is overdue, and a flush that is due rearms every segment in flight. -/
def Ikcpcb.Advances (kcp : Ikcpcb) (now : U32) : Prop :=
  if kcp.flushDue now then ∀ seg ∈ kcp.sndBuf, kcp.rearms now seg
  else ∀ seg ∈ kcp.sndBuf, ¬ Ikcpcb.overdue now seg

instance (kcp : Ikcpcb) (now : U32) : Decidable (kcp.Advances now) :=
  inferInstanceAs (Decidable (if kcp.flushDue now then ∀ seg ∈ kcp.sndBuf, kcp.rearms now seg
    else ∀ seg ∈ kcp.sndBuf, ¬ Ikcpcb.overdue now seg))

/-- Whether two immediate updates follow each other is decided before the first. -/
theorem ikcpCheck_ikcpUpdate_iff {kcp : Ikcpcb} (timed : kcp.Timed) (now : U32) :
    (ikcpCheck kcp now = now → ikcpCheck (ikcpUpdate kcp now).1 now ≠ now) ↔ kcp.Advances now := by
  have timed' := timed.ikcpUpdate now
  rw [ikcpCheck_eq_iff timed, ne_eq, ikcpCheck_eq_iff timed']
  unfold Ikcpcb.Advances
  split
  · rename_i due
    obtain ⟨tsFlush, updated, ahead⟩ := ikcpUpdate_due timed due
    have timed'' : { kcp with current := now, tsFlush }.Timed :=
      ⟨timed.updated, timed.interval, timed.rxMinrto, timed.rxRto⟩
    have rearmed := not_overdue_ikcpFlush_iff timed''
    have later : ¬ (ikcpUpdate kcp now).1.flushDue now := by
      rw [updated]
      simpa [Ikcpcb.flushDue] using ahead
    rw [updated] at later ⊢
    rw [← show (∀ seg ∈ kcp.sndBuf, { kcp with current := now, tsFlush }.rearms now seg) ↔
      (∀ seg ∈ kcp.sndBuf, kcp.rearms now seg) from Iff.rfl, ← rearmed]
    constructor
    · intro progress seg member late
      exact progress (.inl due) (.inr ⟨seg, member, late⟩)
    · rintro none - (again | ⟨seg, member, late⟩)
      · exact later again
      · exact none seg member late
  · rename_i early
    rw [ikcpUpdate_idle timed early]
    constructor
    · intro progress seg member late
      exact progress (.inr ⟨seg, member, late⟩) (.inr ⟨seg, member, late⟩)
    · rintro none - (again | ⟨seg, member, late⟩)
      · exact early again
      · exact none seg member late

theorem imin_eq_zero_iff {a b : U32} (positive : 0 < b.toNat) : imin a b = 0 ↔ a = 0 := by
  unfold imin
  split
  · exact Iff.rfl
  · rename_i greater
    refine iff_of_false ?_ ?_
    · rintro rfl
      exact absurd positive (by decide)
    · rintro rfl
      exact greater (BitVec.le_def.2 (Nat.zero_le _))

/-- Before the deadline of a handshake, the loop does not wait exactly when an update is
asked for. -/
theorem Task.interval_eq_zero_iff {t : Task} {now : U32}
    (ahead : t.hs = .connected ∨ 0 < (t.hsEndTime - now).toInt) :
    t.interval now = 0 ↔ t.kcp.check now = now := by
  have capped : imin (t.kcp.check now - now) 60000 = 0 ↔ t.kcp.check now = now := by
    rw [imin_eq_zero_iff (by decide), sub_eq_zero]
  unfold Task.interval
  dsimp only
  split
  · rename_i shaking
    have remaining : 0 < (t.hsEndTime - now).toNat := by
      have value := ahead.resolve_left shaking
      rw [BitVec.toInt_eq_toNat_cond] at value
      split at value <;> omega
    rw [imin_eq_zero_iff remaining, capped]
  · exact capped

/-- After an immediate update at `now` another one is asked for at `now`, and the loop
goes on without waiting, unless the update advances. -/
theorem check_after_update_iff {config : Config} {t : Task}
    (reach : (taskMachine config).Reachable t) (now : U32) :
    ((t.kcp.check now = now → (t.kcp.update now).check now ≠ now) ↔ t.kcp.cb.Advances now) ∧
      (t.hs = .connected ∨ 0 < (t.hsEndTime - now).toInt →
        ((t.interval now = 0 → { t with kcp := t.kcp.update now }.interval now ≠ 0) ↔
          t.kcp.cb.Advances now)) := by
  have decided : (t.kcp.check now = now → (t.kcp.update now).check now ≠ now) ↔
      t.kcp.cb.Advances now := ikcpCheck_ikcpUpdate_iff (reach_timed reach) now
  refine ⟨decided, fun ahead => ?_⟩
  have again : { t with kcp := t.kcp.update now }.interval now = 0 ↔
      (t.kcp.update now).check now = now := Task.interval_eq_zero_iff ahead
  rw [← decided, Task.interval_eq_zero_iff ahead, ne_eq, again]

/-- Clock readings of a client whose SYN segment is sent one millisecond off the grid of
`ts_flush`. -/
def offGridClock (reading : Nat) : U32 := [0, 0, 1, 100, 200].getD reading 201

/-- The client waits for the answer to its SYN frame and updates twice. -/
def offGridEvents : List Event := [.drain .sent, .tau, .drain .sent, .tau, .drain .sent]

/-- On the grid, at time 100, an update advances. -/
theorem check_after_update_on_grid : ∃ t, (taskMachine sampleConfig).Reachable t ∧
    t.kcp.check 100 = 100 ∧ (t.kcp.update 100).check 100 ≠ 100 := by
  have run : (clientRun sampleConfig [7] offGridClock (fun _ _ => true) []).map
      (fun t => (decide (t.kcp.cb.Advances 100), t.kcp.check 100)) = some (true, 100) := by
    decide +kernel
  obtain ⟨t, executed, view⟩ := Option.map_eq_some_iff.1 run
  simp only [Prod.mk.injEq, decide_eq_true_eq] at view
  have reach : (taskMachine sampleConfig).Reachable t :=
    reach_of_clientRun (fun _ _ _ => trivial) rfl executed
  exact ⟨t, reach, view.2, (check_after_update_iff reach 100).1.2 view.1 view.2⟩

/-- At time 201 the segment is overdue but no flush is due before 300: the update does
nothing and is asked for again. -/
theorem check_after_update_spins : ∃ t, (taskMachine sampleConfig).Reachable t ∧
    t.hs = .syn ∧ 0 < (t.hsEndTime - 201).toInt ∧ t.kcp.check 201 = 201 ∧
      (t.kcp.update 201).check 201 = 201 ∧
      { t with kcp := t.kcp.update 201 }.interval 201 = 0 := by
  have run : (clientRun sampleConfig [7] offGridClock (fun _ _ => true) offGridEvents).map
      (fun t => (t.hs, decide (0 < (t.hsEndTime - 201).toInt), t.kcp.check 201,
        (t.kcp.update 201).check 201, { t with kcp := t.kcp.update 201 }.interval 201)) =
      some (.syn, true, 201, 201, 0) := by decide +kernel
  obtain ⟨t, executed, view⟩ := Option.map_eq_some_iff.1 run
  simp only [Prod.mk.injEq, decide_eq_true_eq] at view
  exact ⟨t, reach_of_clientRun (fun _ _ _ => trivial) rfl executed, view⟩

end KcpRs
