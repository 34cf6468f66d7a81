import KcpRs.Stream.Run

/-!
# The deadlines of the handshakes

A deadline is a clock reading plus a timeout, and is compared with later readings by wrapping
subtraction, so the comparison survives a clock that wraps (`Task.check_expires_iff`). The sum is
a plain `+`, which does not (`deadline_survives`).
-/

namespace KcpRs

open Lib

/-- `*` on `u32` with overflow checks. -/
def checkedMul (a b : U32) : Option U32 := if a.toNat * b.toNat < 2 ^ 32 then some (a * b) else none

/-- `+` on `u32` with overflow checks. -/
def checkedAdd (a b : U32) : Option U32 := if a.toNat + b.toNat < 2 ^ 32 then some (a + b) else none

/-- The deadline of a handshake that starts at `now`, with overflow checks: `none` is a panic. -/
def checkedDeadline (now : U32) (timeout : Duration) : Option U32 :=
  (checkedMul (timeout.secs.setWidth 32) 1000).bind (checkedAdd now)

/-- The timeout in milliseconds. -/
def Duration.wholeMillis (timeout : Duration) : Nat := timeout.secs.toNat * 1000

/-- The loop gets to the test of the deadline. -/
def Task.Awaits (t : Task) : Prop :=
  t.hs ≠ .connected ∧ t.hs ≠ .disconnected ∧ t.kcp.isDeadLink = false ∧
    t.kcp.durationSince t.lastIoTime < t.expireMillis

/-- The deadline is computed without overflow, and the loop gives up at the readings that are
at least the timeout after `now`. -/
def DeadlineHolds (now : U32) (timeout : Duration) : Prop :=
  checkedDeadline now timeout = some (Task.hsDeadline now timeout) ∧
    ∀ (t : Task) (elapsed : Nat), t.Awaits → t.hsEndTime = Task.hsDeadline now timeout →
      elapsed < 2 ^ 31 → t.clock t.ticks = now + BitVec.ofNat 32 elapsed →
        (t.check.hs = .disconnected ↔ timeout.wholeMillis ≤ elapsed)

variable {now : U32} {timeout : Duration}

theorem toNat_millis (bounded : timeout.secs.toNat ≤ 2147483) :
    (timeout.secs.setWidth 32 * 1000 : U32).toNat = timeout.wholeMillis ∧
      (timeout.secs.setWidth 32).toNat = timeout.secs.toNat := by
  have whole : (timeout.secs.setWidth 32).toNat = timeout.secs.toNat := by
    rw [BitVec.toNat_setWidth, Nat.mod_eq_of_lt (by omega)]
  rw [BitVec.toNat_mul, whole, show (1000 : U32).toNat = 1000 from rfl, Nat.mod_eq_of_lt (by omega)]
  exact ⟨rfl, rfl⟩

/-- The deadline overflows exactly when the sum does. -/
theorem checkedDeadline_eq_iff (bounded : timeout.secs.toNat ≤ 2147483) :
    checkedDeadline now timeout = some (Task.hsDeadline now timeout) ↔
      now.toNat + timeout.wholeMillis < 2 ^ 32 := by
  obtain ⟨millis, whole⟩ := toNat_millis bounded
  have product : checkedMul (timeout.secs.setWidth 32) 1000 = some (timeout.secs.setWidth 32 * 1000) := by
    rw [checkedMul, whole, if_pos (by rw [show (1000 : U32).toNat = 1000 from rfl]; omega)]
  rw [checkedDeadline, product, Option.bind_some, checkedAdd, millis]
  split
  · rename_i small
    exact iff_of_true rfl small
  · rename_i large
    exact iff_of_false nofun large

/-- The distance from a reading to the deadline, as a signed word, is what is left of the
timeout. -/
theorem remaining_of_elapsed (bounded : timeout.secs.toNat ≤ 2147483) {elapsed : Nat}
    (recent : elapsed < 2 ^ 31) :
    (Task.hsDeadline now timeout - (now + BitVec.ofNat 32 elapsed)).toInt =
      (timeout.wholeMillis : Int) - elapsed := by
  have millis : timeout.secs.setWidth 32 * 1000 = BitVec.ofNat 32 timeout.wholeMillis := by
    rw [← (toNat_millis bounded).1, BitVec.ofNat_toNat, BitVec.setWidth_eq]
  have small : timeout.wholeMillis < 2 ^ 31 := by
    unfold Duration.wholeMillis
    omega
  rw [Task.hsDeadline, millis, ← BitVec.sub_sub, BitVec.add_comm, BitVec.add_sub_cancel]
  exact serialDiff_of_near (by decide) (by omega) (by omega)

/-- The loop gives up when the signed distance to the deadline is not positive. -/
theorem Task.check_expires_iff {t : Task} (awaits : t.Awaits) :
    t.check.hs = .disconnected ↔ (t.hsEndTime - t.clock t.ticks).toInt ≤ 0 := by
  obtain ⟨shaking, open', alive, recent⟩ := awaits
  have stays : ¬ (t.kcp.isDeadLink = true ∨ t.expireMillis ≤ t.kcp.durationSince t.lastIoTime) := by
    rw [not_or, alive, BitVec.not_le]
    exact ⟨Bool.false_ne_true, recent⟩
  unfold Task.check
  rw [if_neg open', if_neg stays]
  dsimp only [Task.getSystemTime]
  by_cases expired : (t.hsEndTime - t.clock t.ticks).toInt ≤ 0
  · rw [if_pos ⟨shaking, expired⟩]
    exact iff_of_true rfl expired
  · rw [if_neg fun both => expired both.2]
    refine iff_of_false ?_ expired
    split <;> exact open'

/-- A deadline holds exactly when the sum of the reading and the timeout fits a word. -/
theorem deadline_survives (bounded : timeout.secs.toNat ≤ 2147483) :
    DeadlineHolds now timeout ↔ now.toNat + timeout.wholeMillis < 2 ^ 32 := by
  rw [DeadlineHolds, checkedDeadline_eq_iff bounded]
  refine ⟨And.left, fun small => ⟨small, fun t elapsed awaits deadline recent reading => ?_⟩⟩
  rw [Task.check_expires_iff awaits, deadline, reading, remaining_of_elapsed bounded recent]
  omega

/-- The default `connect_timeout` at the start of the clock. -/
theorem deadline_survives_start : DeadlineHolds 0 { secs := 15 } :=
  (deadline_survives (by decide)).2 (by decide)

/-- One second before the clock wraps, the default `shutdown_timeout` overflows. -/
theorem deadline_overflows : ¬ ∀ (now : U32) (timeout : Duration), timeout.secs.toNat ≤ 2147483 →
    DeadlineHolds now timeout := by
  intro holds
  have computed := (holds 4294966296 { secs := 10 } (by decide)).1
  exact absurd computed (by decide)

end KcpRs
