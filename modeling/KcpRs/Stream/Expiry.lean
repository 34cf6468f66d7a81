import KcpRs.Stream.Handshake

/-!
# The end of a session by time

`run` gives up a session when `session_expire` has passed since the last flush, by the time that
the engine was last updated with. Both times are readings of one clock (`reach_clocked`), so the
difference that is compared is never more than the time between them (`durationSince_le`). The
bound it is compared with is `session_expire` cut to whole seconds and to 32 bits
(`inNanos_le_iff`).
-/

namespace KcpRs

open Lib

/-- A duration in nanoseconds. -/
def Duration.inNanos (duration : Duration) : Nat := duration.secs.toNat * 10 ^ 9 + duration.nanos

/-- A duration in the milliseconds that the session test compares with. -/
def Duration.inMillis (duration : Duration) : U32 := (duration.secs * 1000).setWidth 32

/-! ## The engine's time -/

/-- `ikcp_send` does not read the clock. -/
theorem Kcp.current_of_send {kcp kcp' : Kcp} {data : Bytes} {result : Except ErrorKind Nat}
    (sent : kcp.send data = some (result, kcp')) : kcp'.cb.current = kcp.cb.current := by
  obtain ⟨_, rfl⟩ | ⟨_, _, rfl⟩ := Kcp.send_eq sent
  · rfl
  · obtain ⟨queue, count, equal⟩ := ikcpSend_queue kcp.cb data (BitVec.ofNat 32 data.length).toInt
    rw [equal]

/-- Nor does `ikcp_input`. -/
theorem Kcp.current_of_input {kcp kcp' : Kcp} {packet : Bytes} {result : Except ErrorKind Unit}
    (taken : kcp.input packet = some (result, kcp')) : kcp'.cb.current = kcp.cb.current := by
  obtain ⟨_, rfl⟩ := Kcp.input_eq taken
  exact congrArg InputKept.current (inputKept_ikcpInput kcp.cb packet)

/-- Nor does `ikcp_flush`, which is called at the time of the last update. -/
theorem Kcp.current_flush (kcp : Kcp) : kcp.flush.cb.current = kcp.cb.current :=
  congrArg FlushKept.current (flushKept_ikcpFlush kcp.cb)

/-- `ikcp_update` is called with the reading of the clock. -/
theorem Kcp.current_update (kcp : Kcp) (now : U32) : (kcp.update now).cb.current = now := by
  obtain ⟨tsFlush, idle | flush⟩ := ikcpUpdate_cases kcp.cb now
  · rw [show (kcp.update now).cb = (ikcpUpdate kcp.cb now).1 from rfl, idle]
  · rw [show (kcp.update now).cb = (ikcpUpdate kcp.cb now).1 from rfl, flush]
    exact congrArg FlushKept.current (flushKept_ikcpFlush _)

/-- Setting the mtu does not read the clock. -/
theorem Kcp.current_of_setMtu {kcp kcp' : Kcp} {stream : Bool} {mtu : U32} {result : Except ErrorKind Unit}
    (set : (kcp.setStream stream).setMtu mtu = some (result, kcp')) :
    kcp'.cb.current = kcp.cb.current := by
  obtain ⟨rfl, _⟩ | ⟨_, _, rfl⟩ := Kcp.setMtu_eq set
  · rfl
  · rfl

namespace Task

variable {t t' : Task}

theorem current_kcpApplyNodelay (t : Task) :
    t.kcpApplyNodelay.kcp.cb.current = t.kcp.cb.current := rfl

/-- `last_io_time` and the engine's time are the readings `set` and `now` of the clock. -/
structure ReadAt (t : Task) (set now : Nat) : Prop where
  ordered : set ≤ now
  past : now < t.ticks
  lastIoTime : t.lastIoTime = t.clock set
  current : t.kcp.cb.current = t.clock now

/-- Both times are readings of the clock. -/
def Clocked (t : Task) : Prop := ∃ set now, t.ReadAt set now

/-- The clock may have been read, but neither time has changed. -/
structure SameTimes (t t' : Task) : Prop where
  clock : t'.clock = t.clock
  ticks : t.ticks ≤ t'.ticks
  lastIoTime : t'.lastIoTime = t.lastIoTime
  current : t'.kcp.cb.current = t.kcp.cb.current

/-- Two times that stay are still readings of the clock. -/
theorem Clocked.sameTimes (clocked : t.Clocked) (same : SameTimes t t') : t'.Clocked := by
  obtain ⟨set, now, ordered, past, lastIoTime, current⟩ := clocked
  refine ⟨set, now, ordered, past.trans_le same.ticks, ?_, ?_⟩
  · rw [same.lastIoTime, same.clock, lastIoTime]
  · rw [same.current, same.clock, current]

/-- A flush takes one reading for both times. -/
theorem clocked_kcpFlush (clocked : t.Clocked) : t.kcpFlush.Clocked := by
  unfold kcpFlush
  dsimp only [getSystemTime]
  split
  · have current : (t.kcp.update (t.clock t.ticks)).flush.cb.current = t.clock t.ticks := by
      rw [Kcp.current_flush, Kcp.current_update]
    exact ⟨t.ticks, t.ticks, le_rfl, Nat.lt_succ_self _, current, current⟩
  · exact clocked

/-- A handshake frame is flushed with the clock read. -/
theorem clocked_handshakeSend {kind : FrameKind} (clocked : t.Clocked)
    (sent : t.handshakeSend kind = some t') : t'.Clocked := by
  obtain ⟨size, kcp, accepted, rfl⟩ := handshakeSend_eq sent
  have current : kcp.cb.current = t.kcp.cb.current := Kcp.current_of_send accepted
  apply clocked_kcpFlush
  exact clocked.sameTimes ⟨rfl, le_rfl, rfl, current⟩

/-- So is the FIN frame. -/
theorem clocked_finTransitLoop {fuel : Nat} (clocked : t.Clocked)
    (moved : finTransitLoop fuel t = some t') : t'.Clocked := by
  refine finTransitLoop_invariant Clocked moved (fun before after turn clocked => ?_) clocked
  cases turn with
  | pend => exact clocked.sameTimes ⟨rfl, Nat.le_succ _, rfl, rfl⟩
  | send _ _ _ accepted =>
      have later := clocked_handshakeSend clocked accepted
      exact later.sameTimes ⟨rfl, le_rfl, rfl, rfl⟩
  | _ => exact clocked.sameTimes ⟨rfl, le_rfl, rfl, rfl⟩

theorem sameTimes_kcpRecv {frame : Option Bytes} (taken : t.kcpRecv = some (frame, t')) :
    SameTimes t t' := by
  obtain ⟨_, _, engine⟩ := kcpRecv_kcp taken
  have current : t'.kcp.cb.current = t.kcp.cb.current := by
    rw [engine]
    rfl
  obtain ⟨kcp, ⟨_, _, rfl⟩ | ⟨_, _, ⟨_, _, rfl⟩ | ⟨_, _, rfl⟩⟩⟩ := kcpRecv_cases taken <;>
    exact ⟨rfl, le_rfl, rfl, current⟩

theorem clocked_connect {ok : Bool} (clocked : t.Clocked) (connected : t.connect = (ok, t')) :
    t'.Clocked := by
  obtain ⟨_, rfl⟩ | ⟨_, _, rfl⟩ := connect_cases connected <;>
    exact clocked.sameTimes ⟨rfl, le_rfl, rfl, rfl⟩

/-- So is the reply of a server. -/
theorem clocked_synHandshakeRecv {ok : Bool} (clocked : t.Clocked)
    (received : t.synHandshakeRecv = some (ok, t')) : t'.Clocked := by
  obtain ⟨_, taken⟩ | ⟨syn, later, taken, outcome⟩ := synHandshakeRecv_cases received
  · exact clocked.sameTimes (sameTimes_kcpRecv taken)
  · have clocked' : later.Clocked := clocked.sameTimes (sameTimes_kcpRecv taken)
    obtain ⟨_, _, rfl⟩ | ⟨_, _, connected⟩ | ⟨_, id, sent, _, accepted, connected⟩ := outcome
    · exact clocked'
    · have tuned : later.kcpApplyNodelay.Clocked := clocked'.sameTimes ⟨rfl, le_rfl, rfl, rfl⟩
      exact clocked_connect tuned connected
    · have replied : sent.Clocked := by
        refine clocked_handshakeSend ?_ accepted
        exact clocked'.sameTimes ⟨rfl, le_rfl, rfl, rfl⟩
      exact clocked_connect replied connected

theorem sameTimes_synHandshakeInput {packet : Bytes} {ok : Bool}
    (moved : t.synHandshakeInput packet = some (ok, t')) : SameTimes t t' := by
  obtain rfl | ⟨conv, back, result, kcp, _, taken, rfl, _⟩ := synHandshakeInput_cases moved
  · exact ⟨rfl, le_rfl, rfl, rfl⟩
  · have current : kcp.cb.current = (t.kcp.setConv conv).cb.current := Kcp.current_of_input taken
    exact ⟨rfl, le_rfl, rfl, current⟩

theorem clocked_finInput {packet : Bytes} {cmd : Byte} (clocked : t.Clocked)
    (moved : t.finInput packet cmd = some t') : t'.Clocked := by
  obtain ⟨later, result, kcp, transit, taken, rfl⟩ := finInput_eq moved
  have clocked' : later.Clocked := by
    refine clocked_finTransitLoop ?_ transit
    unfold noticeFin
    split
    · exact clocked
    · exact clocked.sameTimes ⟨rfl, le_rfl, rfl, rfl⟩
  exact clocked'.sameTimes ⟨rfl, le_rfl, rfl, Kcp.current_of_input taken⟩

/-- A packet sets neither time, unless the FIN handshake flushes. -/
theorem clocked_kcpInput {packet : Bytes} (clocked : t.Clocked)
    (moved : t.kcpInput packet = some t') : t'.Clocked := by
  obtain ⟨_, kcp, taken, outcome⟩ := kcpInput_cases moved
  have current := Kcp.current_of_input taken
  have taken' : { t with kcp }.Clocked := clocked.sameTimes ⟨rfl, le_rfl, rfl, current⟩
  obtain ⟨_, rfl⟩ | ⟨_, _, stray⟩ | ⟨_, cmd, _, flags⟩ := outcome
  · exact clocked.sameTimes ⟨rfl, le_rfl, rfl, current⟩
  · exact taken'.sameTimes (sameTimes_synHandshakeInput stray)
  · obtain ⟨_, rfl⟩ | ⟨_, _, noticed⟩ | ⟨_, _, rfl⟩ := flags
    · exact clocked.sameTimes ⟨rfl, le_rfl, rfl, current⟩
    · exact clocked_finInput taken' noticed
    · exact taken'

theorem sameTimes_processInput {frame : Bytes} (moved : t.processInput frame = some t') :
    SameTimes t t' := by
  unfold processInput at moved
  split at moved
  · cases moved
  · rename_i size kcp sent
    cases moved
    exact ⟨rfl, le_rfl, rfl, Kcp.current_of_send sent⟩
  · rename_i error kcp refused
    cases moved
    exact ⟨rfl, le_rfl, rfl, Kcp.current_of_send refused⟩

/-- Every way through the handshake after a batch of packets. -/
theorem BatchEnd.clocked (ended : t.BatchEnd t') (clocked : t.Clocked) : t'.Clocked := by
  cases ended with
  | greeted _ received =>
      exact (clocked_synHandshakeRecv clocked received).sameTimes ⟨rfl, le_rfl, rfl, rfl⟩
  | refused _ received =>
      exact (clocked_synHandshakeRecv clocked received).sameTimes ⟨rfl, le_rfl, rfl, rfl⟩
  | closing _ _ transit =>
      exact (clocked_finTransitLoop clocked transit).sameTimes ⟨rfl, le_rfl, rfl, rfl⟩
  | _ => exact clocked.sameTimes ⟨rfl, le_rfl, rfl, rfl⟩

/-- Every step keeps both times readings of the clock. An immediate update takes a reading for the
engine's time. -/
theorem step_clocked {event : Event} (clocked : t.Clocked) (stepped : t.step event = some t') :
    t'.Clocked := by
  cases transition_of_step stepped with
  | app acted =>
      obtain ⟨_, _, _, rfl | ⟨_, rfl⟩⟩ := app_eq acted <;>
        exact clocked.sameTimes ⟨rfl, le_rfl, rfl, rfl⟩
  | timeout | wait => exact clocked.sameTimes ⟨rfl, Nat.le_succ _, rfl, rfl⟩
  | update =>
      obtain ⟨set, now, ordered, past, lastIoTime, _⟩ := clocked
      exact ⟨set, t.ticks, ordered.trans past.le, Nat.lt_succ_self _, lastIoTime,
        Kcp.current_update _ _⟩
  | frame _ _ _ sent =>
      obtain ⟨clock, ticks, lastIoTime, current⟩ := sameTimes_processInput sent
      exact clocked.sameTimes ⟨clock, ticks, lastIoTime, current⟩
  | inputClosed _ transit =>
      have closing : Clocked { t with inputClosed := true } :=
        clocked.sameTimes ⟨rfl, le_rfl, rfl, rfl⟩
      have flushed := clocked_kcpFlush (clocked_finTransitLoop closing transit)
      exact flushed.sameTimes ⟨rfl, le_rfl, rfl, rfl⟩
  | inputFlush | held => exact (clocked_kcpFlush clocked).sameTimes ⟨rfl, le_rfl, rfl, rfl⟩
  | more _ taken | stash _ taken | emptied _ taken =>
      exact (clocked.sameTimes (sameTimes_kcpRecv taken)).sameTimes ⟨rfl, le_rfl, rfl, rfl⟩
  | packet _ taken => exact (clocked_kcpInput clocked taken).sameTimes ⟨rfl, le_rfl, rfl, rfl⟩
  | batchDone _ ended => exact ended.clocked clocked
  | @fetched frame later _ _ taken =>
      have clocked' : later.Clocked := clocked.sameTimes (sameTimes_kcpRecv taken)
      have stashed : Clocked { later with txFrame := frame } :=
        clocked'.sameTimes ⟨rfl, le_rfl, rfl, rfl⟩
      exact (clocked_kcpFlush stashed).sameTimes ⟨rfl, le_rfl, rfl, rfl⟩
  | finish =>
      unfold Task.finish
      dsimp only [getSystemTime]
      split
      · exact clocked.sameTimes ⟨rfl, Nat.le_succ _, rfl, rfl⟩
      · exact clocked.sameTimes ⟨rfl, le_rfl, rfl, rfl⟩
  | _ => exact clocked.sameTimes ⟨rfl, le_rfl, rfl, rfl⟩

/-- At the start both times are the first reading. -/
theorem start_clocked {config : Config} {conv : U32} {id : Bytes} {clock : Nat → U32}
    (started : start config conv id clock = some t) : t.Clocked := by
  unfold start at started
  split at started
  · cases started
  · rename_i base configured
    have current : base.kcp.cb.current = clock 0 := by
      unfold configure kcpApplyConfig at configured
      dsimp only [getSystemTime] at configured
      split at configured
      · rename_i kcp set
        cases configured
        rw [current_kcpApplyNodelay]
        calc kcp.cb.current
          _ = ((Kcp.new conv).update (clock 0)).cb.current := Kcp.current_of_setMtu set
          _ = clock 0 := Kcp.current_update _ _
      · cases configured
    obtain ⟨kcp, rfl⟩ := configure_eq configured
    dsimp only [getSystemTime] at started
    split at started
    · refine clocked_handshakeSend ?_ started
      exact ⟨0, 0, le_rfl, Nat.succ_pos _, current, current⟩
    · cases started
      exact ⟨0, 0, le_rfl, Nat.succ_pos _, current, current⟩

/-! ## The session test -/

/-- The next step leaves the loop through the session test. -/
structure Expires (t : Task) : Prop where
  pc : t.pc = .check
  unfinished : t.hs ≠ .disconnected
  alive : t.kcp.isDeadLink = false
  passed : t.expireMillis ≤ t.kcp.durationSince t.lastIoTime

instance (t : Task) : Decidable t.Expires :=
  decidable_of_iff (t.pc = .check ∧ t.hs ≠ .disconnected ∧ t.kcp.isDeadLink = false ∧
      t.expireMillis ≤ t.kcp.durationSince t.lastIoTime)
    ⟨fun ⟨pc, unfinished, alive, passed⟩ => ⟨pc, unfinished, alive, passed⟩,
      fun ⟨pc, unfinished, alive, passed⟩ => ⟨pc, unfinished, alive, passed⟩⟩

theorem step_of_expires (expires : t.Expires) : t.step .tau = some t.leave := by
  obtain ⟨pc, unfinished, alive, passed⟩ := expires
  have checked : t.step .tau = some t.check := by
    unfold step
    rw [pc]
  rw [checked, Task.check, if_neg unfinished, if_pos (.inr passed)]

/-- At least `nanos` nanoseconds lie between the readings that `last_io_time` and the engine's
time hold, whatever milliseconds the readings so far are the low words of. -/
def Elapsed (t : Task) (nanos : Nat) : Prop :=
  ∀ millis : Nat → Nat, Monotone millis →
    (∀ n < t.ticks, t.clock n = BitVec.ofNat 32 (millis n)) →
      ∀ set now, t.ReadAt set now → nanos ≤ (millis now - millis set) * 10 ^ 6

end Task

/-- Every reachable task holds readings of the clock. -/
theorem reach_clocked {config : Config} {allow : Task → Event → Prop} {t : Task}
    (reach : (taskMachine config).Reach allow t) : t.Clocked := by
  refine reach.invariant Task.Clocked (fun t initial => ?_)
    (fun t event next _ clocked _ stepped => Task.step_clocked clocked stepped)
  obtain ⟨id, clock, _, started⟩ | ⟨conv, _, clock, started⟩ := initial
  · exact Task.start_clocked started
  · exact Task.start_clocked started

/-- The engine never counts more milliseconds than have passed. -/
theorem Kcp.durationSince_le {kcp : Kcp} {since : U32} {before after : Nat}
    (ordered : before ≤ after) (start : since = BitVec.ofNat 32 before)
    (stop : kcp.cb.current = BitVec.ofNat 32 after) :
    (kcp.durationSince since).toNat ≤ after - before := by
  have difference : (kcp.cb.current - since).toNat = (after - before) % 2 ^ 32 := by
    rw [stop, start, BitVec.toNat_sub, BitVec.toNat_ofNat, BitVec.toNat_ofNat]
    omega
  have counted : (kcp.durationSince since).toNat ≤ (kcp.cb.current - since).toNat := by
    unfold Kcp.durationSince
    rw [BitVec.toNat_ofInt, BitVec.toInt_eq_toNat_cond]
    split <;> omega
  rw [difference] at counted
  exact counted.trans (Nat.mod_le _ _)

/-- The bound loses nothing of a duration of whole seconds whose milliseconds fit 32 bits, and
of no other. -/
theorem Duration.inNanos_le_iff (duration : Duration) :
    duration.inNanos ≤ duration.inMillis.toNat * 10 ^ 6 ↔
      duration.nanos = 0 ∧ duration.secs.toNat * 1000 < 2 ^ 32 := by
  have cut : duration.inMillis.toNat = duration.secs.toNat * 1000 % 2 ^ 32 := by
    rw [inMillis, BitVec.toNat_setWidth, BitVec.toNat_mul, show (1000 : BitVec 64).toNat = 1000 from rfl]
    exact Nat.mod_mod_of_dvd _ (by decide)
  rw [cut, inNanos]
  constructor
  · intro enough
    have less : duration.secs.toNat * 1000 % 2 ^ 32 ≤ duration.secs.toNat * 1000 := Nat.mod_le _ _
    have whole : duration.secs.toNat * 1000 % 2 ^ 32 = duration.secs.toNat * 1000 := by omega
    have small : duration.secs.toNat * 1000 % 2 ^ 32 < 2 ^ 32 := Nat.mod_lt _ (by decide)
    exact ⟨by omega, by omega⟩
  · rintro ⟨none, small⟩
    rw [Nat.mod_eq_of_lt small]
    omega

/-- The session test fires only after its bound has passed. -/
theorem Task.elapsed_of_expires {t : Task} (expires : t.Expires) {nanos : Nat}
    (enough : nanos ≤ t.cfg.sessionExpire.inMillis.toNat * 10 ^ 6) : t.Elapsed nanos := by
  intro millis monotone readings set now read
  have counted : (t.kcp.durationSince t.lastIoTime).toNat ≤ millis now - millis set :=
    Kcp.durationSince_le (monotone read.ordered)
      (read.lastIoTime.trans (readings set (read.ordered.trans_lt read.past)))
      (read.current.trans (readings now read.past))
  have bound : t.cfg.sessionExpire.inMillis.toNat ≤ (t.kcp.durationSince t.lastIoTime).toNat :=
    expires.passed
  calc nanos
    _ ≤ t.cfg.sessionExpire.inMillis.toNat * 10 ^ 6 := enough
    _ ≤ (millis now - millis set) * 10 ^ 6 := Nat.mul_le_mul_right _ (bound.trans counted)

/-- No session of the configuration is given up early: the conversion of `session_expire` neither
overflows nor gives a smaller bound, and the session test ends a loop only when `session_expire`
has elapsed. -/
structure Config.NeverEarly (config : Config) : Prop where
  noOverflow : config.sessionExpire.secs.toNat * 1000 < 2 ^ 64
  notSmaller : config.sessionExpire.inNanos ≤ config.sessionExpire.inMillis.toNat * 10 ^ 6
  elapsed : ∀ t, (taskMachine config).Reachable t → t.Clocked ∧
    (t.Expires → t.step .tau = some t.leave ∧ t.Elapsed config.sessionExpire.inNanos)

/-- Exactly the durations of whole seconds and of less than `2 ^ 32` milliseconds are kept. -/
theorem session_never_early_iff (config : Config) : config.NeverEarly ↔
    config.sessionExpire.nanos = 0 ∧ config.sessionExpire.secs.toNat * 1000 < 2 ^ 32 := by
  constructor
  · intro early
    exact config.sessionExpire.inNanos_le_iff.1 early.notSmaller
  · intro exact'
    have enough := config.sessionExpire.inNanos_le_iff.2 exact'
    refine ⟨exact'.2.trans (by decide), enough, fun t reach => ⟨reach_clocked reach, ?_⟩⟩
    intro expires
    refine ⟨Task.step_of_expires expires, Task.elapsed_of_expires expires ?_⟩
    rwa [reach_cfg reach]

/-- A session that is to last half a second. -/
def halfSecond : Config := { sampleConfig with sessionExpire := { secs := 0, nanos := 500000000 } }

/-- Half a second is cut to nothing: the client gives up at its first check, at the time of its
last flush. -/
theorem session_ends_at_once : ∃ t, (taskMachine halfSecond).Reachable t ∧ t.Expires ∧
    ¬ t.Elapsed halfSecond.sessionExpire.inNanos := by
  have run : (clientRun halfSecond [7] (fun _ => 0) (fun _ _ => true) [.drain .sent]).map
      (fun t => (decide t.Expires, decide (∀ n < t.ticks, t.clock n = 0))) = some (true, true) := by
    decide +kernel
  obtain ⟨t, executed, view⟩ := Option.map_eq_some_iff.1 run
  simp only [Prod.mk.injEq, decide_eq_true_eq] at view
  obtain ⟨expires, still⟩ := view
  have reach : (taskMachine halfSecond).Reachable t :=
    reach_of_clientRun (fun _ _ _ => trivial) rfl executed
  refine ⟨t, reach, expires, fun elapsed => ?_⟩
  obtain ⟨set, now, read⟩ := reach_clocked reach
  have nothing := elapsed (fun _ => 0) monotone_const still set now read
  exact absurd nothing (by decide)

end KcpRs
