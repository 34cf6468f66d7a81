import KcpRs.Stream.Placed

/-!
# The start of a task and its reachable states

`start` is a sequence of moves from a task with an empty, configured engine
(`start_moves`). Together with `step_moves` this turns every invariant of moves into an
invariant of all reachable tasks (`reach_invariant`).
-/

namespace KcpRs

open Lib Relation

/-- A control block before anything was sent or received. -/
structure Ikcpcb.Empty (kcp : Ikcpcb) : Prop where
  sndQueue : kcp.sndQueue = []
  sndBuf : kcp.sndBuf = []
  rcvQueue : kcp.rcvQueue = []
  rcvBuf : kcp.rcvBuf = []
  acklist : kcp.acklist = []
  sndUna : kcp.sndUna = 0
  sndNxt : kcp.sndNxt = 0
  rcvNxt : kcp.rcvNxt = 0
  counted : kcp.Counted

/-- The send window that `ikcp_wndsize` leaves a new block with. -/
def Config.sendWindow (cfg : Config) : Nat :=
  if 0 < cfg.sndWnd.toInt then cfg.sndWnd.toInt.toNat else ikcpWndSnd

/-- A control block configured by `cfg`. -/
structure Ikcpcb.Configured (cfg : Config) (kcp : Ikcpcb) : Prop where
  mtu : kcp.mtu = cfg.mtu.toNat
  mss : kcp.mss = cfg.mtu.toNat - ikcpOverhead
  least : 50 ≤ cfg.mtu.toNat
  most : cfg.mtu.toNat < 2 ^ 31
  stream : kcp.stream = cfg.stream
  rcvWnd : ikcpWndRcv ≤ kcp.rcvWnd
  sndWnd : kcp.sndWnd = cfg.sendWindow

/-- The first update of a new block flushes nothing. -/
theorem ikcpUpdate_ikcpCreate (conv now : U32) : ikcpUpdate (ikcpCreate conv) now =
    ({ ikcpCreate conv with
      current := now, updated := true, tsFlush := now + ikcpInterval, cwnd := 1,
      incr := BitVec.ofNat 32 (ikcpMtuDef - ikcpOverhead) }, []) := by
  have later : ¬ 0 ≤ itimediff now (now + ikcpInterval) := by
    simp [itimediff, serialDiff, ikcpInterval]
  have started : updateSlap (ikcpCreate conv) now =
      ({ ikcpCreate conv with current := now, updated := true, tsFlush := now }, 0) := by
    simp [updateSlap, ikcpCreate]
  rw [ikcpUpdate, started]
  simp [later, ikcpCreate, ikcpFlush, flushData, flushMoved, flushProbed, flushProbe, flushMove,
    flushHeads, flushAcks, flushCommand, flushCwnd, Pack.output, ikcpWndRcv]

namespace Task

/-- A task whose engine is configured and empty, before the SYN handshake. -/
structure Fresh (config : Config) (number : U32) (id : Bytes) (t : Task) : Prop where
  cfg : t.cfg = config
  empty : t.kcp.cb.Empty
  timed : t.kcp.cb.Timed
  configured : t.kcp.cb.Configured config
  conv : t.kcp.cb.conv = number
  outputQueue : t.kcp.outputQueue = []
  inputRx : t.inputRx = {}
  token : t.token = false
  hs : t.hs = .syn
  client : t.client = decide (number = Kcp.synConv)
  finRecved : t.finRecved = false
  inputClosed : t.inputClosed = false
  sessionId : t.sessionId = if number = Kcp.synConv then id else []
  txFrame : t.txFrame = none
  pc : t.pc = .head
  trace : t.trace = []

theorem configure_fresh {config : Config} {conv : U32} {clock : Nat → U32} {t : Task}
    (configured : configure config conv clock = some t) (id : Bytes) :
    Fresh config conv id { t with
      client := decide (conv = Kcp.synConv)
      sessionId := if conv = Kcp.synConv then id else [] } := by
  unfold configure kcpApplyConfig at configured
  simp only [getSystemTime, Kcp.new, Kcp.update, Kcp.emit, ikcpUpdate_ikcpCreate] at configured
  split at configured
  · rename_i kcp set
    cases configured
    have interval : 10 ≤ ikcpInterval.toNat ∧ ikcpInterval.toNat ≤ 5000 := by decide
    have minrto : 30 ≤ ikcpRtoMin.toNat ∧ ikcpRtoMin.toNat ≤ 100 := by decide
    have rto : 30 ≤ ikcpRtoDef.toNat ∧ ikcpRtoDef.toNat ≤ 60000 := by decide
    have window (rcvwnd : Int) :
        ikcpWndRcv ≤ if 0 < rcvwnd then max rcvwnd.toNat ikcpWndRcv else ikcpWndRcv := by
      split
      · exact le_max_right _ _
      · exact le_refl _
    have rest (kcp : Kcp) (empty : kcp.cb.Empty) (timed : kcp.cb.Timed)
        (sized : kcp.cb.Configured config) (same : kcp.cb.conv = conv)
        (quiet : kcp.outputQueue = []) : Fresh config conv id
          { { cfg := config, kcp, clock, ticks := 1 : Task }.kcpApplyNodelay with
            client := decide (conv = Kcp.synConv)
            sessionId := if conv = Kcp.synConv then id else [] } :=
      ⟨rfl, ⟨empty.sndQueue, empty.sndBuf, empty.rcvQueue, empty.rcvBuf, empty.acklist,
        empty.sndUna, empty.sndNxt, empty.rcvNxt, empty.counted.ikcpNodelay _ _ _ _⟩,
        timed.ikcpNodelay _ _ _ _,
        ⟨sized.mtu, sized.mss, sized.least, sized.most, sized.stream, sized.rcvWnd, sized.sndWnd⟩, same, quiet,
        rfl, rfl, rfl, rfl, rfl, rfl, rfl, rfl, rfl, rfl⟩
    obtain ⟨rfl, agreed⟩ | ⟨least, most, rfl⟩ := Kcp.setMtu_eq set
    · have same := agreed rfl
      simp only [Kcp.setStream, ikcpCreate, ikcpMtuDef] at same
      refine rest _ ⟨rfl, rfl, rfl, rfl, rfl, rfl, rfl, rfl, ⟨rfl, rfl, rfl, rfl⟩⟩
        ⟨rfl, interval, minrto, rto⟩
        ⟨same, congrArg (· - ikcpOverhead) same, ?_, ?_, rfl, window _, rfl⟩ rfl rfl
      · rw [← same]
        decide
      · rw [← same]
        decide
    · exact rest _ ⟨rfl, rfl, rfl, rfl, rfl, rfl, rfl, rfl, ⟨rfl, rfl, rfl, rfl⟩⟩
        ⟨rfl, interval, minrto, rto⟩
        ⟨rfl, rfl, least, most, rfl, window _, rfl⟩ rfl rfl
  · cases configured

theorem configure_eq {config : Config} {conv : U32} {clock : Nat → U32} {t : Task}
    (configured : configure config conv clock = some t) :
    ∃ kcp, t = { cfg := config, kcp, clock, ticks := 1 } := by
  unfold configure kcpApplyConfig at configured
  dsimp only at configured
  split at configured
  · cases configured
    exact ⟨_, rfl⟩
  · cases configured

/-- The start of a task is a sequence of moves from a fresh one. -/
theorem start_moves {ambient : Ambient} {config : Config} {conv : U32} {id : Bytes}
    {clock : Nat → U32} {t : Task} (started : start config conv id clock = some t) :
    ∃ fresh, Fresh config conv id fresh ∧ Moves ambient fresh t := by
  unfold start at started
  split at started
  · cases started
  · rename_i base configured
    have fresh := configure_fresh configured id
    obtain ⟨kcp, rfl⟩ := configure_eq configured
    refine ⟨_, fresh, ?_⟩
    dsimp only [getSystemTime] at started
    -- The moves that both sides make before the SYN frame.
    have prepared (first : Task) : Moves ambient first { first with
        kcp := first.kcp.setNodelay true 100 0 false
        hsEndTime := hsDeadline (first.clock first.ticks) config.connectTimeout
        lastIoTime := (first.kcp.setNodelay true 100 0 false).cb.current
        ticks := first.ticks + 1 } :=
      .tail (.single (.nodelay first true 100 0 false)) (.note _ _ _ _ _)
    split at started
    · rename_i client
      simp only [client, decide_true, if_true]
      exact .trans (prepared _) (handshakeSend_syn_moves rfl rfl (fresh.conv.trans client) rfl started)
    · rename_i server
      cases started
      simp only [server, decide_false, if_false]
      exact prepared _

end Task

/-! ## Invariants of reachable tasks -/

/-- The initial tasks of `taskMachine` start from fresh ones. -/
theorem taskMachine_initial (ambient : Ambient) {config : Config} {t : Task}
    (initial : (taskMachine config).Initial t) :
    ∃ conv id fresh, Task.Fresh config conv id fresh ∧ Task.Moves ambient fresh t := by
  obtain ⟨id, clock, _, started⟩ | ⟨conv, _, clock, started⟩ := initial
  · exact ⟨_, _, Task.start_moves started⟩
  · exact ⟨_, _, Task.start_moves started⟩

/-- The start of a task touches neither its receive side nor the application. -/
theorem Task.start_aside {config : Config} {conv : U32} {id : Bytes} {clock : Nat → U32} {t : Task}
    (started : Task.start config conv id clock = some t) : ∃ fresh,
      Task.Fresh config conv id fresh ∧ t.aside = fresh.aside ∧
      t.kcp.cb.receiver = fresh.kcp.cb.receiver ∧ t.hs = .syn := by
  unfold Task.start at started
  split at started
  · cases started
  · rename_i base configured
    have fresh := Task.configure_fresh configured id
    obtain ⟨kcp, rfl⟩ := Task.configure_eq configured
    refine ⟨_, fresh, ?_⟩
    dsimp only [Task.getSystemTime] at started
    split at started
    · rename_i client
      have same := Task.kept_handshakeSend started
      refine ⟨(congrArg Task.Kept.aside same).trans ?_, congrArg Task.Kept.receiver same,
        (Task.hs_handshakeSend started).trans rfl⟩
      simp [Task.kept, Task.aside, Task.received, Task.shown, Task.hasStream, Task.reports, client]
    · rename_i server
      cases started
      refine ⟨?_, rfl, rfl⟩
      simp [Task.aside, Task.received, Task.shown, Task.hasStream, Task.reports, server]

/-- Every initial task is at the top of its loop. -/
theorem Task.start_pc {config : Config} {conv : U32} {id : Bytes} {clock : Nat → U32} {t : Task}
    (started : Task.start config conv id clock = some t) : t.pc = .head := by
  obtain ⟨fresh, isFresh, same, _⟩ := Task.start_aside started
  exact (congrArg Task.Aside.pc same).trans isFresh.pc

theorem Task.Fresh.reasoned {config : Config} {conv : U32} {id : Bytes} {t : Task}
    (fresh : Task.Fresh config conv id t) : t.Reasoned :=
  fun state => by simp [fresh.hs] at state

theorem Task.Fresh.unannounced {config : Config} {conv : U32} {id : Bytes} {t : Task}
    (fresh : Task.Fresh config conv id t) : t.Unannounced :=
  fun _ => by rw [Task.hasStream, fresh.trace, List.any_nil]

/-- Every reachable task is placed. -/
theorem reach_placed {config : Config} {allow : Task → Event → Prop} {t : Task}
    (reach : (taskMachine config).Reach allow t) : t.Placed := by
  refine reach.invariant Task.Placed (fun t initial => ?_)
    (fun t event next _ placed _ stepped => Task.step_placed placed stepped)
  obtain ⟨conv, id, fresh, isFresh, moves⟩ :=
    taskMachine_initial .idle initial
  have pc : t.pc = .head := by
    obtain ⟨_, _, _, started⟩ | ⟨_, _, _, started⟩ := initial <;> exact Task.start_pc started
  refine ⟨.elsewhere ?_ ?_, moves.invariant (fun _ _ move => move.reasoned) isFresh.reasoned,
    moves.invariant (fun _ _ move => move.unannounced) isFresh.unannounced⟩
  · simp [Task.drained, pc]
  · simp [Task.taking, pc]

/-- What holds of fresh tasks and is kept by every move holds of every reachable
task. -/
theorem reach_invariant {config : Config} {allow : Task → Event → Prop} {Invariant : Task → Prop}
    (fresh : ∀ conv id t, Task.Fresh config conv id t → Invariant t)
    (move : ∀ ambient t t', Task.Move ambient t t' → Invariant t → Invariant t') {t : Task}
    (reach : (taskMachine config).Reach allow t) : Invariant t := by
  refine reach.invariant Invariant (fun t initial => ?_)
    (fun t event next prior holds _ stepped => ?_)
  · obtain ⟨conv, id, first, isFresh, moves⟩ :=
      taskMachine_initial .idle initial
    exact moves.invariant (move _) (fresh _ _ _ isFresh)
  · exact (Task.step_moves (reach_placed prior) stepped).invariant (move _) holds

end KcpRs
