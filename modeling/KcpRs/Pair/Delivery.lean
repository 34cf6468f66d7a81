import KcpRs.Stream.Memory
import KcpRs.Pair.Flow

/-!
# The frames delivered

Both directions of a pair together: `Between` is what the two tasks know of each other and what
has flowed either way. It is kept by every step of either task (`Task.step_between`), and says
of any reachable pair that each application has been shown a prefix of what the other one has
sent (`frames_prefix`), as long as every frame fits.
-/

namespace KcpRs

open Lib Relation

/-- The frames of the SYN and FIN handshakes fit one segment. -/
def Config.handshakeFits (cfg : Config) : Prop :=
  cfg.sessionKey.length + cfg.sessionIdLen ≤ cfg.mtu.toNat - ikcpOverhead

namespace Task

variable {ambient : Ambient} {config : Config} {t t' x x' y : Task}
  {body tail body' tail' : List Payload}

/-! ## Each task -/

/-- What every reachable task is. -/
structure Regular (config : Config) (t : Task) : Prop where
  cfg : t.cfg = config
  finLast : t.FinLast
  unheld : t.Unheld
  known : t.Known
  parted : t.Parted
  tallied : t.Tallied
  accounted : t.Accounted
  refused : ∀ frame, .tooBig frame ∈ t.trace → config.fits frame = false

theorem Move.refused (move : Move ambient t t') (configured : t.kcp.cb.Configured config)
    (refused : ∀ frame, .tooBig frame ∈ t.trace → config.fits frame = false) (frame : Bytes)
    (member : .tooBig frame ∈ t'.trace) : config.fits frame = false := by
  cases move with
  | refuse _ _ _ sent =>
      rcases List.mem_append.1 member with earlier | last
      · exact refused frame earlier
      · cases List.mem_singleton.1 last
        refine Bool.eq_false_iff.2 fun fits => ?_
        obtain ⟨_, other⟩ := Kcp.send_ok configured fits sent
        cases other
  | app event _ acted =>
      obtain ⟨_, _, _, rfl | ⟨_, rfl⟩⟩ := app_eq acted <;> exact refused frame (by simpa [log] using member)
  | recv _ taken =>
      obtain ⟨kcp, ⟨_, _, rfl⟩ | ⟨_, _, ⟨_, _, rfl⟩ | ⟨_, _, rfl⟩⟩⟩ := kcpRecv_cases taken <;>
        exact refused frame (by simpa [log] using member)
  | finish =>
      obtain ⟨_, _, only, equal⟩ := finish_eq t
      rw [equal] at member
      simp only [List.mem_append, List.mem_singleton, reduceCtorEq, or_false] at member
      refine refused frame (member.resolve_right fun reset => ?_)
      obtain ⟨_, other⟩ := only _ reset
      cases other
  | sendSyn | replySyn | sendData | sendFin | announce | deliver | drained | feed =>
      exact refused frame (by simpa [log, Task.feed, sentRecord] using member)
  | _ => exact refused frame member

theorem Move.regular (move : Move ambient t t') (regular : t.Regular config) :
    t'.Regular config where
  cfg := move.identity.1.trans regular.cfg
  finLast := move.finLast regular.finLast
  unheld := move.unheld regular.unheld
  known := move.known regular.known
  parted := move.parted regular.parted
  tallied := move.tallied regular.tallied
  accounted := move.accounted regular.accounted
  refused := move.refused (regular.cfg ▸ regular.finLast.configured) regular.refused

theorem Fresh.regular {conv : U32} {id : Bytes} (fresh : Fresh config conv id t)
    (length : conv = Kcp.synConv → id.length = config.sessionIdLen) : t.Regular config where
  cfg := fresh.cfg
  finLast := fresh.finLast
  unheld := fresh.unheld
  known side := by
    rw [fresh.sessionId, fresh.cfg]
    rcases side with client | late
    · rw [fresh.client, decide_eq_true_eq] at client
      rw [if_pos client, length client]
    · exact absurd (.inl fresh.hs) late
  parted := by simp [Parted, fresh.trace]
  tallied _ := ⟨[], by simp [sentData, fresh.trace], fun _ => rfl⟩
  accounted := fresh.accounted
  refused := by simp [fresh.trace]

/-- What is modest was modest. -/
theorem Move.modest (move : Move ambient t t') (modest : t'.Modest) : t.Modest where
  few := move.sndNxt_le.trans_lt modest.few
  small sent member := modest.small sent
    (((trace_prefix_of_moves (.single move)).filterMap Obs.sent).subset member)
  negative frame member :=
    modest.negative frame ((trace_prefix_of_moves (.single move)).subset member)

/-! ## Both tasks -/

/-- What is between two tasks that have queued `body` and `tail`, and `body'` and `tail'`. -/
structure Between (body tail body' tail' : List Payload) (x y : Task) : Prop where
  speaks : x.Speaks (body ++ tail) (body' ++ tail') y
  answers : y.Speaks (body' ++ tail') (body ++ tail) x
  out : Flow body tail x y
  back : Flow body' tail' y x

theorem Between.symm (between : Between body tail body' tail' x y) :
    Between body' tail' body tail y x :=
  ⟨between.answers, between.speaks, between.back, between.out⟩

/-- A packet with the RESET flag is the RESET packet. -/
theorem Speaks.reset {own other : List Payload} (speaks : y.Speaks own other x) {packet : Bytes}
    {cmd : Byte} (member : packet ∈ y.emitted) (command : readCmd packet = some cmd)
    (flagged : cmd &&& kcpReset ≠ 0) : .reset packet ∈ y.trace := by
  rcases mem_emitted.1 member with recorded | reset
  · obtain ⟨hs, packet, rfl, segs, some, rfl, good⟩ := speaks.said _ recorded
    cases segs with
    | nil => exact absurd rfl some
    | cons seg rest =>
        obtain ⟨plain, stamped⟩ := isCommand_and_kcpReset (good seg List.mem_cons_self).1
        unfold stamp at command
        split at command
        · rw [getD_encodePacket, writeCmd_encodePacket, readCmd_encodePacket] at command
          cases command
          exact absurd stamped flagged
        · rw [readCmd_encodePacket] at command
          cases command
          exact absurd plain flagged
  · exact reset

/-- A move that meets the FIN frame of `x` only with those who heed it. -/
theorem Move.between (move : Move ambient x x') (fits : config.handshakeFits)
    (between : Between body tail body' tail' x y) (regular : x.Regular config) (still : y.FinLast)
    (told : x.kcp.outputQueue ≠ [] → Told tail x y) (modest : x'.Modest)
    (short : y.kcp.cb.sndNxt < 2 ^ 31)
    (carried : ∀ packet, ambient.Delivered packet → packet ∈ y.emitted) : ∃ body'' tail'',
    Between body'' tail'' body' tail' x' y ∧ (tail'' = tail ∨ tail'' = [] ∨ x'.hs = .finSent) := by
  have few := move.sndNxt_le.trans_lt modest.few
  obtain ⟨own, speaks, turn⟩ := move.speaks between.speaks between.answers carried modest short
  have answers := between.answers.heard short turn.kept turn.next turn.grows
  have back := move.flow_to between.back turn between.answers between.speaks still short carried
  rcases move.sends with same | ⟨sent, trace, queues⟩
  · obtain ⟨rfl, out⟩ :=
      move.flow_same turn same between.out told between.speaks regular.finLast few
    exact ⟨body, tail, ⟨speaks, answers, out, back⟩, .inl rfl⟩
  · have frame (kind : sent.kind = .fin) : sent.frame.length ≤ x.kcp.cb.mss := by
      cases queues with
      | fin _ pending _ frame _ =>
          rw [frame, regular.known.length_handshakeFrame pending, regular.cfg,
            between.speaks.configured.mss, regular.cfg]
          exact fits
      | syn other | reply other | data other => simp [kind] at other
    obtain ⟨body'', tail'', rfl, out, state⟩ := move.flow_queue turn trace queues between.out
      between.speaks between.answers regular.finLast few frame
    exact ⟨body'', tail'', ⟨speaks, answers, out, back⟩, .inr state⟩

/-- Moves that do not give up the loop. -/
theorem Moves.between (moves : Moves ambient x x') (stays : ¬ ambient.Quits)
    (fits : config.handshakeFits) (between : Between body tail body' tail' x y)
    (regular : x.Regular config) (still : y.Regular config) (told : Told tail x y)
    (modest : x'.Modest) (short : y.kcp.cb.sndNxt < 2 ^ 31)
    (carried : ∀ packet, ambient.Delivered packet → packet ∈ y.emitted) : ∃ body'' tail'',
    Between body'' tail'' body' tail' x' y ∧ Told tail'' x' y ∧ x'.Regular config := by
  induction moves with
  | refl => exact ⟨body, tail, between, told, regular⟩
  | tail _ move inductionHypothesis =>
      obtain ⟨body, tail, between, told, regular⟩ := inductionHypothesis (move.modest modest)
      have few := move.sndNxt_le.trans_lt modest.few
      obtain ⟨body'', tail'', between', change⟩ := move.between fits between regular still.finLast
        (fun _ => told) modest short carried
      refine ⟨body'', tail'', between', ?_, move.regular regular⟩
      rcases change with rfl | rfl | state
      · exact move.told stays told between.out between.speaks regular.finLast few
          fun packet cmd arrived command flagged =>
            still.parted ⟨packet, between.answers.reset (carried packet arrived) command flagged⟩
      · exact fun some => absurd rfl some
      · intro _ _ finished
        rcases finished with other | other <;> simp [state] at other

/-- Moves of a task whose output queue is empty. -/
abbrev QuietMoves (ambient : Ambient) : Task → Task → Prop :=
  ReflTransGen fun t t' => t.kcp.outputQueue = [] ∧ Move ambient t t'

/-- Without a packet to feed, the loop may be given up. -/
theorem QuietMoves.between (moves : QuietMoves ambient x x') (fits : config.handshakeFits)
    (between : Between body tail body' tail' x y) (regular : x.Regular config)
    (still : y.Regular config) (modest : x'.Modest) (short : y.kcp.cb.sndNxt < 2 ^ 31)
    (carried : ∀ packet, ambient.Delivered packet → packet ∈ y.emitted) : ∃ body'' tail'',
    Between body'' tail'' body' tail' x' y ∧ x'.Regular config := by
  induction moves with
  | refl => exact ⟨body, tail, between, regular⟩
  | tail _ quietMove inductionHypothesis =>
      obtain ⟨quiet, move⟩ := quietMove
      obtain ⟨body, tail, between, regular⟩ := inductionHypothesis (move.modest modest)
      obtain ⟨body'', tail'', between', _⟩ := move.between fits between regular still.finLast
        (fun waits => absurd quiet waits) modest short carried
      exact ⟨body'', tail'', between', move.regular regular⟩

/-! ## The end of the loop -/

/-- A handshake has timed out, and the loop is about to be left. -/
def expired (t : Task) : Prop :=
  t.hs = .disconnected ∧ t.kcp.outputQueue = [] ∧ (t.pc = .head ∨ t.pc = .check)

/-- How a step gives up the loop: after it has fed packets, if any, it moves with an empty output
queue to a task that feeds no more. -/
def Parts (ambient : Ambient) (t t' : Task) : Prop := ∃ u, (t = u ∨ Move ambient t u) ∧
  QuietMoves ambient u t' ∧ (t'.running = false ∨ t'.expired)

theorem parts_leave (running : t.running) (quiet : t.kcp.outputQueue = [])
    (reason : t.hs = .disconnected ∨ ambient.Quits) : Parts ambient t t.leave :=
  ⟨t, .inl rfl, .single ⟨quiet, .leave t running reason⟩, .inl rfl⟩

theorem parts_feed {packets : List Bytes} (running : t.running) (part : packets <+: t.kcp.outputQueue)
    (reason : t.hs = .disconnected ∨ ambient.Quits) : Parts ambient t
      ({ t with kcp := { t.kcp with outputQueue := [] }, pc := .check }.feed packets).leave := by
  have fed : Move ambient t ({ t with kcp := { t.kcp with outputQueue := [] } }.feed packets) :=
    .feed t part running
  exact ⟨_, .inr fed, .single ⟨rfl, .leave _ running reason⟩, .inl rfl⟩

/-- A handshake runs out of time. -/
theorem parts_timeout (running : t.running) (quiet : t.kcp.outputQueue = []) (late : t.late)
    (quits : ambient.Quits) :
    Parts ambient t { t with ticks := t.ticks + 1, hs := .disconnected, pc := .head } := by
  have noted : Move ambient t _ := .note t t.flush t.hsEndTime t.lastIoTime (t.ticks + 1)
  have gone : Move ambient { t with ticks := t.ticks + 1 } _ :=
    .expire { t with ticks := t.ticks + 1 } late.1 quiet quits
  have turned : Move ambient { t with ticks := t.ticks + 1, hs := .disconnected } _ :=
    .goto { t with ticks := t.ticks + 1, hs := .disconnected } .head running (by simp)
  exact ⟨t, .inl rfl, .tail (.tail (.single ⟨quiet, noted⟩) ⟨quiet, gone⟩) ⟨quiet, turned⟩,
    .inr ⟨rfl, quiet, .inl rfl⟩⟩

/-- A step that gives up the loop. -/
theorem parts_of_quits {event : Event} (placed : t.Placed) (stepped : t.step event = some t')
    (quits : t.quits event) : Parts (t.ambient event) t t' := by
  have given : (t.ambient event).Quits := quits
  rcases transition_of_quits stepped quits with ⟨packets, pc, part, rfl⟩ | ⟨pc | pc, rfl⟩ |
    ⟨pc, late, rfl⟩
  · exact parts_feed (by simp [Task.running, pc]) part (.inr given)
  · exact parts_leave (by simp [Task.running, pc]) (placed.quiet (by simp [drained, pc])) (.inr given)
  · exact parts_leave (by simp [Task.running, pc]) (placed.quiet (by simp [drained, pc])) (.inr given)
  · exact parts_timeout (by simp [Task.running, pc]) (placed.quiet (by simp [drained, pc])) late given

/-- A step once a handshake has timed out. -/
theorem parts_of_expired {event : Event} (stepped : t.step event = some t') (expired : t.expired) :
    Parts (t.ambient event) t t' := by
  obtain ⟨gone, quiet, place⟩ := expired
  have running : t.running := by rcases place with pc | pc <;> simp [Task.running, pc]
  cases transition_of_step stepped with
  | app acted =>
      have move := @Move.app (t.ambient _) t t' _ (fun frame sends => congrArg Event.app sends) acted
      obtain ⟨_, _, _, rfl | ⟨_, rfl⟩⟩ := app_eq acted <;>
        exact ⟨t, .inl rfl, .single ⟨quiet, move⟩, .inr ⟨gone, quiet, place⟩⟩
  | @fed outcome packets _ part =>
      have fed : Move (t.ambient (.drain outcome)) t
          ({ t with kcp := { t.kcp with outputQueue := [] } }.feed packets) := .feed t part running
      exact ⟨_, .inr fed, .single ⟨rfl, .goto _ .check running (by simp)⟩, .inr ⟨gone, rfl, .inr rfl⟩⟩
  | broken _ part => exact parts_feed running part (.inl gone)
  | lapse => exact parts_leave running quiet (.inl gone)
  | panic =>
      exact ⟨t, .inl rfl, .single ⟨quiet, .goto t .panicked running (by simp)⟩, .inl rfl⟩
  | frame takes | inputEnd takes => obtain ⟨_, pc, _⟩ | ⟨_, pc⟩ := takes <;> simp [pc] at place
  | packet takes => obtain ⟨pc, _⟩ | pc := takes <;> simp [pc] at place
  | timeout _ alive | update _ alive | wait _ alive => exact absurd gone alive
  | _ => simp_all

/-- A step that gives up the loop, and any step once a handshake has timed out. -/
theorem step_parts {event : Event} (placed : t.Placed) (stepped : t.step event = some t')
    (finished : t.quits event ∨ t.expired) : Parts (t.ambient event) t t' :=
  finished.elim (parts_of_quits placed stepped) (parts_of_expired stepped)

theorem Moves.modest (moves : Moves ambient t t') (modest : t'.Modest) : t.Modest := by
  induction moves with
  | refl => exact modest
  | tail _ move inductionHypothesis => exact inductionHypothesis (move.modest modest)

/-- Every step of a task keeps what is between the two. -/
theorem step_between {event : Event} (placed : x.Placed) (stepped : x.step event = some x')
    (carried : event.carried y) (fits : config.handshakeFits)
    (between : Between body tail body' tail' x y) (regular : x.Regular config)
    (still : y.Regular config) (told : Told tail x y ∨ x.expired) (modest : x'.Modest)
    (short : y.kcp.cb.sndNxt < 2 ^ 31) : ∃ body'' tail'',
    Between body'' tail'' body' tail' x' y ∧ (Told tail'' x' y ∨ x'.expired) := by
  have delivered (packet : Bytes) (arrived : (x.ambient event).Delivered packet) :
      packet ∈ y.emitted := Event.mem_emitted carried arrived
  by_cases parting : x.quits event ∨ x.expired
  · obtain ⟨u, first, quiet, finished⟩ := step_parts placed stepped parting
    have moves : Moves (x.ambient event) u x' := ReflTransGen.mono (fun _ _ move => move.2) _ _ quiet
    have modest' := moves.modest modest
    obtain ⟨body₁, tail₁, between₁, regular₁⟩ : ∃ body₁ tail₁,
        Between body₁ tail₁ body' tail' u y ∧ u.Regular config := by
      rcases first with rfl | move
      · exact ⟨body, tail, between, regular⟩
      · obtain ⟨body₁, tail₁, between₁, _⟩ := move.between fits between regular still.finLast
          (fun waits => told.resolve_right fun expired => waits expired.2.1) modest' short delivered
        exact ⟨body₁, tail₁, between₁, move.regular regular⟩
    obtain ⟨body₂, tail₂, between₂, _⟩ :=
      quiet.between fits between₁ regular₁ still modest short delivered
    refine ⟨body₂, tail₂, between₂, finished.imp_left fun stopped => ?_⟩
    intro _ running
    rw [stopped] at running
    cases running
  · rw [not_or] at parting
    obtain ⟨body₁, tail₁, between₁, told₁, _⟩ := (step_moves placed stepped).between parting.1 fits
      between regular still (told.resolve_right parting.2) modest short delivered
    exact ⟨body₁, tail₁, between₁, .inl told₁⟩

/-- A step of the task that heeds the other one. -/
theorem step_told {event : Event} (placed : x.Placed) (stepped : x.step event = some x')
    (told : Told tail' y x) : Told tail' y x' := fun some running finished =>
  (step_moves placed stepped).invariant (fun _ _ move => move.heeds) (told some running finished)

end Task

/-! ## Runs of a pair -/

theorem reach_regular {config : Config} {allow : Task → Event → Prop} {t : Task}
    (reach : (taskMachine config).Reach allow t) : t.Regular config ∧ t.Opens := by
  refine reach.invariant (fun t => t.Regular config ∧ t.Opens) (fun t initial => ?_)
    (fun t event next prior holds _ stepped => ?_)
  · have started {conv : U32} {id : Bytes} {clock : Nat → U32}
        (length : conv = Kcp.synConv → id.length = config.sessionIdLen)
        (started : Task.start config conv id clock = some t) : t.Regular config ∧ t.Opens := by
      obtain ⟨fresh, isFresh, moves⟩ := @Task.start_moves .idle _ _ _ _ _ started
      exact ⟨moves.invariant (fun _ _ move => move.regular) (isFresh.regular length),
        Task.start_opens length started⟩
    obtain ⟨id, clock, length, start⟩ | ⟨conv, valid, clock, start⟩ := initial
    · exact started (fun _ => length) start
    · refine started (fun search => ?_) start
      rw [search] at valid
      cases valid
  · have moves := Task.step_moves (reach_placed prior) stepped
    refine @Task.Moves.invariant _ (fun t => t.Regular config ∧ t.Opens) _ _ moves
      (fun _ _ move kept => ?_) holds
    obtain ⟨regular, opens⟩ := kept
    exact ⟨move.regular regular, move.opens regular.unheld regular.known opens⟩

theorem reach_handed {config : Config} {allow : Task → Event → Prop} {t : Task}
    (reach : (taskMachine config).Reach allow t) : t.Handed := by
  refine reach.invariant Task.Handed (fun t initial => .inl ?_)
    (fun t event next prior handed allowed stepped => ?_)
  · obtain ⟨_, _, _, started⟩ | ⟨_, _, _, started⟩ := initial
    all_goals
      obtain ⟨fresh, isFresh, aside, _⟩ := Task.start_aside started
      have shown : t.shown = fresh.shown := congrArg Task.Aside.shown aside
      rw [shown, Task.shown, isFresh.trace]
      rfl
  · exact Task.step_handed (reach_placed prior) (reach_counted prior) (reach_handing prior)
      (reach_regular (.step prior allowed stepped)).1.known stepped handed

/-- What is between the two tasks of a pair. -/
def Linked (p : Pair) : Prop := ∃ body tail body' tail',
  Task.Between body tail body' tail' p.client p.server ∧
    (Task.Told tail p.client p.server ∨ p.client.expired) ∧
    (Task.Told tail' p.server p.client ∨ p.server.expired)

namespace Task

/-- Two tasks that have not begun to speak. -/
theorem Fresh.speaks {config : Config} {conv : U32} {id : Bytes} {x : Task}
    (fresh : Fresh config conv id x) (y : Task) : x.Speaks [] [] y where
  counted := fresh.empty.counted
  sound := fresh.empty.sound
  configured := by
    rw [fresh.cfg]
    exact fresh.configured
  written := ⟨by rw [fresh.empty.sndNxt]; exact Nat.zero_le _, by simp [fresh.empty.sndQueue]⟩
  tied := by
    refine ⟨fresh.empty.flying fresh.configured, fun number below => ?_, ⟨?_, ?_, ?_, ?_⟩, ?_⟩
    · rw [fresh.empty.sndNxt] at below
      cases below
    · simp [fresh.empty.rcvQueue]
    · simp [fresh.empty.rcvNxt]
    · simp [fresh.empty.rcvQueue]
    · rw [fresh.empty.rcvBuf]
      exact .nil _ _ _
    · simp [fresh.empty.acklist]
  queue := by simp [fresh.outputQueue]
  said := by simp [fresh.trace]
  resets := by simp [fresh.trace]

theorem Fresh.conveys {config : Config} {conv conv' : U32} {id id' : Bytes} {x y : Task}
    (fresh : Fresh config conv id x) (fresh' : Fresh config conv' id' y) : Conveys [] [] x y where
  framed := by
    rw [spoken, sends, fresh.trace]
    exact .nil _
  all := by
    rw [sends, fresh.trace]
    exact .nil _
  ends := by
    rw [framesEnd, sends, fresh.trace]
    rfl
  unfinished := by simp
  settled queued := by simp [finQueued, sends, fresh.trace] at queued
  notice noticed := by simp [fresh'.finRecved] at noticed

theorem Fresh.flow {config : Config} {conv conv' : U32} {id id' : Bytes} {x y : Task}
    (fresh : Fresh config conv id x) (fresh' : Fresh config conv' id' y) : Flow [] [] x y where
  toConveys := fresh.conveys fresh'
  short := by simp
  filled := by simp
  known number _ _ has := by simp [Ikcpcb.Has, fresh'.empty.rcvNxt, fresh'.empty.rcvBuf] at has
  late := by simp [emitted, fresh.trace]
  read := ⟨0, by simp, by simp [received, fresh'.trace, messages, messagesFrom], by simp, by simp,
    .inl (by simp [Ikcpcb.taken, fresh'.empty.rcvNxt])⟩

end Task

theorem Pair.linked_of_initial {config : Config} {p : Pair} (fits : config.handshakeFits)
    (initial : (pairMachine config).Initial p) (client : p.client.Modest) (server : p.server.Modest) :
    Linked p := by
  obtain ⟨⟨id, clock, length, started⟩, conv, valid, clock', started'⟩ := initial
  obtain ⟨fresh, isFresh, moves⟩ := @Task.start_moves .idle _ _ _ _ _ started
  obtain ⟨fresh', isFresh', moves'⟩ := @Task.start_moves .idle _ _ _ _ _ started'
  have regular := isFresh.regular fun _ => length
  have regular' := isFresh'.regular fun search => by
    rw [search] at valid
    cases valid
  have between : Task.Between [] [] [] [] fresh fresh' :=
    ⟨isFresh.speaks _, isFresh'.speaks _, isFresh.flow isFresh', isFresh'.flow isFresh⟩
  have quiet : ¬ Ambient.idle.Quits := not_false
  have short : fresh'.kcp.cb.sndNxt < 2 ^ 31 := by simp [isFresh'.empty.sndNxt]
  obtain ⟨body, tail, between, told, regular⟩ := moves.between quiet fits between regular regular'
    (fun some => absurd rfl some) client short (by simp [Ambient.idle])
  obtain ⟨body', tail', between', told', _⟩ := moves'.between quiet fits between.symm regular' regular
    (fun some => absurd rfl some) server client.few (by simp [Ambient.idle])
  refine ⟨body, tail, body', tail', between'.symm, .inl fun some running finished => ?_, .inl told'⟩
  exact moves'.invariant (fun _ _ move => move.heeds) (told some running finished)

variable {config : Config} {allow : Pair → PairEvent → Prop} {p : Pair}

theorem reach_linked (fits : config.handshakeFits) (reach : (pairMachine config).Reach allow p)
    (client : p.client.Modest) (server : p.server.Modest) : Linked p := by
  induction reach with
  | initial valid => exact Pair.linked_of_initial fits valid client server
  | step prior _ stepped inductionHypothesis =>
      obtain ⟨reach, reach'⟩ := reach_tasks prior
      have regular := (reach_regular reach).1
      have regular' := (reach_regular reach').1
      rcases Pair.step_cases stepped with ⟨event, _, same, carried, moved⟩ | ⟨event, _, same, carried, moved⟩
      · have placed := reach_placed reach
        have modest := (Task.step_moves placed moved).modest client
        rw [same] at server
        obtain ⟨_, _, body', tail', between, told, told'⟩ := inductionHypothesis modest server
        obtain ⟨body, tail, between, told⟩ :=
          Task.step_between placed moved carried fits between regular regular' told client server.few
        unfold Linked
        rw [same]
        exact ⟨body, tail, body', tail', between, told, told'.imp_left (Task.step_told placed moved)⟩
      · have placed := reach_placed reach'
        have modest := (Task.step_moves placed moved).modest server
        rw [same] at client
        obtain ⟨body, tail, _, _, between, told, told'⟩ := inductionHypothesis client modest
        obtain ⟨body', tail', between, told'⟩ := Task.step_between placed moved carried fits
          between.symm regular' regular told' server client.few
        unfold Linked
        rw [same]
        exact ⟨body, tail, body', tail', between.symm, told.imp_left (Task.step_told placed moved), told'⟩

namespace Task

variable {t x y : Task}

/-- What has been consumed was offered. -/
theorem Accounted.mem_offered (accounted : t.Accounted) {obs : Obs} {frame : Bytes}
    (member : obs ∈ t.trace) (consumed : obs.consumed = some frame) : frame ∈ t.offered := by
  rw [accounted]
  exact List.mem_append_left _ (List.mem_filterMap.2 ⟨obs, member, consumed⟩)

/-- A task whose application offers only frames that fit refuses none of them. -/
theorem Regular.unrefused (regular : t.Regular config) (sized : ∀ frame ∈ t.offered, config.fits frame)
    (frame : Bytes) : .tooBig frame ∉ t.trace := by
  intro member
  have fit := sized frame (regular.accounted.mem_offered member rfl)
  rw [regular.refused frame member] at fit
  cases fit

/-- A task whose application offers only frames that `max_frame_size` allows is modest. -/
theorem Regular.modest (regular : t.Regular config) (opens : t.Opens)
    (keyed : config.sessionKey.length + config.sessionIdLen < 2 ^ 32)
    (few : t.kcp.cb.sndNxt < 2 ^ 31)
    (sized : ∀ frame ∈ t.offered, frame.length ≤ (Kcp.maxFrameSize config.mtu).toNat) : t.Modest where
  few := few
  small sent member := by
    obtain ⟨obs, inside, record⟩ := List.mem_filterMap.1 member
    rw [← regular.cfg] at keyed
    have most := (Kcp.maxFrameSize config.mtu).isLt
    have data (kind : sent.kind = .data) : sent.frame.length < 2 ^ 32 := by
      have offered : sent.frame ∈ t.offered := by
        refine regular.accounted.mem_offered inside ?_
        cases obs with
        | send other =>
            cases record
            rw [Obs.consumed, if_pos kind]
        | _ => cases record
      exact (sized _ offered).trans_lt most
    rcases opens with ⟨none, _⟩ | ⟨syn, rest, sends, _, length, later, _⟩
    · rw [none] at member
      cases member
    · rw [sends, List.mem_cons] at member
      rcases member with rfl | member
      · omega
      · rcases later sent member with kind | ⟨_, length⟩
        · exact data kind
        · omega
  negative frame member := by
    have refused := regular.refused frame member
    have size := sized frame (regular.accounted.mem_offered member rfl)
    have most := (Kcp.maxFrameSize config.mtu).isLt
    have long : 2 ^ 31 ≤ frame.length := by
      simpa [Config.fits, size] using refused
    rw [BitVec.toInt_eq_toNat_cond, BitVec.toNat_ofNat, Nat.mod_eq_of_lt (by omega)]
    split <;> omega

/-- What `y` has shown its application is what the application of `x` has put into the input
channel first: frame by frame, or in streaming mode byte by byte. -/
def Delivers (x y : Task) : Prop :=
  if x.cfg.stream then y.shown.flatten <+: x.offered.flatten else y.shown <+: x.offered

/-- What comes after two parts of one length is a prefix as the whole is. -/
theorem prefix_of_append {front front' rest rest' : Bytes} (length : front.length = front'.length)
    (whole : front ++ rest <+: front' ++ rest') : rest <+: rest' := by
  obtain ⟨more, equal⟩ := whole
  rw [List.append_assoc] at equal
  exact ⟨more, (List.append_inj equal length).2⟩

theorem Flow.delivers {body tail : List Payload} (flow : Flow body tail x y)
    (regular : x.Regular config) (opens : x.Opens) (cfg : y.cfg = config) (handed : y.Handed)
    (some : ∀ frame ∈ x.offered, frame ≠ []) (taken : ∀ frame, .tooBig frame ∉ x.trace) :
    x.Delivers y := by
  have sentData := regular.tallied.sentData_prefix regular.accounted taken
  have same : y.cfg = x.cfg := cfg.trans regular.cfg.symm
  rcases handed with nothing | ⟨syn, length, shown⟩
  · rw [Delivers, nothing]
    split <;> exact List.nil_prefix
  · obtain ⟨count, _, received, whole, _⟩ := flow.read
    obtain ⟨message, merged⟩ := flow.framed.read whole
    rw [← received] at message merged
    rw [same] at length
    unfold Delivers
    cases mode : x.cfg.stream with
    | false =>
        rw [if_neg (by simp)]
        have frames := shown.trans (message mode)
        obtain ⟨none, _⟩ | ⟨first, size, spoken⟩ := opens.spoken
        · simp [none] at frames
        · have data : x.sentData.filter (fun frame => frame ≠ []) = x.sentData :=
            List.filter_eq_self.2 fun frame member =>
              decide_eq_true (some frame (sentData.subset member))
          rw [spoken, List.filter_cons, data] at frames
          split at frames
          · exact (List.cons_prefix_cons.1 frames).2.trans sentData
          · -- Without a key and an id the SYN frame would be empty, and is never received.
            rename_i empty
            have empty : first = [] := by simpa using empty
            have missing : syn = [] := by
              rw [empty, List.length_nil] at size
              exact List.eq_nil_of_length_eq_zero (length.trans size.symm)
            have member : syn ∈ x.sentData := frames.subset List.mem_cons_self
            exact absurd missing (some syn (sentData.subset member))
    | true =>
        rw [if_pos rfl]
        have bytes := shown.flatten.trans (merged mode)
        obtain ⟨none, _⟩ | ⟨first, size, spoken⟩ := opens.spoken
        · rw [none, List.flatten_nil, List.prefix_nil, List.flatten_cons, List.append_eq_nil_iff] at bytes
          rw [bytes.2]
          exact List.nil_prefix
        · rw [spoken, List.flatten_cons, List.flatten_cons] at bytes
          exact (prefix_of_append (length.trans size.symm) bytes).trans sentData.flatten

end Task

/-- Each application has been shown a prefix of what the other one has sent, in every run of a
pair in which the handshake frames fit one segment, fewer than `2 ^ 31` segments are sent each
way, and every frame is one that `max_frame_size` allows and has fewer than `2 ^ 31` bytes. -/
theorem frames_prefix (fits : config.handshakeFits) (reach : (pairMachine config).Reachable p)
    (few : p.client.kcp.cb.sndNxt < 2 ^ 31 ∧ p.server.kcp.cb.sndNxt < 2 ^ 31)
    (sized : ∀ frame ∈ p.client.offered ++ p.server.offered,
      frame ≠ [] ∧ frame.length ≤ (Kcp.maxFrameSize config.mtu).toNat)
    (short : ∀ frame ∈ p.client.offered ++ p.server.offered, frame.length < 2 ^ 31) :
    p.client.Delivers p.server ∧ p.server.Delivers p.client := by
  obtain ⟨reach', reach''⟩ := reach_tasks reach
  obtain ⟨regular, opens⟩ := reach_regular reach'
  obtain ⟨regular', opens'⟩ := reach_regular reach''
  have fit (frame : Bytes) (member : frame ∈ p.client.offered ++ p.server.offered) :
      config.fits frame := by
    simp only [Config.fits, Bool.and_eq_true, decide_eq_true_eq]
    exact ⟨(sized frame member).2, short frame member⟩
  have keyed : config.sessionKey.length + config.sessionIdLen < 2 ^ 32 := by
    have most := regular.finLast.configured.most
    rw [regular.cfg] at most
    unfold Config.handshakeFits at fits
    omega
  have client := regular.modest opens keyed few.1 fun frame member =>
    (sized frame (List.mem_append_left _ member)).2
  have server := regular'.modest opens' keyed few.2 fun frame member =>
    (sized frame (List.mem_append_right _ member)).2
  obtain ⟨body, tail, body', tail', between, _⟩ := reach_linked fits reach client server
  exact ⟨between.out.delivers regular opens regular'.cfg (reach_handed reach'')
      (fun frame member => (sized frame (List.mem_append_left _ member)).1)
      (regular.unrefused fun frame member => fit frame (List.mem_append_left _ member)),
    between.back.delivers regular' opens' regular.cfg (reach_handed reach')
      (fun frame member => (sized frame (List.mem_append_right _ member)).1)
      (regular'.unrefused fun frame member => fit frame (List.mem_append_right _ member))⟩

/-! ## Concrete runs -/

/-- A configuration in message mode whose `max_frame_size` is beyond a C integer. -/
def wideConfig : Config := { mtu := 9000000, stream := false, sessionIdLen := 1 }

/-- The SYN frames of a client with session id `[7]` and of a server for conv 1 are exchanged. -/
def greetingEvents : List PairEvent :=
  [.client (.drain .sent), .client .tau, .server (.drain .sent), .server .tau,
    .server (.packet (encodePacket [{ pushSeg Kcp.synConv 0 0 [7] with wnd := 256 }])),
    .server .noPacket, .server .tau, .server .tau, .server (.drain .sent), .server .tau,
    .client (.packet (encodePacket [{ conv := 1, cmd := ikcpCmdAck, wnd := 256, una := 1 },
      { pushSeg 1 0 1 [7] with wnd := 256 }])),
    .client .noPacket, .client .tau, .client .tau, .client (.drain .sent), .client .tau]

/-- The application of the client sends the frame `[9]`, to be queued at the next turn of the
input branch. -/
def offerEvents : List PairEvent := [.client (.app .reserve), .client (.app (.startSend [9]))]

/-- The frame is queued, flushed and delivered. -/
def handOverEvents : List PairEvent :=
  [.client .tau, .client .tau, .client (.drain .sent), .client .tau, .client (.drain .sent),
    .client .tau, .server (.packet (encodePacket [{ conv := 1, cmd := ikcpCmdAck, wnd := 256, una := 1 },
      { pushSeg 1 1 1 [9] with wnd := 256, ts := 100 }])),
    .server .noPacket, .server .tau, .server .tau, .server (.drain .sent), .server .tau,
    .server (.reserve true)]

/-- The clock of the client: the data of the application is flushed 100 ms later. -/
def lateClock (reading : Nat) : U32 := if reading < 5 then 0 else 100

/-- A frame is sent and shown. -/
theorem frames_prefix_shown : ∃ p, (pairMachine wideConfig).Reachable p ∧
    p.server.shown = [[9]] ∧ p.client.offered = [[9]] ∧ p.client.Delivers p.server := by
  have run : (pairRun wideConfig 1 [7] lateClock (fun _ => 0)
        (greetingEvents ++ offerEvents ++ [.client .recvInput] ++ handOverEvents)).map (fun p =>
          (p.server.shown, p.client.offered, p.server.offered, p.client.kcp.cb.sndNxt,
            p.server.kcp.cb.sndNxt)) = some ([[9]], [[9]], [], 2, 1) := by decide +kernel
  obtain ⟨p, executed, view⟩ := Option.map_eq_some_iff.1 run
  simp only [Prod.mk.injEq] at view
  obtain ⟨shown, offered, none, next, next'⟩ := view
  have reach := reach_of_pairRun rfl rfl executed
  refine ⟨p, reach, shown, offered, ( frames_prefix ?_ reach ?_ ?_ ?_).1⟩
  · unfold Config.handshakeFits
    decide
  · rw [next, next']
    decide
  · rw [offered, none]
    decide
  · rw [offered, none]
    decide

/-- The length of the frame is negative as a C integer, and the frame is dropped. -/
theorem Task.refused_frame {t : Task} {frame : Bytes} (inside : t.pc = .select)
    (stream : t.hasStream) (idle : t.inputRx = {}) (opened : t.inputClosed = false)
    (room : t.kcp.isSendQueueFull = false) (long : 2 ^ 31 ≤ frame.length)
    (short : frame.length < 2 ^ 32) : ∃ first second, t.step (.app .reserve) = some first ∧
      first.step (.app (.startSend frame)) = some second ∧ second.step .recvInput = some { t with
        pc := .inputMore, trace := t.trace ++ [.accepted frame, .tooBig frame] } := by
  have negative : (BitVec.ofNat 32 frame.length).toInt < 0 := by
    rw [BitVec.toInt_eq_toNat_cond, BitVec.toNat_ofNat, Nat.mod_eq_of_lt short]
    split <;> omega
  have some : frame ≠ [] := by
    rintro rfl
    simp at long
  have refused : t.kcp.send frame = .some (.error .invalidInput, t.kcp) := by
    rw [Kcp.send, if_neg some, ikcpSend, if_pos negative]
    rfl
  refine ⟨{ t with inputRx := { permit := true } },
    ({ t with inputRx := { queue := [frame] } }.log (.accepted frame)), ?_, ?_, ?_⟩
  · simp [Task.step, Task.app, stream, idle]
  · simp [Task.step, Task.app]
  · simp [Task.step, Task.recvInput, Task.log, inside, opened, room, Task.processInput, refused,
      Task.goto, idle]

/-- What has been offered stays. -/
theorem offered_of_exec {permits : Pair → PairEvent → Bool} {events : List PairEvent} {p' : Pair}
    (reach : (pairMachine config).Reachable p)
    (executed : (pairMachine config).exec permits p events = some p') :
    p.client.offered <+: p'.client.offered := by
  induction events generalizing p with
  | nil =>
      cases executed
      exact List.prefix_refl _
  | cons event rest inductionHypothesis =>
      unfold Machine.exec at executed
      split at executed
      · obtain ⟨next, stepped, executed⟩ := Option.bind_eq_some_iff.1 executed
        refine List.IsPrefix.trans ?_ (inductionHypothesis (.step reach trivial stepped) executed)
        rcases Pair.step_cases stepped with ⟨_, _, _, _, moved⟩ | ⟨_, _, same, _, _⟩
        · have moves := Task.step_moves (reach_placed (reach_tasks reach).1) moved
          exact (Task.trace_prefix_of_moves moves).filterMap Obs.offered
        · rw [same]
      · cases executed

/-- A frame of `2 ^ 31` zero bytes. -/
def hugeFrame : Bytes := List.replicate (2 ^ 31) 0

theorem length_hugeFrame : hugeFrame.length = 2 ^ 31 :=
  by rw [hugeFrame, List.length_replicate]

/-- The pair after the client has dropped the huge frame. -/
def Pair.dropHuge (p : Pair) : Pair :=
  { p with client := { p.client with
      pc := .inputMore, trace := p.client.trace ++ [.accepted hugeFrame, .tooBig hugeFrame] } }

/-- The huge frame is put into the input channel and dropped. -/
theorem reach_dropHuge (reach : (pairMachine config).Reachable p) (inside : p.client.pc = .select)
    (stream : p.client.hasStream) (idle : p.client.inputRx = {})
    (opened : p.client.inputClosed = false) (room : p.client.kcp.isSendQueueFull = false) :
    (pairMachine config).Reachable p.dropHuge := by
  have turn {t t' : Task} {event : Event} (carried : event.carried p.server)
      (stepped : t.step event = some t')
      (reach : (pairMachine config).Reachable { p with client := t }) :
      (pairMachine config).Reachable { p with client := t' } := by
    have transition : Pair.step { p with client := t } (.client event) =
        some { p with client := t' } := by
      rw [Pair.step, if_pos carried, stepped]
      rfl
    exact @Machine.Reach.step _ _ (pairMachine config) _ _ _ (.client event) reach trivial transition
  obtain ⟨first, second, reserve, start, refused⟩ := Task.refused_frame inside stream idle opened room
    length_hugeFrame.ge (by rw [length_hugeFrame]; decide)
  exact turn rfl refused (turn rfl start (turn rfl reserve reach))

/-- A frame that `max_frame_size` allows is dropped, and the frame after it is shown. -/
theorem frames_prefix_refused : ∃ p, wideConfig.handshakeFits ∧ (pairMachine wideConfig).Reachable p ∧
    (p.client.kcp.cb.sndNxt < 2 ^ 31 ∧ p.server.kcp.cb.sndNxt < 2 ^ 31) ∧
    (∀ frame ∈ p.client.offered ++ p.server.offered,
      frame ≠ [] ∧ frame.length ≤ (Kcp.maxFrameSize wideConfig.mtu).toNat) ∧
    ¬ p.client.Delivers p.server := by
  have greeting : (pairRun wideConfig 1 [7] lateClock (fun _ => 0) greetingEvents).map (fun p =>
      (p.client.hasStream && !p.client.inputClosed && !p.client.kcp.isSendQueueFull, p.client.pc,
        p.client.inputRx, p.client.offered)) = some (true, .select, {}, []) := by decide +kernel
  have rest : ((pairRun wideConfig 1 [7] lateClock (fun _ => 0) greetingEvents).bind fun p =>
      (pairMachine wideConfig).exec (fun _ _ => true) p.dropHuge
        (offerEvents ++ [.client .tau] ++ handOverEvents)).map (fun p =>
          (p.server.shown, p.client.offered.tail, p.server.offered, p.client.kcp.cb.sndNxt,
            p.server.kcp.cb.sndNxt)) = some ([[9]], [[9]], [], 2, 1) := by decide +kernel
  obtain ⟨p, executed, view⟩ := Option.map_eq_some_iff.1 greeting
  simp only [Prod.mk.injEq, Bool.and_eq_true, Bool.not_eq_true'] at view
  obtain ⟨⟨⟨stream, opened⟩, room⟩, inside, idle, nothing⟩ := view
  have reach := reach_dropHuge (reach_of_pairRun rfl rfl executed) inside stream idle opened room
  rw [executed, Option.bind_some] at rest
  obtain ⟨p', executed', view⟩ := Option.map_eq_some_iff.1 rest
  simp only [Prod.mk.injEq] at view
  obtain ⟨shown, tail, none, next, next'⟩ := view
  have reach' := Machine.reach_of_exec (fun _ _ _ => trivial) reach executed'
  have mode : p'.client.cfg.stream = false := by
    rw [reach_cfg (reach_tasks reach').1]
    rfl
  have offered : p'.client.offered = [hugeFrame, [9]] := by
    have first : p.dropHuge.client.offered = [hugeFrame] := by
      have before : p.client.trace.filterMap Obs.offered = [] := nothing
      simp only [Pair.dropHuge, Task.offered, List.filterMap_append, before, List.nil_append]
      rfl
    obtain ⟨more, equal⟩ := first ▸ offered_of_exec reach executed'
    rw [← equal, List.singleton_append, List.tail_cons] at tail
    rw [← equal, tail, List.singleton_append]
  refine ⟨p', ?_, reach', ?_, ?_, ?_⟩
  · unfold Config.handshakeFits
    decide
  · rw [next, next']
    decide
  · rw [offered, none]
    simp only [List.append_nil, List.mem_cons, List.not_mem_nil, or_false]
    rintro frame (rfl | rfl)
    · exact ⟨List.length_pos_iff.1 (by rw [length_hugeFrame]; decide), by
        rw [length_hugeFrame]; decide⟩
    · decide
  · intro delivers
    rw [Task.Delivers, mode, if_neg (by simp), shown, offered, List.cons_prefix_cons] at delivers
    have length := length_hugeFrame
    rw [← delivers.1] at length
    simp at length

end KcpRs
