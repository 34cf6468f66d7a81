import KcpRs.Stream.Delivery

/-!
# The order of the handshake

The state of the handshake only advances, `Output::Connected` is sent with the step from
`Syn` to `Connected` and with no other, and a frame reaches the application only after it.
The state is written in many places of `run`, but only the end of a batch of packets can
leave `Syn` for `Connected` (`step_early`), and it does so with a SYN frame of the right
form.
-/

namespace KcpRs

open Lib Relation

namespace Task

variable {ambient : Ambient} {t t' : Task}

/-- What a step shows the application: unless it is the end of a batch it reports no
connection, and a frame only when the connection has been reported. -/
def Shows (t t' : Task) : Prop := t'.reports = t.reports ∧ (t'.shown = t.shown ∨ t.hasStream)

theorem shows_of_kcpRecv {frame : Option Bytes} (taken : t.kcpRecv = some (frame, t')) :
    t.Shows t' :=
  ⟨(congrArg Aside.reports (kcpRecv_aside taken)).trans rfl,
    .inl ((congrArg Aside.shown (kcpRecv_aside taken)).trans rfl)⟩

theorem shows_feed (t : Task) (packets : List Bytes) : t.Shows (t.feed packets) := by
  refine ⟨?_, .inl (congrArg Front.shown (front_feed t packets))⟩
  simp [reports, feed, List.countP_map, Function.comp_def, Obs.connects]

/-- A frame that is sent to the output channel after the SYN handshake. -/
theorem shows_frame (announced : t.hasStream) (frame : Bytes) :
    t.Shows (t.log (.output (.frame frame))) :=
  ⟨by simp [reports, log, Obs.connects], .inr announced⟩

/-- The end of `run` reports no connection and shows no frame. -/
theorem shows_finish (t : Task) : t.Shows t.finish := by
  obtain ⟨ticks, resets, silent, equal⟩ := finish_eq t
  have unconnected : resets.countP Obs.connects = 0 := by
    refine List.countP_eq_zero.2 fun obs member => ?_
    obtain ⟨now, rfl⟩ := silent obs member
    simp [Obs.connects]
  have unshown : resets.filterMap Obs.shown = [] := by
    refine List.filterMap_eq_nil_iff.2 fun obs member => ?_
    obtain ⟨now, rfl⟩ := silent obs member
    rfl
  rw [equal]
  refine ⟨?_, .inl ?_⟩
  · simp [reports, unconnected, Obs.connects]
  · simp [shown, unshown, Obs.shown]

/-- Every step but the end of a batch reports no connection. -/
theorem step_shows {event : Event} (handing : t.Handing) (stepped : t.step event = some t')
    (elsewhere : ¬ (t.pc = .batchDone ∧ t' = t.batchDone)) : t.Shows t' := by
  have announced (inside : t.selected) (later : t.hs ≠ .syn) : t.hasStream := by
    refine (handing.ordered ?_ (handing.going inside)).announced later
    unfold selected at inside
    unfold running
    split at inside <;> simp_all
  cases transition_of_step stepped with
  | app acted =>
      obtain ⟨inputRx, token, outputOpen, rfl | ⟨frame, rfl⟩⟩ := app_eq acted
      · exact ⟨rfl, .inl rfl⟩
      · exact ⟨by simp [reports, log, Obs.connects], .inl (congrArg Front.shown (front_log rfl))⟩
  | fed | broken =>
      exact shows_feed { t with kcp := { t.kcp with outputQueue := [] }, pc := .check } _
  | frame _ _ _ sent =>
      have same := (receiver_processInput sent).2
      exact ⟨congrArg Aside.reports same, .inl (congrArg Aside.shown same)⟩
  | inputClosed _ transit =>
      have same := (kept_kcpFlush _).trans (kept_finTransitLoop transit)
      exact ⟨congrArg (Aside.reports ∘ Kept.aside) same, .inl (congrArg (Aside.shown ∘ Kept.aside) same)⟩
  | inputFlush | held =>
      have same := kept_kcpFlush t
      exact ⟨congrArg (Aside.reports ∘ Kept.aside) same, .inl (congrArg (Aside.shown ∘ Kept.aside) same)⟩
  | @permit frame pc stash =>
      have later : t.hs ≠ .syn := by
        intro early
        have ordered := handing.ordered (by simp [running, pc])
          (handing.going (by simp [selected, pc]))
        simp [(ordered.stash_of_syn early).2] at stash
      exact shows_frame (t := { t with txFrame := none, pc := .permitLoop })
        (announced (by simp [selected, pc]) later) frame
  | @more frame later pc taken =>
      have announced := announced (by simp [selected, pc]) (handing.looping pc).1
      refine ⟨?_, .inr announced⟩
      rw [← (shows_of_kcpRecv taken : t.Shows later).1]
      simp [reports, log, Obs.connects]
  | stash _ taken | emptied _ taken =>
      obtain ⟨reports, shown⟩ := shows_of_kcpRecv taken
      exact ⟨reports, shown⟩
  | packet _ taken =>
      have same := kcpInput_aside taken
      exact ⟨congrArg Aside.reports same, .inl (congrArg Aside.shown same)⟩
  | batchDone pc _ equal => exact absurd ⟨pc, equal⟩ elsewhere
  | @fetched frame later _ _ taken =>
      obtain ⟨reports, shown⟩ := shows_of_kcpRecv taken
      have same := congrArg Kept.aside (kept_kcpFlush { later with txFrame := frame })
      refine ⟨Eq.trans (congrArg Aside.reports same) reports, ?_⟩
      exact shown.imp_left (Eq.trans (congrArg Aside.shown same))
  | thrown =>
      exact ⟨by simp [reports, log, Obs.connects], .inl (by simp [shown, log, Obs.shown])⟩
  | finish => exact shows_finish t
  | _ => exact ⟨rfl, .inl rfl⟩

/-- The trace of a SYN handshake that connects the task: the session key with a session id,
which for a client is its own, and the report. -/
def Connects (t t' : Task) : Prop := ∃ id replies conv, id.length = t.cfg.sessionIdLen ∧
  (t.client → id = t.sessionId) ∧ t'.sessionId = id ∧
  t'.trace = t.trace ++ .recv (t.cfg.sessionKey ++ id) ::
    (replies ++ [.output (.connected conv)])

/-- The end of a batch connects the task, or shows nothing and does not. -/
theorem BatchEnd.shows (ended : t.BatchEnd t') : t'.shown = t.shown ∧
    (t.hs = .syn ∧ t'.hs = .connected ∧ t'.reports = t.reports + 1 ∧ t.Connects t' ∨
      ¬ (t.hs = .syn ∧ t'.hs = .connected) ∧ t'.reports = t.reports) := by
  cases ended with
  | @greeted later early received =>
      obtain idle | ⟨id, replies, length, own, _, state, same, trace⟩ := synHandshakeRecv_true received
      · obtain ⟨reports, shown⟩ : later.reports = t.reports ∧ later.shown = t.shown :=
          ⟨congrArg Aside.reports (kcpRecv_aside idle), congrArg Aside.shown (kcpRecv_aside idle)⟩
        have state : later.hs = .syn := (kcpRecv_hs idle).trans early
        exact ⟨shown, .inr ⟨fun both => by simp [state] at both, reports⟩⟩
      · have shown : later.shown = t.shown := congrArg Aside.shown same
        have reports : later.reports = t.reports + 1 := congrArg Aside.reports same
        exact ⟨shown, .inl ⟨early, state, reports, id, replies, _, length, own,
          congrArg Aside.sessionId same, trace⟩⟩
  | refused _ received =>
      obtain ⟨reports, shown⟩ := synHandshakeRecv_false received
      exact ⟨shown, .inr ⟨fun both => Handshake.noConfusion both.2, reports⟩⟩
  | @closing later started _ transit =>
      have same : later.aside = t.aside := congrArg Kept.aside (kept_finTransitLoop transit)
      exact ⟨congrArg Aside.shown same, .inr ⟨fun both => started both.1, congrArg Aside.reports same⟩⟩
  | passed started => exact ⟨rfl, .inr ⟨fun both => started both.1, rfl⟩⟩
  | panic => exact ⟨rfl, .inr ⟨fun both => Handshake.noConfusion (both.1.symm.trans both.2), rfl⟩⟩

/-- The end of a batch keeps a task in the SYN handshake or connects it. -/
theorem BatchEnd.early (ended : t.BatchEnd t') (early : t.hs = .syn) :
    t'.Early ∨ t'.hs = .connected := by
  cases ended with
  | greeted _ received => exact (synHandshakeRecv_pc early received).2.imp .inl id
  | refused => exact .inl (.inr rfl)
  | closing started | passed started => exact absurd early started
  | panic => exact .inl (.inl early)

/-- Every frame that was sent to the output channel was sent after `Output::Connected`. -/
def Preceded (t : Task) : Prop := ∀ before frame after,
  t.trace = before ++ .output (.frame frame) :: after → before.any Obs.connects

/-- A step that shows a frame comes after the stream is handed out. -/
theorem Preceded.step (preceded : t.Preceded) (extends_ : t.trace <+: t'.trace)
    (shows_ : t'.shown = t.shown ∨ t.hasStream) : t'.Preceded := by
  intro before frame after split
  obtain ⟨extra, trace⟩ := extends_
  -- A frame among the new observations is one that the step has shown.
  have new (rest : List Obs) (added : extra = rest ++ .output (.frame frame) :: after) :
      t.hasStream := by
    refine shows_.resolve_left fun same => ?_
    rw [shown, shown, ← trace, List.filterMap_append, added] at same
    simp [Obs.shown] at same
  rw [split] at trace
  rcases List.append_eq_append_iff.1 trace with ⟨rest, rfl, added⟩ | ⟨rest, old, added⟩
  · rw [List.any_append, show t.trace.any Obs.connects from new rest added]
    rfl
  · cases rest with
    | nil =>
        rw [List.append_nil] at old
        rw [← old]
        exact new [] added.symm
    | cons obs rest =>
        obtain ⟨rfl, _⟩ := List.cons_eq_cons.1 added
        exact preceded before frame rest old

/-- The connection is reported once, after the SYN handshake and before every frame. -/
structure Reported (t : Task) : Prop where
  once : t.reports ≤ 1
  early : t.hs = .syn → t.reports = 0
  preceded : t.Preceded

/-- Exactly the step from `Syn` to `Connected` reports the connection. -/
theorem step_reports {event : Event} (handing : t.Handing) (stepped : t.step event = some t') :
    (t'.shown = t.shown ∨ t.hasStream) ∧
      (t.hs = .syn ∧ t'.hs = .connected ∧ t'.reports = t.reports + 1 ∧ t.Connects t' ∨
        ¬ (t.hs = .syn ∧ t'.hs = .connected) ∧ t'.reports = t.reports) := by
  by_cases done : t.pc = .batchDone ∧ t' = t.batchDone
  · obtain ⟨_, rfl⟩ := done
    exact ⟨.inl (batchEnd t).shows.1, (batchEnd t).shows.2⟩
  · have unconnected : ¬ (t.hs = .syn ∧ t'.hs = .connected) := fun both =>
      done (step_connected stepped both.1 both.2)
    obtain ⟨reports, shown⟩ := step_shows handing stepped done
    exact ⟨shown, .inr ⟨unconnected, reports⟩⟩

/-- Every step keeps the reports in order. -/
theorem step_reported {event : Event} (placed : t.Placed) (handing : t.Handing)
    (reported : t.Reported) (stepped : t.step event = some t') : t'.Reported := by
  obtain ⟨shown, change⟩ := step_reports handing stepped
  have moves := step_moves placed stepped
  have preceded := reported.preceded.step (trace_prefix_of_moves moves) shown
  have syn (early : t'.hs = .syn) : t.hs = .syn := by
    have advance := moves.advances
    rw [early] at advance
    exact Handshake.rank_eq_zero.1 (Nat.le_zero.1 advance)
  rcases change with ⟨early, connected, reports, _⟩ | ⟨_, reports⟩
  · have none := reported.early early
    exact ⟨by omega, fun early' => by simp [connected] at early', preceded⟩
  · have once := reported.once
    exact ⟨by omega, fun early => reports.trans (reported.early (syn early)), preceded⟩

end Task

/-- The task of every reachable state is configured by `config`. -/
theorem reach_cfg {config : Config} {allow : Task → Event → Prop} {t : Task}
    (reach : (taskMachine config).Reach allow t) : t.cfg = config :=
  reach_invariant (fun _ _ _ fresh => fresh.cfg)
    (fun _ _ _ move same => move.identity.1.trans same) reach

/-- In every run. -/
theorem reach_reported {config : Config} {allow : Task → Event → Prop} {t : Task}
    (reach : (taskMachine config).Reach allow t) : t.Reported := by
  refine reach.invariant Task.Reported (fun t initial => ?_)
    (fun t event next prior reported _ stepped => Task.step_reported (reach_placed prior)
      (reach_handing prior) reported stepped)
  obtain ⟨conv, id, clock, started⟩ : ∃ conv id clock, Task.start config conv id clock = some t := by
    obtain ⟨id, clock, _, started⟩ | ⟨conv, _, clock, started⟩ := initial <;>
      exact ⟨_, _, clock, started⟩
  obtain ⟨fresh, isFresh, same, _⟩ := Task.start_aside started
  have reports : t.reports = 0 := by
    refine (congrArg Task.Aside.reports same).trans ?_
    simp [Task.aside, Task.reports, isFresh.trace]
  have shown : t.shown = [] := by
    refine (congrArg Task.Aside.shown same).trans ?_
    simp [Task.aside, Task.shown, isFresh.trace]
  refine ⟨by omega, fun _ => reports, fun before frame after split => ?_⟩
  simp [Task.shown, split, Obs.shown] at shown

/-- The order of the handshake, over every run: its state never decreases (so `Disconnected`
is never left); `Output::Connected` is sent by the steps from `Syn` to `Connected` and by no
other, at most once and before every frame; and such a step has taken a frame of the session
key and a session id of the configured length, for a client its own session id. -/
theorem handshake_order (config : Config) :
    (∀ t t', (taskMachine config).Reachable t →
      (taskMachine config).Steps (fun _ _ => True) t t' → t.hs.rank ≤ t'.hs.rank) ∧
    (∀ t event t', (taskMachine config).Reachable t →
      (taskMachine config).step t event = some t' →
      t'.reports = t.reports + if t.hs = .syn ∧ t'.hs = .connected then 1 else 0) ∧
    (∀ t, (taskMachine config).Reachable t → t.reports ≤ 1 ∧ ∀ before frame after,
      t.trace = before ++ .output (.frame frame) :: after → before.any Obs.connects) ∧
    ∀ t event t', (taskMachine config).Reachable t →
      (taskMachine config).step t event = some t' → t.hs = .syn → t'.hs ≠ .syn →
      t'.hs ≠ .disconnected → t'.hs = .connected ∧ ∃ id replies conv,
        id.length = config.sessionIdLen ∧ (t.client → id = t.sessionId) ∧ t'.sessionId = id ∧
        t'.trace = t.trace ++ .recv (config.sessionKey ++ id) ::
          (replies ++ [.output (.connected conv)]) := by
  refine ⟨fun t t' reach steps => ?_, fun t event t' reach stepped => ?_, fun t reach => ?_,
    fun t event t' reach stepped early later alive => ?_⟩
  · induction steps with
    | refl => exact le_rfl
    | step prior _ transition inductionHypothesis =>
        have moves := Task.step_moves (reach_placed (reach.steps prior)) transition
        exact inductionHypothesis.trans moves.advances
  · obtain ⟨_, ⟨early, connected, reports, _⟩ | ⟨unconnected, reports⟩⟩ :=
      Task.step_reports (reach_handing reach) stepped
    · rw [if_pos ⟨early, connected⟩, reports]
    · rw [if_neg unconnected, reports, Nat.add_zero]
  · have reported := reach_reported reach
    exact ⟨reported.once, reported.preceded⟩
  · have connected : t'.hs = .connected := by
      rcases Task.step_early stepped early with ⟨pc, rfl⟩ | syn | finished
      · exact ((Task.batchEnd t).early early).resolve_left (not_or.2 ⟨later, alive⟩)
      · exact absurd syn later
      · exact absurd finished alive
    obtain ⟨_, ⟨_, _, _, connects⟩ | ⟨unconnected, _⟩⟩ :=
      Task.step_reports (reach_handing reach) stepped
    · rw [← reach_cfg reach]
      exact ⟨connected, connects⟩
    · exact absurd ⟨early, connected⟩ unconnected

/-- The step in which a client takes its SYN reply reports the connection. -/
theorem handshake_order_reply : ∃ t t', (taskMachine sampleConfig).Reachable t ∧
    (taskMachine sampleConfig).step t .tau = some t' ∧ t.hs = .syn ∧ t'.hs = .connected ∧
      t'.reports = t.reports + 1 ∧ t.hs.rank ≤ t'.hs.rank := by
  have run : (clientRun sampleConfig [7] (fun _ => 0) (fun _ _ => true) replyEvents).map (fun t =>
      (t.hs, ((taskMachine sampleConfig).step t .tau).map Task.hs)) =
      some (.syn, some .connected) := by decide +kernel
  obtain ⟨t, executed, view⟩ := Option.map_eq_some_iff.1 run
  simp only [Prod.mk.injEq, Option.map_eq_some_iff] at view
  obtain ⟨before, t', stepped, after⟩ := view
  have reach : (taskMachine sampleConfig).Reachable t :=
    reach_of_clientRun (fun _ _ _ => trivial) rfl executed
  obtain ⟨advances, reports, _⟩ := handshake_order sampleConfig
  have reported := reports t .tau t' reach stepped
  rw [if_pos ⟨before, after⟩] at reported
  exact ⟨t, t', reach, stepped, before, after, reported,
    advances t t' reach (.step .refl trivial stepped)⟩

end KcpRs
