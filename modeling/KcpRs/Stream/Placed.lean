import KcpRs.Stream.Transition

/-!
# Steps are moves

Every step of `run` is a sequence of moves (`step_moves`). The guards that need to
know where the task is come from `Placed`, which holds in every reachable state
(`reach_placed`): between the drain of the output queue and the next flush the
queue is empty, so nothing that was sent before the FIN frame can be stamped with its
flag.
-/

namespace KcpRs

open Lib Relation

namespace Task

variable {ambient : Ambient} {t t' : Task}

/-- The part of `run` in which the output queue has been drained and nothing is
flushed. -/
def drained (t : Task) : Bool :=
  match t.pc with
  | .check | .select | .inputMore | .inputDone _ | .permitLoop => true
  | _ => false

/-- The part of `run` that takes packets. -/
def taking (t : Task) : Bool :=
  match t.pc with
  | .batch _ | .batchDone => true
  | _ => false

/-- A FIN handshake goes on only after the input channel was closed or a FIN packet
arrived. -/
def Reasoned (t : Task) : Prop :=
  t.hs = .finPending ∨ t.hs = .finSent ∨ t.hs = .finWaitPeer → t.inputClosed ∨ t.finRecved

/-- What the program counter says about the rest of the task. -/
structure Located (t : Task) : Prop where
  quiet : t.drained → t.kcp.outputQueue = []
  hushed : t.taking → t.Hushed
  opened : t.pc = .inputMore → t.inputClosed = false
  ended : t.pc = .inputDone true → t.inputRx.exhausted

/-- Where the task is, and why it is in a FIN handshake. -/
structure Placed (t : Task) : Prop extends Located t where
  reason : t.Reasoned
  unannounced : t.Unannounced

/-- Where the task is next is no move of its own. -/
theorem Moves.goto {later : Task} (moves : Moves ambient t later) (pc : Pc)
    (running : later.running) (stays : pc ≠ .draining ∧ pc ≠ .exited) :
    Moves ambient t { later with pc } :=
  .tail moves (.goto later pc running stays)

/-- A panic is one move. -/
theorem panic_moves (running : t.running) : Moves ambient t t.panic :=
  .single (.goto t .panicked running (by simp))

/-- Queueing a frame leaves control and the closed flag alone. -/
theorem processInput_kept {frame : Bytes} (moved : t.processInput frame = some t') :
    t'.pc = t.pc ∧ t'.inputClosed = t.inputClosed ∧
      t'.kcp.outputQueue = t.kcp.outputQueue := by
  unfold processInput at moved
  split at moved
  · cases moved
  · rename_i size kcp sent
    cases moved
    obtain ⟨_, rfl⟩ | ⟨_, _, rfl⟩ := Kcp.send_eq sent <;> exact ⟨rfl, rfl, rfl⟩
  · rename_i error kcp refused
    cases moved
    obtain ⟨_, rfl⟩ | ⟨_, _, rfl⟩ := Kcp.send_eq refused <;> exact ⟨rfl, rfl, rfl⟩

/-- `kcp_recv` leaves control alone. -/
theorem kcpRecv_running {frame : Option Bytes} (taken : t.kcpRecv = some (frame, t')) :
    t'.running = t.running := by
  obtain ⟨kcp, ⟨_, _, rfl⟩ | ⟨_, _, ⟨_, _, rfl⟩ | ⟨_, _, rfl⟩⟩⟩ := kcpRecv_cases taken <;> rfl

/-- Taking a packet reaches neither the application nor the frames received so far. -/
theorem kcpInput_aside {packet : Bytes} (moved : t.kcpInput packet = some t') :
    t'.aside = t.aside := by
  obtain ⟨_, kcp, _, ⟨_, rfl⟩ | ⟨_, _, stray⟩ | ⟨_, cmd, _, flags⟩⟩ := kcpInput_cases moved
  · rfl
  · obtain rfl | ⟨_, _, _, _, _, _, rfl, _⟩ := synHandshakeInput_cases stray <;> rfl
  · obtain ⟨_, rfl⟩ | ⟨_, _, noticed⟩ | ⟨_, _, rfl⟩ := flags
    · rfl
    · obtain ⟨later, _, _, transit, _, rfl⟩ := finInput_eq noticed
      exact (congrArg Kept.aside (kept_finTransitLoop transit)).trans (aside_noticeFin _)
    · rfl

theorem kcpInput_pc {packet : Bytes} (moved : t.kcpInput packet = some t') : t'.pc = t.pc :=
  congrArg Aside.pc (kcpInput_aside moved)

/-- `connect` leaves control alone and ends the SYN handshake. -/
theorem connect_eq {ok : Bool} (connected : t.connect = (ok, t')) :
    t'.pc = t.pc ∧ t'.hs = .connected := by
  obtain ⟨_, rfl⟩ | ⟨_, _, rfl⟩ := connect_cases connected <;> exact ⟨rfl, rfl⟩

/-- The SYN handshake leaves control alone: it waits or connects. -/
theorem synHandshakeRecv_pc {ok : Bool} (state : t.hs = .syn)
    (received : t.synHandshakeRecv = some (ok, t')) :
    t'.pc = t.pc ∧ (t'.hs = .syn ∨ t'.hs = .connected) := by
  obtain ⟨_, taken⟩ | ⟨syn, later, taken, outcome⟩ := synHandshakeRecv_cases received
  · obtain ⟨kcp, ⟨_, _, rfl⟩ | ⟨_, _, ⟨_, _, rfl⟩ | ⟨_, _, rfl⟩⟩⟩ := kcpRecv_cases taken <;>
      exact ⟨rfl, .inl state⟩
  · obtain ⟨kcp, _, _, rfl⟩ := kcpRecv_some taken
    obtain ⟨_, _, rfl⟩ | ⟨_, _, connected⟩ | ⟨_, id, sent, _, accepted, connected⟩ := outcome
    · exact ⟨rfl, .inl state⟩
    · obtain ⟨same, reached⟩ := connect_eq connected
      exact ⟨same, .inr reached⟩
    · obtain ⟨same, reached⟩ := connect_eq connected
      have before := pc_of_kept (kept_handshakeSend accepted)
      exact ⟨same.trans before, .inr reached⟩

/-- A flush is not reported: its packets are taken from the queue later. -/
theorem trace_kcpFlush (t : Task) : t.kcpFlush.trace = t.trace := by
  unfold kcpFlush
  split <;> rfl

/-- A handshake that fails shows the application nothing. -/
theorem synHandshakeRecv_false (received : t.synHandshakeRecv = some (false, t')) :
    t'.reports = t.reports ∧ t'.shown = t.shown := by
  obtain ⟨failed, _⟩ | ⟨syn, later, taken, outcome⟩ := synHandshakeRecv_cases received
  · cases failed
  · have same : later.reports = t.reports ∧ later.shown = t.shown := by
      obtain ⟨kcp, _, _, rfl⟩ := kcpRecv_some taken
      simp [reports, shown, Obs.shown, log, Obs.connects]
    have silent {t : Task} (connected : t.connect = (false, t')) :
        t'.reports = t.reports ∧ t'.shown = t.shown := by
      obtain ⟨succeeded, _⟩ | ⟨_, _, rfl⟩ := connect_cases connected
      · cases succeeded
      · exact ⟨rfl, rfl⟩
    obtain ⟨_, _, rfl⟩ | ⟨_, _, connected⟩ | ⟨_, id, sent, _, accepted, connected⟩ := outcome
    · exact same
    · obtain ⟨reports, shown⟩ := silent connected
      exact ⟨reports.trans same.1, shown.trans same.2⟩
    · obtain ⟨reports, shown⟩ := silent connected
      have replied := congrArg Kept.aside (kept_handshakeSend accepted)
      have reports' : sent.reports = later.reports := congrArg Aside.reports replied
      have shown' : sent.shown = later.shown := congrArg Aside.shown replied
      exact ⟨(reports.trans reports').trans same.1, (shown.trans shown').trans same.2⟩

theorem hasStream_of_reports (same : t'.reports = t.reports) : t'.hasStream = t.hasStream := by
  rw [Bool.eq_iff_iff, hasStream, hasStream, List.any_eq_true, List.any_eq_true,
    ← List.countP_pos_iff, ← List.countP_pos_iff]
  exact Iff.of_eq (congrArg (0 < ·) same)

/-- The end of a batch makes the moves of the handshake. -/
theorem BatchEnd.moves (ended : t.BatchEnd t') (running : t.running) (hushed : t.Hushed)
    (unannounced : t.Unannounced) (reason : t.Reasoned) : Moves ambient t t' := by
  cases ended with
  | greeted early received =>
      have inside := running_of_pc (synHandshakeRecv_pc early received).1 running
      exact Moves.goto (synHandshakeRecv_moves running early received) .fetch inside (by simp)
  | @refused later early received =>
      obtain ⟨pc, state⟩ := synHandshakeRecv_pc early received
      have unknown := (hasStream_of_reports (synHandshakeRecv_false received).1).trans (unannounced early)
      exact Moves.goto (.tail (synHandshakeRecv_moves running early received)
        (.abort later state unknown)) .fetch (running_of_pc pc running) (by simp)
  | closing _ finishing transit =>
      have started : t.hs = .finPending ∨ t.hs = .finSent ∨ t.hs = .finWaitPeer := by
        simp only [isFinHandshake, Bool.or_eq_true, decide_eq_true_eq] at finishing
        exact finishing.imp_right .inl
      exact Moves.goto (finTransitLoop_moves running hushed unannounced (reason started) transit) .fetch
        (running_of_kept (kept_finTransitLoop transit) running) (by simp)
  | passed => exact .single (.goto t _ running (by simp))
  | panic => exact panic_moves running

/-- The input channel is looked at between a drain and the next flush, as long as it is open. -/
theorem Located.takesInput {event : Event} (located : t.Located) (takes : t.TakesInput event) :
    t.running ∧ t.kcp.outputQueue = [] ∧ t.inputClosed = false := by
  obtain ⟨_, pc, opened⟩ | ⟨_, pc⟩ := takes
  · exact ⟨by simp [running, pc], located.quiet (by simp [drained, pc]), opened⟩
  · exact ⟨by simp [running, pc], located.quiet (by simp [drained, pc]), located.opened pc⟩

/-- Packets are taken in silence before a FIN frame. -/
theorem Located.takesPacket {room : Nat} (located : t.Located) (takes : t.TakesPacket room) :
    t.running ∧ t.Hushed := by
  obtain ⟨pc, _⟩ | pc := takes
  · exact ⟨by simp [running, pc], fun _ => located.quiet (by simp [drained, pc])⟩
  · exact ⟨by simp [running, pc], located.hushed (by simp [taking, pc])⟩

/-- Every step of `run` is a sequence of moves. -/
theorem step_moves {event : Event} (placed : t.Placed) (stepped : t.step event = some t') :
    Moves (t.ambient event) t t' := by
  have run {pc : Pc} (at_ : t.pc = pc) (inside : ({ t with pc } : Task).running) : t.running := by
    subst at_
    exact inside
  have timed : Move (t.ambient event) _ _ := .note t t.flush t.hsEndTime t.lastIoTime (t.ticks + 1)
  have gone {pc : Pc} (at_ : t.pc = pc) (inside : ({ t with pc } : Task).running)
      (quits : t.quits event) : Moves (t.ambient event) t t.leave :=
    .single (.leave t (run at_ inside) (.inr quits))
  cases transition_of_step stepped with
  | app acted => exact .single (.app _ (fun _ same => congrArg Event.app same) acted)
  | fed pc part => exact Moves.goto (.single (.feed t part (run pc rfl))) .check (run pc rfl) (by simp)
  | broken pc part ends =>
      exact .tail (Moves.goto (.single (.feed t part (run pc rfl))) .check (run pc rfl) (by simp))
        (.leave _ rfl (.inr (by simpa [ambient, quits, pc] using ends)))
  | lapse pc reason =>
      by_cases disconnected : t.hs = .disconnected
      · exact .single (.leave t (run pc rfl) (.inl disconnected))
      · exact gone pc rfl (by simp [quits, pc, disconnected, reason.resolve_left disconnected])
  | timeout pc alive late =>
      have expired : Move (t.ambient .tau) _ _ := .expire { t with ticks := t.ticks + 1 } late.1
        (placed.quiet (by simp [drained, pc]))
        (by simp [ambient, quits, pc, alive, lapsed_iff.2 (.inr late)])
      exact Moves.goto (.tail (.single timed) expired) .head (run pc rfl) (by simp)
  | update pc =>
      have updated : Move (t.ambient .tau) _ _ := .update { t with ticks := t.ticks + 1 } (t.clock t.ticks)
      exact Moves.goto (.tail (.single timed) updated) .head (run pc rfl) (by simp)
  | wait pc => exact Moves.goto (.single timed) .select (run pc rfl) (by simp)
  | frame takes room queued sent =>
      obtain ⟨inside, _, opened⟩ := placed.takesInput takes
      have inside' := running_of_pc (processInput_kept sent).1 inside
      exact .tail (processInput_moves queued opened inside room sent) (.goto _ _ inside' (by simp))
  | inputEnd takes => exact .single (.goto t _ (placed.takesInput takes).1 (by simp))
  | inputClosed pc transit =>
      have shut : Move (t.ambient .tau) _ _ := .closeInput t (run pc rfl) (placed.ended pc)
      have quiet := placed.quiet (by simp [drained, pc])
      have moves : Moves (t.ambient .tau) { t with inputClosed := true } _ :=
        finTransitLoop_moves (run pc rfl) (fun _ => quiet) placed.unannounced (.inl rfl) transit
      have same := (kept_kcpFlush _).trans (kept_finTransitLoop transit)
      exact Moves.goto (.trans (.head shut moves) (kcpFlush_moves _)) .head
        (running_of_kept same (run pc rfl)) (by simp)
  | inputFlush pc =>
      exact Moves.goto (kcpFlush_moves t) .head
        (running_of_kept (kept_kcpFlush t) (run pc rfl)) (by simp)
  | permit pc =>
      have emptied : Move (t.ambient (.reserve true)) _ _ := .stash t none
      have entered : Move (t.ambient (.reserve true)) _ _ :=
        .goto { t with txFrame := none } .permitLoop (run pc rfl) (by simp)
      exact .tail (.tail (.single emptied) entered) (.deliver _ _ rfl)
  | unread pc => exact gone pc rfl (by simp [quits, pc])
  | more pc taken =>
      have inside := (kcpRecv_running taken).trans (run pc rfl)
      exact .tail (.single (.recv (run pc rfl) taken)) (.deliver _ _ inside)
  | @stash frame later pc taken =>
      have inside := (kcpRecv_running taken).trans (run pc rfl)
      exact Moves.goto (.tail (.single (.recv (run pc rfl) taken)) (.stash later (some frame))) .head
        inside (by simp)
  | emptied pc taken =>
      have inside := (kcpRecv_running taken).trans (run pc rfl)
      exact Moves.goto (.single (.recv (run pc rfl) taken)) .head inside (by simp)
  | packet takes taken =>
      obtain ⟨inside, hushed⟩ := placed.takesPacket takes
      exact Moves.goto (kcpInput_moves inside hushed placed.unannounced rfl taken) _
        (running_of_pc (kcpInput_pc taken) inside) (by simp)
  | noPacket pc => exact .single (.goto t _ (run pc rfl) (by simp))
  | batchDone pc ended =>
      exact ended.moves (run pc rfl) (placed.hushed (by simp [taking, pc])) placed.unannounced
        placed.reason
  | held pc =>
      exact Moves.goto (kcpFlush_moves t) .head
        (running_of_kept (kept_kcpFlush t) (run pc rfl)) (by simp)
  | fetched pc _ taken =>
      have inside := (kcpRecv_running taken).trans (run pc rfl)
      exact Moves.goto (.trans (.tail (.single (.recv (run pc rfl) taken)) (.stash _ _))
        (kcpFlush_moves _)) .head (running_of_kept (kept_kcpFlush _) inside) (by simp)
  | transportEnd pc => exact gone pc rfl (by simp [quits, pc])
  | sleep pc => exact .single (.goto t _ (run pc rfl) (by simp))
  | cancelled pc => exact gone pc rfl (by simp [quits, pc])
  | thrown pc queued => exact .single (.drained t pc queued)
  | finish pc => exact .single (.finish t pc)
  | panic inside => exact panic_moves inside

/-! ## Placement is kept -/

theorem hushed_finTransitLoop {fuel : Nat} (hushed : t.Hushed)
    (moved : finTransitLoop fuel t = some t') : t'.Hushed := by
  refine finTransitLoop_invariant Hushed moved (fun before after turn hushed => ?_) hushed
  cases turn with
  | pend state => exact fun _ => hushed (by simp [beforeFin, state])
  | _ => exact fun early => by simp [beforeFin] at early

theorem hushed_kcpInput {packet : Bytes} (hushed : t.Hushed)
    (moved : t.kcpInput packet = some t') : t'.Hushed := by
  have input {kcp kcp' : Kcp} {packet : Bytes} {result : Except ErrorKind Unit}
      (taken : kcp.input packet = some (result, kcp')) : kcp'.outputQueue = kcp.outputQueue := by
    obtain ⟨_, rfl⟩ := Kcp.input_eq taken
    rfl
  obtain ⟨_, kcp, taken, outcome⟩ := kcpInput_cases moved
  have entered : { t with kcp }.Hushed := fun before => (input taken).trans (hushed before)
  obtain ⟨_, rfl⟩ | ⟨_, _, stray⟩ | ⟨_, cmd, _, flags⟩ := outcome
  · exact entered
  · obtain rfl | ⟨_, _, _, _, _, again, rfl, _⟩ := synHandshakeInput_cases stray
    · exact entered
    · exact fun before => (input again).trans (entered before)
  · obtain ⟨_, rfl⟩ | ⟨_, _, noticed⟩ | ⟨_, _, rfl⟩ := flags
    · exact fun before => by simp [beforeFin] at before
    · obtain ⟨later, _, _, transit, again, rfl⟩ := finInput_eq noticed
      have hushed' : later.Hushed := by
        refine hushed_finTransitLoop (fun before => ?_) transit
        rw [kcp_noticeFin]
        exact entered (by rwa [beforeFin, hs_noticeFin] at before)
      exact fun before => (input again).trans (hushed' before)
    · exact entered

/-- A FIN handshake keeps its reason. -/
theorem Move.reasoned (move : Move ambient t t') (holds : t.Reasoned) : t'.Reasoned := by
  cases move with
  | app event _ acted =>
      obtain ⟨_, _, _, rfl | ⟨_, rfl⟩⟩ := app_eq acted <;> exact holds
  | recv _ taken =>
      obtain ⟨kcp, ⟨_, _, rfl⟩ | ⟨_, _, ⟨_, _, rfl⟩ | ⟨_, _, rfl⟩⟩⟩ := kcpRecv_cases taken <;>
        exact holds
  | sendFin _ state closed => exact fun _ => .inl closed
  | pend state reason => exact fun _ => reason
  | waitPeer state => exact fun _ => holds (.inr (.inl state))
  | noticeFin => exact fun _ => .inr rfl
  | closeInput => exact fun _ => .inl rfl
  | finish =>
      obtain ⟨_, _, _, equal⟩ := finish_eq t
      rw [equal]
      exact holds
  | replySyn => exact fun state => by simp [log] at state
  | connect => exact fun state => by simp at state
  | reset => exact fun state => by simp at state
  | abort => exact fun state => by simp at state
  | done => exact fun state => by simp at state
  | expire => exact fun state => by simp at state
  | _ => exact holds

theorem hasStream_log {obs : Obs} (plain : ∀ conv, obs ≠ .output (.connected conv)) :
    (t.log obs).hasStream = t.hasStream := by
  cases obs with
  | output value =>
      cases value with
      | connected conv => exact absurd rfl (plain conv)
      | frame bytes => simp [hasStream, log, Obs.connects]
  | _ => simp [hasStream, log, Obs.connects]

theorem hasStream_congr (trace : t'.trace = t.trace) : t'.hasStream = t.hasStream := by
  rw [hasStream, hasStream, trace]

theorem hasStream_feed (t : Task) (packets : List Bytes) :
    (t.feed packets).hasStream = t.hasStream := by
  simp [Task.hasStream, Task.feed, List.any_map, Function.comp_def, Obs.connects]

/-- Only the announcement lets the application hold its stream. -/
theorem Move.hasStream (move : Move ambient t t') :
    t'.hasStream = t.hasStream ∨ t.hs = .connected ∧ t.running ∧ t'.hs = t.hs ∧
      t' = t.log (.output (.connected t.kcp.cb.conv)) := by
  cases move with
  | app event _ acted =>
      obtain ⟨_, _, _, rfl | ⟨_, rfl⟩⟩ := app_eq acted
      · exact .inl rfl
      · exact .inl (hasStream_log (by simp))
  | recv _ taken =>
      obtain ⟨kcp, ⟨_, _, rfl⟩ | ⟨_, _, ⟨_, _, rfl⟩ | ⟨_, _, rfl⟩⟩⟩ := kcpRecv_cases taken
      · exact .inl rfl
      · exact .inl (hasStream_log (by simp))
      · exact .inl (hasStream_log (by simp))
  | finish =>
      obtain ⟨_, resets, plain, equal⟩ := finish_eq t
      rw [equal]
      refine .inl ?_
      have silent : resets.any Obs.connects = false := by
        refine List.any_eq_false.2 fun obs member => ?_
        obtain ⟨bytes, rfl⟩ := plain obs member
        simp [Obs.connects]
      simp [Task.hasStream, Obs.connects, silent]
  | feed taken => exact .inl (hasStream_feed _ _)
  | announce state running => exact .inr ⟨state, running, rfl, rfl⟩
  | sendSyn => exact .inl (hasStream_log (by simp [sentRecord]))
  | replySyn => exact .inl (hasStream_log (by simp [sentRecord]))
  | sendData => exact .inl (hasStream_log (by simp [sentRecord]))
  | sendFin => exact .inl (hasStream_log (by simp [sentRecord]))
  | refuse => exact .inl (hasStream_log (by simp))
  | deliver => exact .inl (hasStream_log (by simp))
  | drained => exact .inl (hasStream_log (by simp))
  | _ => exact .inl rfl

/-- No move hands out the stream while the SYN handshake is on. -/
theorem Move.unannounced (move : Move ambient t t') (holds : t.Unannounced) :
    t'.Unannounced := by
  intro state
  have before : t.hs = .syn := by
    cases move with
    | app event _ acted =>
        obtain ⟨_, _, _, rfl | ⟨_, rfl⟩⟩ := app_eq acted <;> exact state
    | recv _ taken =>
        obtain ⟨kcp, ⟨_, _, rfl⟩ | ⟨_, _, ⟨_, _, rfl⟩ | ⟨_, _, rfl⟩⟩⟩ := kcpRecv_cases taken <;>
          exact state
    | finish =>
        obtain ⟨_, _, _, equal⟩ := finish_eq t
        rw [equal] at state
        exact state
    | replySyn => simp [log] at state
    | sendFin => simp [log] at state
    | connect | reset | abort | done | expire | pend | waitPeer => simp at state
    | _ => exact state
  rcases move.hasStream with same | ⟨connected, _⟩
  · exact same.trans (holds before)
  · rw [before] at connected
    cases connected

/-- Nothing is asked of the other points of `run`. -/
theorem Located.elsewhere (undrained : t.drained = false) (outside : t.taking = false) :
    t.Located where
  quiet inside := by simp [undrained] at inside
  hushed inside := by simp [outside] at inside
  opened pc := by simp [drained, pc] at undrained
  ended pc := by simp [drained, pc] at undrained

theorem kcpRecv_outputQueue {frame : Option Bytes} (taken : t.kcpRecv = some (frame, t')) :
    t'.kcp.outputQueue = t.kcp.outputQueue := by
  obtain ⟨_, _, engine⟩ := kcpRecv_kcp taken
  rw [engine]

/-- Every step leaves the task where its state allows it to be. -/
theorem step_located {event : Event} (placed : t.Placed) (stepped : t.step event = some t') :
    t'.Located := by
  have quiet {pc : Pc} (at_ : t.pc = pc) (inside : ({ t with pc } : Task).drained) :
      t.kcp.outputQueue = [] := placed.quiet (by subst at_; exact inside)
  cases transition_of_step stepped with
  | app acted =>
      have ended := exhausted_app acted
      obtain ⟨_, _, _, rfl | ⟨_, rfl⟩⟩ := app_eq acted <;>
        exact ⟨placed.quiet, placed.hushed, placed.opened, fun pc => ended (placed.ended pc)⟩
  | fed =>
      exact ⟨fun _ => rfl, fun inside => by simp [taking, feed] at inside,
        fun pc => by simp [feed] at pc, fun pc => by simp [feed] at pc⟩
  | wait pc =>
      exact ⟨fun _ => quiet pc rfl, fun inside => by simp [taking] at inside,
        fun at_ => by simp at at_, fun at_ => by simp at at_⟩
  | frame takes _ _ sent =>
      obtain ⟨_, empty, opened⟩ := placed.takesInput takes
      obtain ⟨_, closed, queue⟩ := processInput_kept sent
      exact ⟨fun _ => queue.trans empty, fun inside => by simp [taking] at inside,
        fun _ => closed.trans opened, fun at_ => by simp at at_⟩
  | inputEnd takes ended =>
      exact ⟨fun _ => (placed.takesInput takes).2.1, fun inside => by simp [taking] at inside,
        fun at_ => by simp at at_, fun at_ => ended (Pc.inputDone.inj at_)⟩
  | permit pc =>
      exact ⟨fun _ => quiet pc rfl, fun inside => by simp [taking, log] at inside,
        fun at_ => by simp [log] at at_, fun at_ => by simp [log] at at_⟩
  | @more _ later pc taken =>
      have empty := (kcpRecv_outputQueue taken).trans (quiet pc rfl)
      have inside : later.pc = .permitLoop := (congrArg Aside.pc (kcpRecv_aside taken)).trans pc
      exact ⟨fun _ => empty, fun at_ => by simp [taking, log, inside] at at_,
        fun at_ => by simp [log, inside] at at_, fun at_ => by simp [log, inside] at at_⟩
  | packet takes taken =>
      have hushed := hushed_kcpInput (placed.takesPacket takes).2 taken
      exact ⟨fun inside => by simp [drained] at inside, fun _ => hushed, fun at_ => by simp at at_,
        fun at_ => by simp at at_⟩
  | noPacket pc =>
      exact ⟨fun inside => by simp [drained] at inside,
        fun _ => placed.hushed (by simp [taking, pc]), fun at_ => by simp at at_,
        fun at_ => by simp at at_⟩
  | batchDone _ ended => cases ended <;> exact .elsewhere rfl rfl
  | thrown pc => exact .elsewhere (by simp [drained, log, pc]) (by simp [taking, log, pc])
  | finish =>
      obtain ⟨_, _, _, equal⟩ := finish_eq t
      rw [equal]
      exact .elsewhere rfl rfl
  | _ => exact .elsewhere rfl rfl

/-- Placement is kept by every step. -/
theorem step_placed {event : Event} (placed : t.Placed) (stepped : t.step event = some t') :
    t'.Placed where
  toLocated := step_located placed stepped
  reason := (step_moves placed stepped).invariant (fun _ _ move => move.reasoned) placed.reason
  unannounced := (step_moves placed stepped).invariant (fun _ _ move => move.unannounced)
    placed.unannounced

end Task
end KcpRs
