import KcpRs.Pair.Delivery
import KcpRs.Pair.Loss

/-!
# Graceful shutdown

In every run in which neither task gives up its loop and no step is one that drops a frame of the
other task (`Task.loses`), an application whose task has left its loop has been shown all that
`Kcp::send` took from the other application.
-/

namespace KcpRs

open Lib Relation

namespace Task

/-! ## What is to be shown -/

/-- The last segment of a frame does not wait for its acknowledgement any more. -/
def acknowledged (t : Task) (sent : Sent) : Prop :=
  sent.upto ≤ t.kcp.cb.sndNxt ∧ ∀ seg ∈ t.kcp.cb.sndBuf, seg.sn ≠ BitVec.ofNat 32 (sent.upto - 1)

instance (t : Task) (sent : Sent) : Decidable (t.acknowledged sent) :=
  inferInstanceAs (Decidable (_ ∧ _))

/-- The frames of the application among records. -/
def dataOf (sends : List Sent) : List Bytes :=
  (sends.filter fun sent => sent.kind = .data).map Sent.frame

/-- The application of `y` has been shown every frame of `x` that was acknowledged, and those
before it: frame by frame, or in streaming mode byte by byte. An empty frame is not sent. -/
def Yields (x y : Task) : Prop := ∀ earlier sent later, x.sends = earlier ++ sent :: later →
  sent.kind = .data → x.acknowledged sent → if x.cfg.stream then
    (dataOf (earlier ++ [sent])).flatten <+: y.shown.flatten
  else (dataOf (earlier ++ [sent])).filter (fun frame => frame ≠ []) <+: y.shown

variable {ambient : Ambient} {config : Config} {t t' u x x' y y' : Task}

/-! ## What has been read -/

variable {body body' body'' tail tail' other : List Payload}

/-- How far `y` has read what `x` has queued: complete messages of `body`, or all of `body` and
frames that come after it. -/
inductive Gathers (body : List Payload) (x y : Task) : Prop where
  | within (inside : y.kcp.cb.taken ≤ body.length) (whole : Whole (body.take y.kcp.cb.taken))
      (received : y.received = messages (body.take y.kcp.cb.taken))
  | beyond (rest : List Bytes) (finished : x.finQueued) (past : body.length ≤ y.kcp.cb.taken)
      (received : y.received = messages body ++ rest)
      (last : y.txFrame.isSome → body.length < y.kcp.cb.taken → rest ≠ [])

/-- A step that takes nothing out of the receive queue gathers nothing. -/
theorem Gathers.stays (gathers : Gathers body x y) (stays : y.Stays y') : Gathers body x y' := by
  have taken := stays.taken
  cases gathers with
  | within inside whole received =>
      rw [← taken] at inside whole received
      exact .within inside whole (stays.received.trans received)
  | beyond rest finished past received last =>
      rw [← taken] at past last
      exact .beyond rest finished past (stays.received.trans received)
        fun held => last (stays.stash held)

/-- When all of `body` has been taken, its messages have been received. -/
theorem Gathers.all (gathers : Gathers body x y) (past : body.length ≤ y.kcp.cb.taken) :
    ∃ rest, y.received = messages body ++ rest := by
  cases gathers with
  | within inside _ received =>
      rw [List.take_of_length_le past] at received
      exact ⟨[], by rw [received, List.append_nil]⟩
  | beyond rest _ _ received _ => exact ⟨rest, received⟩

/-- A call of `kcp_recv` that drops nothing of `body` takes what comes next. -/
theorem Gathers.recv (gathers : Gathers body x y) (conveys : Conveys body tail x y)
    (tied : y.kcp.cb.Tied (At other) x.kcp.cb.Has (At (body ++ tail)) x.kcp.cb.sndNxt)
    (written : x.kcp.cb.Written (body ++ tail)) (few : x.kcp.cb.sndNxt < 2 ^ 31)
    (counted : y.kcp.cb.Counted) {frame : Option Bytes} (taken : y.kcpRecv = some (frame, y'))
    (read : y.discards → body.length ≤ y.kcp.cb.taken) :
    Gathers body x { y' with txFrame := frame } := by
  obtain ⟨rfl, same, still⟩ | ⟨discards, rfl, same, more⟩ | ⟨_, bytes, rfl, added, more, queue, next⟩ :=
    conveys.recv tied few counted taken
  · exact gathers.stays ⟨still, same, by simp⟩
  · have past := read discards
    obtain ⟨rest, received⟩ := gathers.all past
    exact .beyond rest (conveys.notice discards.1) (past.trans more.le) (same.trans received) (by simp)
  · by_cases unread : y.kcp.cb.taken < body.length
    · obtain ⟨fits, part, equal, ends, message⟩ := next unread
      cases gathers with
      | within _ whole received =>
          refine .within fits ?_ ?_
          · rw [equal]
            exact whole.append ends
          · rw [equal, messages_append whole, message, ← received]
            exact added
      | beyond _ _ past => omega
    · -- The frame is one that was queued after `body`.
      have past : body.length ≤ y.kcp.cb.taken := by omega
      obtain ⟨rest, received⟩ := gathers.all past
      have behind : tail ≠ [] := by
        rintro rfl
        have occupied := List.length_pos_iff.2 queue
        have next := tied.arrived.rcvNxt_eq
        have most := tied.arrived.most.trans written.most
        rw [List.append_nil] at most
        omega
      refine .beyond (rest ++ [bytes]) (conveys.unfinished behind) (past.trans more.le) ?_ (by simp)
      rw [← List.append_assoc, ← received]
      exact added

/-- What a sender does to `body`: what has been numbered stays, and nothing changes when the FIN
frame is queued. -/
structure Grows (x : Task) (body body' : List Payload) : Prop where
  numbered : ∀ count ≤ x.kcp.cb.sndNxt, body'.take count = body.take count
  finished : x.finQueued → body' = body

theorem Grows.refl (x : Task) (body : List Payload) : x.Grows body body := ⟨fun _ _ => rfl, fun _ => rfl⟩

/-- What has been numbered stays over both parts of a run. -/
theorem Grows.trans (grows : x.Grows body body') (grows' : x'.Grows body' body'')
    (next : x.kcp.cb.sndNxt ≤ x'.kcp.cb.sndNxt) (finished : x.finQueued → x'.finQueued) :
    x.Grows body body'' where
  numbered count inside :=
    (grows'.numbered count (inside.trans next)).trans (grows.numbered count inside)
  finished queued := (grows'.finished (finished queued)).trans (grows.finished queued)

/-- A FIN frame that is queued stays queued. -/
theorem finQueued_of_moves (moves : Moves ambient t t') (queued : t.finQueued) : t'.finQueued := by
  obtain ⟨sent, member, kind⟩ := queued
  exact ⟨sent, ((trace_prefix_of_moves moves).filterMap Obs.sent).subset member, kind⟩

/-- A turn of the sender. -/
theorem Gathers.sender (gathers : Gathers body x y) (grows : x.Grows body body')
    (numbered : y.kcp.cb.taken ≤ x.kcp.cb.sndNxt) (finished : x.finQueued → x'.finQueued) :
    Gathers body' x' y := by
  cases gathers with
  | within inside whole received =>
      have same := grows.numbered _ numbered
      rw [← same] at whole received
      refine .within ?_ whole received
      have length := congrArg List.length same
      simp only [List.length_take] at length
      omega
  | beyond rest queued past received last =>
      rw [grows.finished queued]
      exact .beyond rest (finished queued) past received last

/-! ## Both tasks -/

/-- What two tasks know of each other and convey to each other. -/
structure Joined (body tail body' tail' : List Payload) (x y : Task) : Prop where
  speaks : x.Speaks (body ++ tail) (body' ++ tail') y
  answers : y.Speaks (body' ++ tail') (body ++ tail) x
  out : Conveys body tail x y
  back : Conveys body' tail' y x

/-- The two ends are alike. -/
theorem Joined.symm (joined : Joined body tail body' tail' x y) : Joined body' tail' body tail y x :=
  ⟨joined.answers, joined.speaks, joined.back, joined.out⟩

/-- A move of one task keeps what the two have in common. -/
theorem Move.joined (move : Move ambient x x') (joined : Joined body tail body' tail' x y)
    (inv : x.FinLast) (still : y.FinLast) (modest : x'.Modest) (short : y.kcp.cb.sndNxt < 2 ^ 31)
    (carried : ∀ packet, ambient.Delivered packet → packet ∈ y.emitted) : ∃ body'' tail'',
    Joined body'' tail'' body' tail' x' y ∧ x.Grows body body'' ∧
      Turn (body ++ tail) (body'' ++ tail'') x x' := by
  obtain ⟨own, speaks, turn⟩ := move.speaks joined.speaks joined.answers carried modest short
  have answers := joined.answers.heard short turn.kept turn.next turn.grows
  have back := move.conveys_to joined.back turn joined.answers still short carried
  rcases move.sends with same | ⟨sent, trace, queues⟩
  · obtain ⟨rfl, out⟩ := move.conveys_same turn same joined.out
    exact ⟨body, tail, ⟨speaks, answers, out, back⟩, .refl x body, turn⟩
  · obtain ⟨_, unfinished, body'', tail'', rfl, out, kept, _⟩ :=
      move.conveys_queue turn trace queues joined.out joined.speaks inv
    refine ⟨body'', tail'', ⟨speaks, answers, out, back⟩, ⟨fun count inside => ?_,
      fun queued => absurd queued unfinished⟩, turn⟩
    have cut := congrArg (List.take count) kept
    rwa [List.take_take, List.take_take, Nat.min_eq_left inside] at cut

/-! ## The end of a task -/

/-- The loop is left, and the RESET packet sent, in `Disconnected` only. -/
structure Departed (t : Task) : Prop where
  left : t.left → t.hs = .disconnected
  reset : ∀ bytes, .reset bytes ∈ t.trace → t.hs = .disconnected

/-- No move leads out of `Disconnected`. -/
theorem Move.disconnected (move : Move ambient t t') (gone : t.hs = .disconnected) :
    t'.hs = .disconnected := by
  have advance := move.advances
  rw [gone] at advance
  exact Handshake.le_rank.1 advance

/-- A loop that is not given up is left in `Disconnected` only. -/
theorem Move.departed (move : Move ambient t t') (stays : ¬ ambient.Quits) (departed : t.Departed) :
    t'.Departed where
  left isLeft := by
    rcases move.finished (.inr isLeft) with before | quits | ⟨gone, _⟩
    · exact move.disconnected (before.elim id departed.left)
    · exact absurd quits stays
    · exact gone
  reset bytes member :=
    move.disconnected ((move.resets member).elim (departed.reset bytes) departed.left)

/-- A task that is disconnected had no stream, or its peer gave up without one, or both have queued
their FIN frames. -/
def Ended (x y : Task) : Prop := x.hs = .disconnected → x.hasStream = false ∨
  (y.hs = .disconnected ∧ y.hasStream = false) ∨ x.finQueued ∧ y.finQueued

/-- A disconnected task hands out no stream. -/
theorem Move.hasStream_of_disconnected (move : Move ambient t t') (gone : t.hs = .disconnected) :
    t'.hasStream = t.hasStream := by
  rcases move.hasStream with same | ⟨state, _⟩
  · exact same
  · simp [gone] at state

/-- What is between two tasks of which neither has given up its loop. -/
structure Unbroken (body tail body' tail' : List Payload) (x y : Task) : Prop extends
    Joined body tail body' tail' x y where
  departed : x.Departed
  departed' : y.Departed
  ended : Ended x y
  ended' : Ended y x

theorem Unbroken.symm (unbroken : Unbroken body tail body' tail' x y) :
    Unbroken body' tail' body tail y x :=
  ⟨unbroken.toJoined.symm, unbroken.departed', unbroken.departed, unbroken.ended', unbroken.ended⟩

/-- A task becomes disconnected when it has no stream, when both have queued their FIN frames, or by
the RESET packet of the other one, for which the same holds. -/
theorem Move.ended (move : Move ambient x x') (stays : ¬ ambient.Quits)
    (unbroken : Unbroken body tail body' tail' x y) (inv : x.FinLast)
    (carried : ∀ packet, ambient.Delivered packet → packet ∈ y.emitted) : Ended x' y := by
  intro gone
  have queued := finQueued_of_moves (.single move)
  rcases move.finished (.inl gone) with before | quits | ⟨_, unheld | ⟨packet, arrived, flagged⟩ |
    ⟨state, noticed⟩⟩
  · have before := before.elim id unbroken.departed.left
    rw [move.hasStream_of_disconnected before]
    rcases unbroken.ended before with unheld | dead | ⟨own, other⟩
    · exact .inl unheld
    · exact .inr (.inl dead)
    · exact .inr (.inr ⟨queued own, other⟩)
  · exact absurd quits stays
  · exact .inl unheld
  · obtain ⟨cmd, command, reset⟩ : ∃ cmd, readCmd packet = some cmd ∧ cmd &&& kcpReset ≠ 0 := by
      unfold resetFlagged at flagged
      split at flagged
      · rename_i cmd command
        exact ⟨cmd, command, by simpa using flagged⟩
      · cases flagged
    have apart := unbroken.departed'.reset _ (unbroken.answers.reset (carried packet arrived) command reset)
    rcases unbroken.ended' apart with unheld | ⟨before, unheld⟩ | ⟨other, own⟩
    · exact .inr (.inl ⟨apart, unheld⟩)
    · exact .inl ((move.hasStream_of_disconnected before).trans unheld)
    · exact .inr (.inr ⟨queued own, other⟩)
  · exact .inr (.inr ⟨queued (inv.finQueued_of_finishing (.inr state)), unbroken.back.notice noticed⟩)

/-- A move of one task that does not give up its loop. -/
theorem Move.unbroken (move : Move ambient x x') (stays : ¬ ambient.Quits)
    (unbroken : Unbroken body tail body' tail' x y) (inv : x.FinLast) (still : y.FinLast)
    (modest : x'.Modest) (short : y.kcp.cb.sndNxt < 2 ^ 31)
    (carried : ∀ packet, ambient.Delivered packet → packet ∈ y.emitted) : ∃ body'' tail'',
    Unbroken body'' tail'' body' tail' x' y ∧ x.Grows body body'' := by
  obtain ⟨body'', tail'', joined, grows, _⟩ :=
    move.joined unbroken.toJoined inv still modest short carried
  refine ⟨body'', tail'', ⟨joined, move.departed stays unbroken.departed, unbroken.departed',
    move.ended stays unbroken inv carried, fun gone => ?_⟩, grows⟩
  rcases unbroken.ended' gone with unheld | ⟨before, unheld⟩ | ⟨other, own⟩
  · exact .inl unheld
  · exact .inr (.inl ⟨move.disconnected before, (move.hasStream_of_disconnected before).trans unheld⟩)
  · exact .inr (.inr ⟨other, finQueued_of_moves (.single move) own⟩)

/-- Any number of such moves. -/
theorem Moves.unbroken (moves : Moves ambient x x') (stays : ¬ ambient.Quits)
    (unbroken : Unbroken body tail body' tail' x y) (inv : x.FinLast) (still : y.FinLast)
    (modest : x'.Modest) (short : y.kcp.cb.sndNxt < 2 ^ 31)
    (carried : ∀ packet, ambient.Delivered packet → packet ∈ y.emitted) : ∃ body'' tail'',
    Unbroken body'' tail'' body' tail' x' y ∧ x.Grows body body'' ∧
      x.kcp.cb.sndNxt ≤ x'.kcp.cb.sndNxt := by
  induction moves with
  | refl => exact ⟨body, tail, unbroken, .refl x body, le_rfl⟩
  | tail moves move inductionHypothesis =>
      obtain ⟨body, tail, unbroken, grows, next⟩ := inductionHypothesis (move.modest modest)
      have inv := Moves.invariant moves (fun _ _ move => move.finLast) inv
      obtain ⟨body'', tail'', unbroken, grows'⟩ :=
        move.unbroken stays unbroken inv still modest short carried
      exact ⟨body'', tail'', unbroken, grows.trans grows' next (finQueued_of_moves moves),
        next.trans move.sndNxt_le⟩

/-! ## What has been shown -/

/-- When all of `body` has been taken and no frame of it is stashed, its messages have been shown. -/
theorem Gathers.shown {syn : Bytes} (gathers : Gathers body x y)
    (ledger : y.received = syn :: (y.shown ++ y.txFrame.toList)) (past : body.length ≤ y.kcp.cb.taken)
    (stash : y.txFrame.isSome → body.length < y.kcp.cb.taken) : messages body <+: syn :: y.shown := by
  cases held : y.txFrame with
  | none =>
      obtain ⟨rest, received⟩ := gathers.all past
      rw [held, Option.toList_none, List.append_nil, received] at ledger
      exact ⟨rest, ledger⟩
  | some frame =>
      have more := stash (by rw [held]; rfl)
      cases gathers with
      | within inside _ _ => omega
      | beyond rest _ _ received last =>
          obtain empty | ⟨front, last', rfl⟩ := List.eq_nil_or_concat rest
          · exact absurd empty (last (by rw [held]; rfl) more)
          · rw [held, received, List.concat_eq_append, ← List.append_assoc, Option.toList_some,
              ← List.cons_append] at ledger
            exact ⟨front, (List.append_inj' ledger rfl).1⟩

/-- The application of `y` has been shown all messages of `body` after that of the SYN frame. -/
def ShownAll (body : List Payload) (y : Task) : Prop := ∃ syn,
  syn.length = y.cfg.sessionKey.length + y.cfg.sessionIdLen ∧ messages body <+: syn :: y.shown

/-- What the application has been shown stays. -/
theorem ShownAll.moves (shown : ShownAll body y) (moves : Moves ambient y y') : ShownAll body y' := by
  obtain ⟨syn, length, before⟩ := shown
  have cfg : y'.cfg = y.cfg := @Moves.invariant _ (fun u => u.cfg = y.cfg) _ _ moves
    (fun _ _ move same => move.identity.1.trans same) rfl
  have more : y.shown <+: y'.shown := (trace_prefix_of_moves moves).filterMap Obs.shown
  exact ⟨syn, by rw [cfg, length], before.trans (List.cons_prefix_cons.2 ⟨rfl, more⟩)⟩

/-- What `y` has read of `body` while it goes on, and shown of it when it has ended. -/
structure Gathered (body : List Payload) (x y : Task) : Prop where
  reading : y.hs ≠ .disconnected → Gathers body x y
  ended : y.hs = .disconnected → y.hasStream →
    (x.hs = .disconnected ∧ x.hasStream = false) ∨ x.finQueued ∧ ShownAll body y

/-- The sender goes on. -/
theorem Gathered.sender (gathered : Gathered body x y) (moves : Moves ambient x x')
    (grows : x.Grows body body') (numbered : y.kcp.cb.taken ≤ x.kcp.cb.sndNxt) :
    Gathered body' x' y where
  reading alive := (gathered.reading alive).sender grows numbered (finQueued_of_moves moves)
  ended gone stream := by
    rcases gathered.ended gone stream with ⟨dead, unheld⟩ | ⟨queued, shown⟩
    · refine .inl (@Moves.invariant _ (fun u => u.hs = .disconnected ∧ u.hasStream = false) _ _ moves
        (fun _ _ move holds => ?_) ⟨dead, unheld⟩)
      exact ⟨move.disconnected holds.1, (move.hasStream_of_disconnected holds.1).trans holds.2⟩
    · rw [grows.finished queued]
      exact .inr ⟨finQueued_of_moves moves queued, shown⟩

/-- Outside the loop the state does not change. -/
theorem step_hs_of_stopped {event : Event} (stopped : t.running = false)
    (stepped : t.step event = some t') : t'.hs = t.hs := by
  cases transition_of_step stepped with
  | app acted => obtain ⟨_, _, _, rfl | ⟨_, rfl⟩⟩ := app_eq acted <;> rfl
  | frame takes | inputEnd takes =>
      obtain ⟨_, pc, _⟩ | ⟨_, pc⟩ := takes <;> simp [Task.running, pc] at stopped
  | packet takes => obtain ⟨pc, _⟩ | pc := takes <;> simp [Task.running, pc] at stopped
  | thrown | panic => rfl
  | finish => exact hs_finish t
  | _ => simp_all [Task.running]

/-- When the FIN frame of `x` is queued and nothing waits, all of `body` has been taken. -/
theorem Conveys.taken_all (conveys : Conveys body tail x y) (queued : x.finQueued)
    (tied : y.kcp.cb.Tied (At other) x.kcp.cb.Has (At (body ++ tail)) x.kcp.cb.sndNxt)
    (counted : y.kcp.cb.Counted) (empty : y.kcp.cb.nrcvQue + y.kcp.cb.nrcvBuf = 0) :
    body.length ≤ y.kcp.cb.taken := by
  have queue : y.kcp.cb.rcvQueue = [] := List.eq_nil_of_length_eq_zero (by rw [← counted.rcvQueue]; omega)
  have buffer : y.kcp.cb.rcvBuf = [] := List.eq_nil_of_length_eq_zero (by rw [← counted.rcvBuf]; omega)
  have next := tied.arrived.rcvNxt_eq
  rw [queue, List.length_nil, Nat.add_zero] at next
  by_contra unread
  rcases (conveys.settled queued).2 y.kcp.cb.taken (by omega) with below | ⟨seg, member, _⟩
  · omega
  · rw [buffer] at member
    cases member

/-- After the SYN handshake the FIN frame of a task is not empty and can be queued. -/
theorem Ordered.closable (ordered : y.Ordered) (later : y.hs ≠ .syn)
    (filled : ∀ frame ∈ y.received, frame ≠ []) (counted : y.kcp.cb.Counted)
    (configured : y.kcp.cb.Configured config)
    (short : y.handshakeFrame.length < 2 ^ 32) : y.Closable where
  counted := counted
  positive := configured.mss_pos
  short := short
  nonempty := by
    have ledger := ordered.ledger
    rw [synFrame, if_neg later] at ledger
    refine filled _ ?_
    rw [ledger]
    exact List.mem_append_left _ (List.mem_singleton.2 rfl)

/-- A step that enters `Disconnected` and loses nothing has shown everything. -/
theorem step_shownAll {event : Event} (placed : y.Placed) (handing : y.Handing)
    (regular : y.Regular config) (filled : ∀ frame ∈ y.received, frame ≠ [])
    (keyed : config.sessionKey.length + config.sessionIdLen < 2 ^ 32)
    (stepped : y.step event = some y') (unbroken : Unbroken body tail body' tail' x y)
    (gathers : Gathers body x y) (stays : y.quits event = false) (kept : y.loses x event = false)
    (before : y.hs ≠ .disconnected) (gone : y'.hs = .disconnected) (stream : y'.hasStream)
    (queued : x.finQueued) : ShownAll body y := by
  have stream : y.hasStream := by
    rcases (step_reports handing stepped).2 with ⟨_, connected, _⟩ | ⟨_, same⟩
    · simp [gone] at connected
    · rwa [← hasStream_of_reports same]
  have later : y.hs ≠ .syn := fun early => by
    rw [placed.unannounced early] at stream
    cases stream
  have running : y.running := by
    by_contra stopped
    rw [Bool.not_eq_true] at stopped
    exact before ((step_hs_of_stopped stopped stepped).symm.trans gone)
  have ordered := handing.ordered running before
  have length : y.handshakeFrame.length = y.cfg.sessionKey.length + y.cfg.sessionIdLen := by
    rw [handshakeFrame, List.length_append, regular.known (.inr ?_)]
    rintro (early | ended)
    · exact later early
    · exact before ended
  have closable := ordered.closable later filled unbroken.answers.counted unbroken.answers.configured
    (by rw [length, regular.cfg]; exact keyed)
  -- Nothing of `x` waits.
  obtain ⟨unstashed, drained⟩ := step_spares closable later before stream stays kept stepped gone
  simp only [stashes, buffers, unbroken.out.ends, Bool.and_eq_false_imp, decide_eq_true_eq,
    decide_eq_false_iff_not, Nat.not_le, Nat.not_lt] at unstashed drained
  have past : body.length ≤ y.kcp.cb.taken := by
    by_contra unread
    refine unread (unbroken.out.taken_all queued unbroken.answers.tied unbroken.answers.counted ?_)
    by_contra waits
    exact unread (drained (Nat.pos_of_ne_zero waits))
  have ledger := ordered.ledger
  rw [synFrame, if_neg later, List.singleton_append] at ledger
  exact ⟨y.handshakeFrame, length, gathers.shown ledger past unstashed⟩

/-- A step of the reader that loses nothing. -/
theorem step_gathered {event : Event} (placed : y.Placed) (handing : y.Handing)
    (regular : y.Regular config) (filled : ∀ frame ∈ y.received, frame ≠ [])
    (keyed : config.sessionKey.length + config.sessionIdLen < 2 ^ 32)
    (stepped : y.step event = some y') (unbroken : Unbroken body tail body' tail' x y)
    (gathered : Gathered body x y) (ended : Ended y' x) (stays : y.quits event = false)
    (kept : y.loses x event = false) (few : x.kcp.cb.sndNxt < 2 ^ 31) : Gathered body x y' := by
  have moves := step_moves placed stepped
  refine ⟨fun alive' => ?_, fun gone stream => ?_⟩
  · have alive : y.hs ≠ .disconnected := fun gone => alive' <|
      @Moves.invariant _ (fun u => u.hs = .disconnected) _ _ moves
        (fun _ _ move gone => move.disconnected gone) gone
    rcases step_fetches handing alive stepped with stays | ⟨called, frame, later, taken, stays⟩
    · exact (gathered.reading alive).stays stays
    · refine ((gathered.reading alive).recv unbroken.out unbroken.answers.tied unbroken.speaks.written
        few unbroken.answers.counted taken fun discards => ?_).stays stays
      rw [← unbroken.out.ends]
      exact step_discards alive called discards kept
  · by_cases before : y.hs = .disconnected
    · have same : y'.hasStream = y.hasStream := by
        rcases (step_reports handing stepped).2 with ⟨early, _⟩ | ⟨_, same⟩
        · simp [before] at early
        · exact hasStream_of_reports same
      rw [same] at stream
      exact (gathered.ended before stream).imp_right fun shown => ⟨shown.1, shown.2.moves moves⟩
    · rcases ended gone with unheld | dead | ⟨_, queued⟩
      · rw [stream] at unheld
        cases unheld
      · exact .inl dead
      · refine .inr ⟨queued, ShownAll.moves ?_ moves⟩
        exact step_shownAll placed handing regular filled keyed stepped unbroken (gathered.reading before)
          stays kept before gone stream queued

/-- What is between two tasks of which neither has given up its loop or lost a frame. -/
structure Lossless (body tail body' tail' : List Payload) (x y : Task) : Prop extends
    Unbroken body tail body' tail' x y where
  shown : Gathered body x y
  shown' : Gathered body' y x

/-- The two ends are alike. -/
theorem Lossless.symm (lossless : Lossless body tail body' tail' x y) :
    Lossless body' tail' body tail y x :=
  ⟨lossless.toUnbroken.symm, lossless.shown', lossless.shown⟩

/-- A step that does not give up the loop and loses nothing. -/
theorem step_lossless {event : Event} (placed : x.Placed) (handing : x.Handing)
    (regular : x.Regular config) (filled : ∀ frame ∈ x.received, frame ≠ [])
    (keyed : config.sessionKey.length + config.sessionIdLen < 2 ^ 32) (still : y.FinLast)
    (stepped : x.step event = some x')
    (carried : event.carried y) (stays : x.quits event = false)
    (kept : x.loses y event = false) (lossless : Lossless body tail body' tail' x y) (modest : x'.Modest)
    (short : y.kcp.cb.sndNxt < 2 ^ 31) : ∃ body'' tail'', Lossless body'' tail'' body' tail' x' y := by
  have moves := step_moves placed stepped
  have inside (packet : Bytes) (delivered : (x.ambient event).Delivered packet) : packet ∈ y.emitted :=
    event.mem_emitted carried delivered
  obtain ⟨body'', tail'', unbroken, grows, _⟩ :=
    moves.unbroken (Bool.eq_false_iff.1 stays) lossless.toUnbroken regular.finLast still modest short
      inside
  have numbered : y.kcp.cb.taken ≤ x.kcp.cb.sndNxt := by
    have most := lossless.answers.tied.arrived.most
    have next := lossless.answers.tied.arrived.rcvNxt_eq
    omega
  exact ⟨body'', tail'', unbroken, lossless.shown.sender moves grows numbered,
    step_gathered placed handing regular filled keyed stepped lossless.toUnbroken.symm lossless.shown'
      unbroken.ended stays kept short⟩

/-- Without a stream no frame of the application has been sent. -/
def Unspoken (t : Task) : Prop := t.hasStream = false → ∀ sent ∈ t.sends, sent.kind ≠ .data

/-- A frame of the application is sent only when it holds a stream. -/
theorem Move.unspoken (move : Move ambient t t') (unheld : t.Unheld) (unspoken : t.Unspoken) :
    t'.Unspoken := by
  intro unknown
  have before := move.unannounced_before unknown
  rcases move.sends with same | ⟨sent, trace, queues⟩
  · rw [same]
    exact unspoken before
  · rw [sends_of_trace trace, List.forall_mem_append, List.forall_mem_singleton]
    refine ⟨unspoken before, ?_⟩
    cases queues with
    | syn kind | reply kind | fin kind => simp [kind]
    | data _ queued => exact absurd (unheld before).1 queued

/-- When everything has been shown, so has what was acknowledged. -/
theorem Gathered.yields (gathered : Gathered body x y) (conveys : Conveys body tail x y)
    (regular : x.Regular config) (opens : x.Opens) (unspoken : x.Unspoken) (cfg : y.cfg = config)
    (gone : y.hs = .disconnected) (stream : y.hasStream) : x.Yields y := by
  intro earlier sent later split kind _
  rcases gathered.ended gone stream with ⟨_, unheld⟩ | ⟨_, syn, length, shown⟩
  · refine absurd kind (unspoken unheld sent ?_)
    rw [split]
    exact List.mem_append_right _ List.mem_cons_self
  · have part : dataOf (earlier ++ [sent]) <+: x.sentData := by
      rw [sentData_eq, split]
      refine (List.IsPrefix.filter _ ?_).map _
      exact ⟨later, by simp⟩
    rw [cfg.trans regular.cfg.symm] at length
    cases mode : x.cfg.stream with
    | false =>
        rw [if_neg (by simp)]
        refine (part.filter _).trans ?_
        rw [conveys.framed.message mode] at shown
        obtain ⟨_, none⟩ | ⟨first, size, spoken⟩ := opens.spoken
        · rw [none]
          exact List.nil_prefix
        · rw [spoken, List.filter_cons] at shown
          split at shown
          · exact (List.cons_prefix_cons.1 shown).2
          · -- Without a key and an id the first message would be the empty SYN frame.
            rename_i empty
            have empty : first = [] := by simpa using empty
            rw [empty, List.length_nil] at size
            have missing : syn = [] := List.eq_nil_of_length_eq_zero (length.trans size.symm)
            rw [missing] at shown
            cases frames : x.sentData.filter fun frame => frame ≠ [] with
            | nil => exact List.nil_prefix
            | cons frame rest =>
                rw [frames] at shown
                have absent : ([] : Bytes) ∈ x.sentData.filter fun frame => frame ≠ [] := by
                  rw [frames, (List.cons_prefix_cons.1 shown).1]
                  exact List.mem_cons_self
                simp at absent
    | true =>
        rw [if_pos rfl]
        obtain ⟨plain, bytes⟩ := conveys.framed.merged mode
        have frames := shown.flatten
        rw [messages_of_plain plain, ← List.flatMap_def, ← bytesOf, bytes] at frames
        refine part.flatten.trans ?_
        obtain ⟨_, none⟩ | ⟨first, size, spoken⟩ := opens.spoken
        · rw [none]
          exact List.nil_prefix
        · rw [spoken, List.flatten_cons, List.flatten_cons] at frames
          exact prefix_of_append (size.trans length.symm) frames

/-- Two tasks at their start have sent nothing. -/
theorem Fresh.unbroken {conv conv' : U32} {id id' : Bytes} (fresh : Fresh config conv id x)
    (fresh' : Fresh config conv' id' y) : Unbroken [] [] [] [] x y := by
  have departed {conv : U32} {id : Bytes} {t : Task} (fresh : Fresh config conv id t) : t.Departed :=
    ⟨by simp [Task.left, fresh.pc], by simp [fresh.trace]⟩
  have ended {conv : U32} {id : Bytes} {t u : Task} (fresh : Fresh config conv id t) : Ended t u :=
    fun gone => by simp [fresh.hs] at gone
  exact ⟨⟨fresh.speaks y, fresh'.speaks x, fresh.conveys fresh', fresh'.conveys fresh⟩,
    departed fresh, departed fresh', ended fresh, ended fresh'⟩

/-- A task that has started has received nothing. -/
theorem start_gathered {conv : U32} {id : Bytes} {clock : Nat → U32}
    (started : start config conv id clock = some y) (body : List Payload) (x : Task) :
    Gathered body x y := by
  obtain ⟨fresh, isFresh, aside, receiver, state⟩ := start_aside started
  have none : y.kcp.cb.taken = 0 := by
    rw [Ikcpcb.taken_congr receiver, Ikcpcb.taken, isFresh.empty.rcvNxt, Nat.zero_sub]
  have received : y.received = [] := by
    rw [show y.received = fresh.received from congrArg Aside.received aside, Task.received, isFresh.trace]
    rfl
  refine ⟨fun _ => .within ?_ ?_ ?_, fun gone => by simp [state] at gone⟩
  · rw [none]
    exact Nat.zero_le _
  · rw [none]
    exact whole_nil
  · rw [none, received]
    rfl

end Task

namespace Pair

/-- One of the tasks gives up its loop. -/
def quits (p : Pair) : PairEvent → Bool
  | .client event => p.client.quits event
  | .server event => p.server.quits event

/-- One of the tasks drops a frame of the other one. -/
def loses (p : Pair) : PairEvent → Bool
  | .client event => p.client.loses p.server event
  | .server event => p.server.loses p.client event

/-- What is between the two tasks of a pair that has lost no frame. -/
def Lossless (p : Pair) : Prop := ∃ body tail body' tail',
  Task.Lossless body tail body' tail' p.client p.server

end Pair

variable {config : Config} {p : Pair}

/-- A pair that has just started has lost no frame. -/
theorem Pair.lossless_of_initial (initial : (pairMachine config).Initial p) (client : p.client.Modest)
    (server : p.server.Modest) : p.Lossless := by
  obtain ⟨⟨id, clock, length, started⟩, conv, valid, clock', started'⟩ := initial
  obtain ⟨fresh, isFresh, moves⟩ := @Task.start_moves .idle _ _ _ _ _ started
  obtain ⟨fresh', isFresh', moves'⟩ := @Task.start_moves .idle _ _ _ _ _ started'
  have quiet : ¬ Ambient.idle.Quits := not_false
  have short : fresh'.kcp.cb.sndNxt < 2 ^ 31 := by simp [isFresh'.empty.sndNxt]
  obtain ⟨body, tail, unbroken, _⟩ := moves.unbroken quiet (isFresh.unbroken isFresh') isFresh.finLast
    isFresh'.finLast client short (by simp [Ambient.idle])
  have inv := moves.invariant (fun _ _ move => move.finLast) isFresh.finLast
  obtain ⟨body', tail', unbroken, _⟩ := moves'.unbroken quiet unbroken.symm isFresh'.finLast inv server
    client.few (by simp [Ambient.idle])
  exact ⟨body, tail, body', tail', unbroken.symm, Task.start_gathered started' _ _,
    Task.start_gathered started _ _⟩

/-- In every run whose steps give up no loop and lose nothing. -/
theorem reach_lossless (keyed : config.sessionKey.length + config.sessionIdLen < 2 ^ 32)
    (reach : (pairMachine config).Reach
      (fun p event => p.quits event = false ∧ p.loses event = false) p)
    (client : p.client.Modest) (server : p.server.Modest) : p.Lossless := by
  induction reach with
  | initial valid => exact Pair.lossless_of_initial valid client server
  | step prior allowed stepped inductionHypothesis =>
      obtain ⟨stays, kept⟩ := allowed
      obtain ⟨reach, reach'⟩ := reach_tasks prior
      have regular := (reach_regular reach).1
      have regular' := (reach_regular reach').1
      rcases Pair.step_cases stepped with ⟨event, rfl, same, carried, moved⟩ |
        ⟨event, rfl, same, carried, moved⟩
      · have placed := reach_placed reach
        have modest := (Task.step_moves placed moved).modest client
        rw [same] at server
        obtain ⟨_, _, body', tail', lossless⟩ := inductionHypothesis modest server
        obtain ⟨body, tail, lossless⟩ := Task.step_lossless placed (reach_handing reach) regular
          (reach_received reach) keyed regular'.finLast moved carried stays kept lossless client server.few
        unfold Pair.Lossless
        rw [same]
        exact ⟨body, tail, body', tail', lossless⟩
      · have placed := reach_placed reach'
        have modest := (Task.step_moves placed moved).modest server
        rw [same] at client
        obtain ⟨body, tail, _, _, lossless⟩ := inductionHypothesis client modest
        obtain ⟨body', tail', lossless⟩ := Task.step_lossless placed (reach_handing reach') regular'
          (reach_received reach') keyed regular.finLast moved carried stays kept lossless.symm server client.few
        unfold Pair.Lossless
        rw [same]
        exact ⟨body, tail, body', tail', lossless.symm⟩

/-- In every run. -/
theorem reach_unspoken {allow : Task → Event → Prop} {t : Task}
    (reach : (taskMachine config).Reach allow t) : t.Unspoken := by
  refine (@reach_invariant _ _ (fun t => t.Unheld ∧ t.Unspoken) (fun _ _ _ fresh => ?_)
    (fun _ _ _ move holds => ⟨move.unheld holds.1, move.unspoken holds.1 holds.2⟩) _ reach).2
  exact ⟨fresh.unheld, fun _ => by simp [Task.sends, fresh.trace]⟩

/-- Graceful shutdown loses nothing. In every run of a pair in which neither task gives up its loop
and no step drops a frame of the other task, an application whose task has left its loop has been
shown every frame of the other one that was acknowledged; fewer than `2 ^ 31` segments are sent each
way, and every frame is one that `max_frame_size` allows. -/
theorem shutdown_loses_nothing (keyed : config.sessionKey.length + config.sessionIdLen < 2 ^ 32)
    (reach : (pairMachine config).Reach
      (fun p event => p.quits event = false ∧ p.loses event = false) p)
    (few : p.client.kcp.cb.sndNxt < 2 ^ 31 ∧ p.server.kcp.cb.sndNxt < 2 ^ 31)
    (sized : ∀ frame ∈ p.client.offered ++ p.server.offered,
      frame.length ≤ (Kcp.maxFrameSize config.mtu).toNat) :
    (p.server.left → p.server.hasStream → p.client.Yields p.server) ∧
      (p.client.left → p.client.hasStream → p.server.Yields p.client) := by
  rw [List.forall_mem_append] at sized
  obtain ⟨reached, reached'⟩ := reach_tasks reach
  obtain ⟨regular, opens⟩ := reach_regular reached
  obtain ⟨regular', opens'⟩ := reach_regular reached'
  have client := regular.modest opens keyed few.1 sized.1
  have server := regular'.modest opens' keyed few.2 sized.2
  obtain ⟨body, tail, body', tail', lossless⟩ := reach_lossless keyed reach client server
  refine ⟨fun gone stream => ?_, fun gone stream => ?_⟩
  · exact lossless.shown.yields lossless.out regular opens (reach_unspoken reached) regular'.cfg
      (lossless.departed'.left gone) stream
  · exact lossless.shown'.yields lossless.back regular' opens' (reach_unspoken reached') regular.cfg
      (lossless.departed.left gone) stream

/-- A configuration whose frames are sent at once. -/
def nimbleConfig : Config :=
  { nodelay := { nodelay := true, interval := 10, resend := 0, nc := true }, sessionIdLen := 1 }

/-- A data segment of a peer whose receive window is free. -/
def freeSeg (conv sn una : U32) (data : Bytes) (ts : U32) : Seg :=
  { pushSeg conv sn una data with wnd := 256, ts }

/-- The SYN frames are exchanged, the server shuts down, and the client answers with the frame `[9]`
and its FIN frame. Before the FIN frame arrives, the server takes the events `reads`. -/
def lastFrameEvents (reads : List Event) : List PairEvent :=
  turnEvents.map .client ++
  (turnEvents ++ takeEvents (encodePacket [freeSeg Kcp.synConv 0 0 [7] 0])).map .server ++
  (takeEvents (encodePacket [{ conv := 1, cmd := ikcpCmdAck, wnd := 256, una := 1 },
    freeSeg 1 0 1 [7] 0]) ++ wakeEvents ++ turnEvents).map .client ++
  (takeEvents (encodePacket [ackSeg 0 1 256 0]) ++ shutdownEvents ++ turnEvents).map .server ++
  ([Event.app .reserve, .app (.startSend [9])] ++
    takeEvents (setFin (encodePacket [freeSeg 1 1 1 [7] 0])) ++ [Event.recvInput, .tau, .tau] ++
    turnEvents).map .client ++
  (takeEvents (encodePacket [ackSeg 1 2 256 0, freeSeg 1 1 2 [9] 100])).map .server ++
  (takeEvents (encodePacket [ackSeg 1 2 256 100])).map .client ++
  (reads ++ takeEvents (setFin (encodePacket [freeSeg 1 2 2 [7] 100])) ++ [Event.tau]).map .server

/-- Run events of a client with session id `[7]` and a server for conv 1 that are permitted. -/
def nimbleRun (permits : Pair → PairEvent → Bool) (events : List PairEvent) : Option Pair :=
  (Task.start nimbleConfig Kcp.synConv [7] lateClock).bind fun client =>
    (Task.start nimbleConfig 1 [] fun _ => 0).bind fun server =>
      (pairMachine nimbleConfig).exec permits { client, server } events

theorem reach_of_nimbleRun {allow : Pair → PairEvent → Prop} {permits : Pair → PairEvent → Bool}
    {events : List PairEvent} (permitted : ∀ p event, permits p event → allow p event)
    (executed : nimbleRun permits events = some p) : (pairMachine nimbleConfig).Reach allow p := by
  obtain ⟨client, started, executed⟩ := Option.bind_eq_some_iff.1 executed
  obtain ⟨server, started', executed⟩ := Option.bind_eq_some_iff.1 executed
  refine Machine.reach_of_exec permitted (.initial ⟨⟨[7], lateClock, rfl, started⟩, 1, ?_, _, started'⟩)
    executed
  decide

/-- The application of the server reads the frame in time. -/
theorem shutdown_loses_nothing_read : ∃ p, (pairMachine nimbleConfig).Reach
      (fun p event => p.quits event = false ∧ p.loses event = false) p ∧
    p.server.left ∧ p.server.shown = [[9]] ∧ p.client.Yields p.server := by
  have run : (nimbleRun (fun p event => !p.quits event && !p.loses event)
      (lastFrameEvents ([Event.reserve true, .tryReserve true] ++ turnEvents))).map (fun p =>
        (decide (p.client.kcp.cb.sndNxt < 2 ^ 31 ∧ p.server.kcp.cb.sndNxt < 2 ^ 31 ∧ p.server.left ∧
          p.server.hasStream), p.client.offered ++ p.server.offered, p.server.shown)) =
      some (true, [[9]], [[9]]) := by
    decide +kernel
  obtain ⟨p, executed, view⟩ := Option.map_eq_some_iff.1 run
  simp only [Prod.mk.injEq, decide_eq_true_eq] at view
  obtain ⟨⟨client, server, gone, stream⟩, offered, shown⟩ := view
  have reach : (pairMachine nimbleConfig).Reach
      (fun p event => p.quits event = false ∧ p.loses event = false) p :=
    reach_of_nimbleRun (fun p event permitted => by simpa using permitted) executed
  refine ⟨p, reach, gone, shown, ?_⟩
  refine (shutdown_loses_nothing (by decide) reach ⟨client, server⟩ ?_).1 gone stream
  rw [offered]
  decide

/-- The FIN packet of the client finishes the server, although the frame is stashed and has been
acknowledged. -/
theorem shutdown_loses_stashed : ∃ p,
    (pairMachine nimbleConfig).Reach (fun p event => p.quits event = false) p ∧
    (p.client.kcp.cb.sndNxt < 2 ^ 31 ∧ p.server.kcp.cb.sndNxt < 2 ^ 31) ∧
    (∀ frame ∈ p.client.offered ++ p.server.offered,
      frame.length ≤ (Kcp.maxFrameSize nimbleConfig.mtu).toNat) ∧
    p.server.left ∧ p.server.hasStream ∧ p.server.received = [[7], [9]] ∧ p.server.shown = [] ∧
    ¬ p.client.Yields p.server := by
  have run : (nimbleRun (fun p event => !p.quits event) (lastFrameEvents [])).map (fun p =>
        (decide (p.client.kcp.cb.sndNxt < 2 ^ 31 ∧ p.server.kcp.cb.sndNxt < 2 ^ 31 ∧ p.server.left ∧
          p.server.hasStream ∧ p.client.acknowledged ⟨.data, [9], 0, 2⟩ ∧ p.client.cfg.stream ∧
          p.client.sends = [⟨.syn, [7], 0, 1⟩, ⟨.data, [9], 0, 2⟩, ⟨.fin, [7], 0, 3⟩]),
          p.client.offered ++ p.server.offered, p.server.received, p.server.shown)) =
      some (true, [[9]], [[7], [9]], []) := by
    decide +kernel
  obtain ⟨p, executed, view⟩ := Option.map_eq_some_iff.1 run
  simp only [Prod.mk.injEq, decide_eq_true_eq] at view
  obtain ⟨⟨client, server, gone, held, acknowledged, stream, sends⟩, offered, received, shown⟩ := view
  refine ⟨p, reach_of_nimbleRun (fun p event permitted => by simpa using permitted) executed,
    ⟨client, server⟩, ?_, gone, held, received, shown, fun yields => ?_⟩
  · rw [offered]
    decide
  · have frames := yields [_] _ [_] sends rfl acknowledged
    rw [if_pos stream, shown] at frames
    revert frames
    decide

end KcpRs
