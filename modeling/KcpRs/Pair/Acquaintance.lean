import KcpRs.Pair.Shutdown

/-!
# Two tasks before either has finished

`Acquainted body body' x y` is about two tasks of which neither has queued its FIN frame: what each
has queued begins with its SYN frame, which is one message, and what each has read are the messages
of a prefix of what the other has queued. Every move without a FIN frame keeps it, as long as in
streaming mode no frame is merged into a SYN frame that has not been numbered.
-/

namespace KcpRs

open Lib Relation

/-- The SYN frame is one message: it is numbered as one, or fits one segment. -/
def Config.synWhole (config : Config) : Prop := config.stream = false ∨ config.handshakeFits

instance (config : Config) : Decidable config.synWhole :=
  inferInstanceAs (Decidable (_ ∨ (_ ≤ _)))

/-- A frame that fits one segment is one fragment. -/
theorem Ikcpcb.fragments_single {kcp : Ikcpcb} {frame : Bytes} (fits : frame.length ≤ kcp.mss) :
    kcp.fragments frame frame.length = [⟨0, frame⟩] := by
  have size : ¬ kcp.mss < frame.length := Nat.not_lt.2 fits
  rw [fragments, fragmentCount, if_pos fits]
  cases kcp.stream <;> simp [sendFragments, Seg.payload, size]

/-- The fragments of a frame count down from less than the window. -/
theorem Ikcpcb.frg_fragments {kcp : Ikcpcb} {frame : Bytes} {len : Nat}
    (few : fragmentCount kcp.mss len < ikcpWndRcv) :
    ∀ payload ∈ kcp.fragments frame len, payload.frg.toNat + 1 < ikcpWndRcv := by
  have counted (count : Nat) (few : count < ikcpWndRcv) (buffer : Bytes) (len : Nat) :
      ∀ payload ∈ (sendFragments kcp.mss kcp.stream count buffer len).map Seg.payload,
        payload.frg.toNat + 1 < ikcpWndRcv := by
    induction count generalizing buffer len with
    | zero => simp [sendFragments]
    | succ count inductionHypothesis =>
        rw [sendFragments, List.map_cons, List.forall_mem_cons]
        refine ⟨?_, inductionHypothesis (by omega) _ _⟩
        cases kcp.stream
        · simp only [Seg.payload, Bool.false_eq_true, if_false, BitVec.toNat_ofNat]
          exact (Nat.succ_le_succ (Nat.mod_le _ _)).trans_lt few
        · simp [Seg.payload, ikcpWndRcv]
  exact counted _ few frame len

namespace Task

variable {ambient : Ambient} {config : Config} {t t' x x' y : Task}
  {body body' own own' : List Payload}

/-- What a task has queued begins with its SYN frame. -/
structure Opening (own : List Payload) (t : Task) : Prop where
  silent : t.sends = [] → own = []
  first : ∀ sent rest, t.sends = sent :: rest → (messages own).head? = some sent.frame
  alone : ∀ sent, t.sends = [sent] → messages own = [sent.frame]
  short : ∀ payload ∈ own, payload.frg.toNat + 1 < ikcpWndRcv

/-- What a task has read are the messages of the payloads that it has taken. -/
structure Reads (other : List Payload) (t : Task) : Prop where
  inside : t.kcp.cb.taken ≤ other.length
  whole : Whole (other.take t.kcp.cb.taken)
  received : t.received = messages (other.take t.kcp.cb.taken)

theorem Fresh.reads {conv : U32} {id : Bytes} (fresh : Fresh config conv id x) : Reads [] x := by
  have none : x.kcp.cb.taken = 0 := by rw [Ikcpcb.taken, fresh.empty.rcvNxt, Nat.zero_sub]
  refine ⟨none.le, ?_, ?_⟩
  · rw [List.take_nil]
    exact whole_nil
  · rw [List.take_nil, Task.received, fresh.trace]
    rfl

/-- What is between two tasks of which neither has queued its FIN frame. -/
structure Acquainted (body body' : List Payload) (x y : Task) : Prop extends
    Joined body [] body' [] x y where
  opening : Opening body x
  opening' : Opening body' y
  reads : Reads body' x
  reads' : Reads body y
  unfinished : ¬ x.finQueued
  unfinished' : ¬ y.finQueued

theorem Acquainted.symm (acquainted : Acquainted body body' x y) : Acquainted body' body y x :=
  ⟨acquainted.toJoined.symm, acquainted.opening', acquainted.opening, acquainted.reads',
    acquainted.reads, acquainted.unfinished', acquainted.unfinished⟩

/-- A call of `kcp_recv`, when the other task has not queued its FIN frame. -/
theorem Joined.recv {tail tail' : List Payload} (joined : Joined body tail body' tail' x y)
    (unfinished : ¬ y.finQueued) (reads : Reads body' x) {frame : Option Bytes}
    (taken : x.kcpRecv = some (frame, x')) (few : y.kcp.cb.sndNxt < 2 ^ 31) : Reads body' x' := by
  obtain ⟨inside, whole, received⟩ := reads
  obtain ⟨_, same, still⟩ | ⟨discards, _⟩ | ⟨_, bytes, _, added, _, queue, next⟩ :=
    joined.back.recv joined.speaks.tied few joined.speaks.counted taken
  · exact ⟨by rwa [still], by rwa [still], by rw [same, received, still]⟩
  · exact absurd (joined.back.notice discards.1) unfinished
  · have none : tail' = [] := by
      by_contra some
      exact unfinished (joined.back.unfinished some)
    have occupied := List.length_pos_iff.2 queue
    have position := joined.speaks.tied.arrived.rcvNxt_eq
    have most := joined.speaks.tied.arrived.most
    have written := joined.answers.written.most
    rw [none, List.append_nil] at written
    obtain ⟨fits, part, equal, ends, message⟩ := next (by omega)
    refine ⟨fits, ?_, ?_⟩
    · rw [equal]
      exact whole.append ends
    · rw [equal, messages_append whole, message, ← received]
      exact added

/-- A turn of the reader. -/
theorem Joined.read {tail tail' : List Payload} (joined : Joined body tail body' tail' x y)
    (unfinished : ¬ y.finQueued) (reads : Reads body' x) (turn : Turn own own' x x')
    (few : y.kcp.cb.sndNxt < 2 ^ 31) : Reads body' x' := by
  rcases turn.read with ⟨taken, same⟩ | ⟨frame, _, taken⟩
  · obtain ⟨inside, whole, received⟩ := reads
    exact ⟨by rwa [taken], by rwa [taken], by rw [same, received, taken]⟩
  · exact joined.recv unfinished reads taken few

/-- A task has received no more than the other one has queued. -/
theorem Acquainted.rcvNxt_le (acquainted : Acquainted body body' x y) :
    x.kcp.cb.rcvNxt ≤ y.kcp.cb.sndNxt ∧ y.kcp.cb.sndNxt ≤ body'.length := by
  refine ⟨acquainted.speaks.tied.arrived.most, ?_⟩
  have most := acquainted.answers.written.most
  rwa [List.append_nil] at most

/-- A turn of the sender. -/
theorem Reads.sender {body'' : List Payload} (reads : Reads body y) (grows : x.Grows body body'')
    (numbered : y.kcp.cb.taken ≤ x.kcp.cb.sndNxt) : Reads body'' y := by
  obtain ⟨inside, whole, received⟩ := reads
  have same := grows.numbered _ numbered
  rw [← same] at whole received
  refine ⟨?_, whole, received⟩
  have length := congrArg List.length same
  simp only [List.length_take] at length
  omega

/-- In message mode the frames are the messages. -/
theorem Opening.of_message (framed : Framed false (x.sends.map Sent.frame) own) (some : x.sends ≠ [])
    (first : ∀ sent rest, x.sends = sent :: rest → sent.frame ≠ [])
    (short : ∀ payload ∈ own, payload.frg.toNat + 1 < ikcpWndRcv) : Opening own x := by
  have filtered (sent : Sent) (rest : List Sent) (sends : x.sends = sent :: rest) :
      messages own = sent.frame :: (rest.map Sent.frame).filter fun frame => frame ≠ [] := by
    rw [framed.message rfl, sends, List.map_cons, List.filter_cons,
      if_pos (by simpa using first sent rest sends)]
  refine ⟨fun none => absurd none some, fun sent rest sends => ?_, fun sent sends => ?_, short⟩
  · rw [filtered sent rest sends]
    rfl
  · rw [filtered sent [] sends]
    rfl

theorem Opening.of_single {sent : Sent} (sends : x.sends = [sent])
    (message : messages own = [sent.frame])
    (short : ∀ payload ∈ own, payload.frg.toNat + 1 < ikcpWndRcv) : Opening own x := by
  refine ⟨fun nothing => ?_, fun other rest more => ?_, fun other only => ?_, short⟩
  · rw [sends] at nothing
    cases nothing
  · rw [sends] at more
    cases more
    rw [message]
    rfl
  · rw [sends] at only
    cases only
    exact message

/-- In streaming mode every payload is a message. -/
theorem head_of_framed {frames : List Bytes} (framed : Framed true frames own) :
    (messages own).head? = own.head?.map Payload.data := by
  rw [messages_of_plain (framed.merged rfl).1, List.head?_map]

/-- In streaming mode frames behind the SYN frame leave the first payload as it is. -/
theorem Opening.behind (opening : Opening own x) (framed : Framed true (x.sends.map Sent.frame) own)
    (framed' : Framed true (x'.sends.map Sent.frame) own') {syn sent : Sent} {rest : List Sent}
    (sends : x.sends = syn :: rest) (more : x'.sends = x.sends ++ [sent])
    (head : own'.head? = own.head?)
    (short : ∀ payload ∈ own', payload.frg.toNat + 1 < ikcpWndRcv) : Opening own' x' := by
  refine ⟨fun nothing => ?_, fun other later equal => ?_, fun other equal => ?_, short⟩
  · rw [more, sends] at nothing
    cases nothing
  · rw [more, sends, List.cons_append, List.cons.injEq] at equal
    rw [head_of_framed framed', head, ← head_of_framed framed, opening.first syn rest sends, equal.1]
  · rw [more, sends] at equal
    simp at equal

/-- The frames that have been queued begin with the SYN frame, if it is one message and nothing is
merged into it. -/
theorem Opening.turn (opening : Opening own x) (turn : Turn own own' x x')
    (framed : Framed x.cfg.stream (x.sends.map Sent.frame) own)
    (framed' : Framed x.cfg.stream (x'.sends.map Sent.frame) own')
    (written : x.kcp.cb.Written own) (configured : x.kcp.cb.Configured x.cfg)
    (first : ∀ sent rest, x'.sends = sent :: rest → sent.frame ≠ [] ∧
      (x.cfg.stream = false ∨ sent.frame.length ≤ x.kcp.cb.mss))
    (apart : x'.sends = x.sends ∨ x.sends = [] ∨ x.cfg.stream = false ∨ 1 ≤ x.kcp.cb.sndNxt) :
    Opening own' x' := by
  have mode : x.kcp.cb.stream = x.cfg.stream := configured.stream
  rcases turn.wrote with ⟨rfl, same⟩ | ⟨sent, more, _, wrote⟩
  · exact ⟨by rw [same]; exact opening.silent, by rw [same]; exact opening.first,
      by rw [same]; exact opening.alone, opening.short⟩
  cases stream : x.cfg.stream with
  | false =>
      rw [stream] at framed'
      refine .of_message framed' (by simp [more]) (fun sent rest sends => (first sent rest sends).1) ?_
      rcases wrote with ⟨_, rfl⟩ | ⟨_, appended⟩
      · exact opening.short
      · obtain ⟨rfl, few⟩ := appended.whole (.inl (mode.trans stream))
        rw [List.forall_mem_append]
        exact ⟨opening.short, Ikcpcb.frg_fragments few⟩
  | true =>
      rw [stream] at framed framed'
      have short : ∀ payload ∈ own', payload.frg.toNat + 1 < ikcpWndRcv := by
        intro payload member
        rw [(framed'.merged rfl).1 payload member]
        decide
      by_cases none : x.sends = []
      · -- The SYN frame is queued.
        have empty := opening.silent none
        subst empty
        have queue : x.kcp.cb.sndQueue = [] := by
          have length := written.length
          exact List.eq_nil_of_length_eq_zero (by simp at length; omega)
        rw [none, List.nil_append] at more
        obtain ⟨some, size⟩ := first sent [] more
        refine .of_single more ?_ short
        rcases wrote with ⟨nothing, _⟩ | ⟨_, appended⟩
        · exact absurd nothing some
        · obtain ⟨equal, _⟩ := appended.whole (.inr queue)
          rw [equal, List.nil_append, Ikcpcb.fragments_single (size.resolve_left (by simp [stream]))]
          rfl
      · -- The SYN frame has been numbered.
        obtain ⟨syn, rest, sends⟩ := List.exists_cons_of_ne_nil none
        have numbered : 1 ≤ x.kcp.cb.sndNxt := by
          rcases apart with same | nothing | other | numbered
          · rw [same] at more
            simp at more
          · exact absurd nothing none
          · rw [stream] at other
            cases other
          · exact numbered
        refine opening.behind framed framed' sends more ?_ short
        rcases wrote with ⟨_, rfl⟩ | ⟨_, appended⟩
        · rfl
        · have kept := congrArg List.head? appended.numbered
          rwa [List.head?_take, List.head?_take, if_neg (by omega), if_neg (by omega)] at kept

/-- The first frame is as long as the session key with a session id. -/
def Begins (config : Config) (t : Task) : Prop := ∀ sent rest, t.sends = sent :: rest →
  sent.frame.length = config.sessionKey.length + config.sessionIdLen

theorem Opens.begins (opens : t.Opens) (cfg : t.cfg = config) : t.Begins config := by
  intro sent rest sends
  obtain ⟨none, _⟩ | ⟨syn, others, equal, _, length, _⟩ := opens
  · rw [sends] at none
    cases none
  · rw [sends, List.cons.injEq] at equal
    rw [equal.1, length, cfg]

/-- A move without a FIN frame. -/
theorem Move.acquainted (move : Move ambient x x') (acquainted : Acquainted body body' x y)
    (unfinished : ¬ x'.finQueued) (inv : x.FinLast) (still : y.FinLast) (modest : x'.Modest)
    (short : y.kcp.cb.sndNxt < 2 ^ 31)
    (carried : ∀ packet, ambient.Delivered packet → packet ∈ y.emitted) (begins : x'.Begins config)
    (cfg : x.cfg = config) (named : 0 < config.sessionKey.length + config.sessionIdLen)
    (fits : config.synWhole)
    (apart : x'.sends = x.sends ∨ x.sends = [] ∨ x.cfg.stream = false ∨ 1 ≤ x.kcp.cb.sndNxt) :
    ∃ body'', Acquainted body'' body' x' y ∧ x.Grows body body'' ∧
      (x'.sends = x.sends → body'' = body) := by
  obtain ⟨body'', tail, joined, grows, turn⟩ :=
    move.joined acquainted.toJoined inv still modest short carried
  have last : tail = [] := by
    by_contra some
    exact unfinished (joined.out.unfinished some)
  subst last
  have framed := acquainted.out.all
  have framed' := joined.out.all
  have written := acquainted.speaks.written
  have turn' := turn
  have cfg' : x'.cfg = x.cfg := move.identity.1
  rw [List.append_nil] at framed framed' written
  rw [List.append_nil, List.append_nil] at turn'
  rw [cfg'] at framed'
  have opening : Opening body'' x' := by
    refine acquainted.opening.turn turn' framed framed' written acquainted.speaks.configured
      (fun sent rest sends => ?_) apart
    rw [acquainted.speaks.configured.mss, ← List.length_pos_iff, begins sent rest sends, cfg]
    exact ⟨named, fits⟩
  have numbered : y.kcp.cb.taken ≤ x.kcp.cb.sndNxt := by
    have most := acquainted.answers.tied.arrived.most
    have next := acquainted.answers.tied.arrived.rcvNxt_eq
    omega
  refine ⟨body'', ⟨joined, opening, acquainted.opening',
    acquainted.read acquainted.unfinished' acquainted.reads turn short,
    acquainted.reads'.sender grows numbered, unfinished, acquainted.unfinished'⟩, grows, fun same => ?_⟩
  rcases turn'.wrote with ⟨equal, _⟩ | ⟨_, more, _⟩
  · exact equal
  · rw [same] at more
    simp at more

theorem sends_grow (moves : Moves ambient x x') : x.sends <+: x'.sends :=
  (trace_prefix_of_moves moves).filterMap Obs.sent

/-- Moves without a FIN frame, and what each of them keeps of the mover. -/
theorem Moves.acquainted (moves : Moves ambient x x') (acquainted : Acquainted body body' x y)
    (regular : x.Regular config) (begins : x'.Begins config) (still : y.FinLast) (modest : x'.Modest)
    (short : y.kcp.cb.sndNxt < 2 ^ 31)
    (carried : ∀ packet, ambient.Delivered packet → packet ∈ y.emitted)
    (named : 0 < config.sessionKey.length + config.sessionIdLen) (fits : config.synWhole)
    (apart : config.stream = false ∨ 1 ≤ x.kcp.cb.sndNxt ∨
      x'.sends.length ≤ max 1 x.sends.length)
    (Invariant : List Payload → Task → Prop) (holds : Invariant body x)
    (kept : ∀ own u u', Move ambient u u' → Moves ambient u' x' → u'.Modest →
      u.Regular config → Acquainted own body' u y → Invariant own u →
      ¬ u'.finQueued ∧ ∀ own', Acquainted own' body' u' y → Invariant own' u') :
    ∃ body'', Acquainted body'' body' x' y ∧ Invariant body'' x' ∧
      x.kcp.cb.sndNxt ≤ x'.kcp.cb.sndNxt ∧ (x'.sends = x.sends → body'' = body) := by
  induction moves with
  | refl => exact ⟨body, acquainted, holds, le_rfl, fun _ => rfl⟩
  | @tail u u' moves move inductionHypothesis =>
      have more := (sends_grow (.single move)).length_le
      have most := (sends_grow moves).length_le
      have earlier : u.Begins config := fun sent rest sends => by
        obtain ⟨extra, split⟩ := sends_grow (.single move)
        rw [sends, List.cons_append] at split
        exact begins sent _ split.symm
      obtain ⟨body'', acquainted', holds', next, same⟩ := inductionHypothesis earlier
        (move.modest modest) (apart.imp_right (·.imp_right (more.trans ·)))
        fun own v v' step rest => kept own v v' step (rest.tail move)
      have regular' : u.Regular config := Moves.invariant moves (fun _ _ move => move.regular) regular
      obtain ⟨unfinished, later⟩ := kept body'' u u' move .refl modest regular' acquainted' holds'
      obtain ⟨own, acquainted'', _, same'⟩ := move.acquainted acquainted' unfinished
        regular'.finLast still modest short carried begins regular'.cfg named fits (by
          rcases apart with message | numbered | few
          · exact .inr (.inr (.inl (by rw [regular'.cfg, message])))
          · exact .inr (.inr (.inr (numbered.trans next)))
          · rcases move.sends with equal | ⟨sent, trace, _⟩
            · exact .inl equal
            · refine .inr (.inl (List.eq_nil_of_length_eq_zero ?_))
              have length := congrArg List.length (sends_of_trace trace)
              rw [List.length_append, List.length_singleton] at length
              omega)
      refine ⟨own, acquainted'', later own acquainted'', next.trans move.sndNxt_le, fun equal => ?_⟩
      have between : u.sends = x.sends := by
        refine ((sends_grow moves).eq_of_length (le_antisymm most ?_)).symm
        rw [← equal]
        exact more
      rw [same' (equal.trans between.symm), same between]

theorem Moves.opens (moves : Moves ambient t t') (regular : t.Regular config) (opens : t.Opens) :
    t'.Regular config ∧ t'.Opens :=
  @Moves.invariant _ (fun u => u.Regular config ∧ u.Opens) _ _ moves
    (fun _ _ move kept => ⟨move.regular kept.1, move.opens kept.1.unheld kept.1.known kept.2⟩)
    ⟨regular, opens⟩

/-- Before the FIN handshake no FIN frame has been queued. -/
theorem Regular.unqueued (regular : x.Regular config) (before : x.beforeFin) : ¬ x.finQueued := by
  intro queued
  rcases (regular.finLast.of_finQueued queued).2.1 with (state | state) | state <;>
    simp [beforeFin, state] at before

end Task
end KcpRs
