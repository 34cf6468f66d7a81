import KcpRs.Pair.Reply
import KcpRs.Listener.Admission

/-!
# The SYN handshake of a pair

`Greets` is about a client in `Syn` and its server. As long as it holds neither is disconnected: what
the client takes for the SYN reply is the SYN reply, and the server does not finish before the reply
has been acknowledged as a whole, which it is only after the client has read it. It ends when both
are connected under the conv of the server with the session id of the client
(`syn_handshake_connects`).
-/

namespace KcpRs

open Lib Relation

/-! ## The first message -/

/-- The first of the fragments of complete messages announces no more than there are. -/
theorem Numbered.frg_lt {payload : Payload} {rest : List Payload}
    (numbered : Numbered (payload :: rest)) (whole : Whole (payload :: rest)) :
    payload.frg.toNat < (payload :: rest).length := by
  induction rest generalizing payload with
  | nil =>
      have single : payload.frg = 0 := whole payload rfl
      simp [single]
  | cons next rest inductionHypothesis =>
      obtain ⟨counts, later⟩ := List.isChain_cons_cons.1 numbered
      have size := inductionHypothesis later whole
      by_cases single : payload.frg = 0
      · simp [single]
      · have step := counts single
        simp only [List.length_cons] at size ⊢
        omega

namespace Task

variable {ambient : Ambient} {config : Config} {t t' x x' y y' : Task} {body body' : List Payload}
  {syn : Sent}

/-- A task that has returned no frame has taken no segment. -/
theorem Acquainted.untaken (acquainted : Acquainted body body' x y) (unread : x.received = []) :
    x.kcp.cb.taken = 0 := by
  obtain ⟨inside, whole, received⟩ := acquainted.reads
  rw [unread] at received
  by_contra some
  refine messagesFrom_ne_nil whole ?_ [] received.symm
  rw [Ne, List.take_eq_nil_iff]
  rintro (none | empty)
  · exact some none
  · rw [empty, List.length_nil] at inside
    omega

/-- The first frame that a task returns is the first one that the other task has queued. -/
theorem Reads.first (reads : Reads body' x) (opening : Opening body' y) {frame : Bytes}
    {rest : List Bytes} (received : x.received = frame :: rest) :
    ∃ sent more, y.sends = sent :: more ∧ frame = sent.frame := by
  obtain ⟨_, whole, equal⟩ := reads
  have split := List.take_append_drop x.kcp.cb.taken body'
  cases sends : y.sends with
  | nil =>
      rw [opening.silent sends, List.take_nil, received] at equal
      cases equal
  | cons sent more =>
      have first := opening.first sent more sends
      rw [← split, messages_append whole, ← equal, received, List.cons_append, List.head?_cons] at first
      exact ⟨sent, more, rfl, Option.some.inj first⟩

/-- As long as no frame can be read, a segment of the first message is missing. -/
theorem Acquainted.gap (acquainted : Acquainted body body' x y) (unread : x.received = [])
    (emptied : Emptied x.kcp.cb) (idle : x.kcp.peekSize = 0) {sent : Sent} {more : List Sent}
    (sends : y.sends = sent :: more)
    (size : 0 < sent.frame.length ∧ sent.frame.length < 2 ^ 31) :
    ∃ number < body'.length, ¬ x.kcp.cb.Has number := by
  by_contra none
  push Not at none
  have untaken := acquainted.untaken unread
  have first := acquainted.opening'.first sent more sends
  have arrived := acquainted.speaks.tied.arrived
  have position := arrived.rcvNxt_eq
  have stretch := arrived.queue_prefix
  have counted := acquainted.speaks.counted
  have window := acquainted.speaks.configured.rcvWnd
  have framed := acquainted.back.framed
  rw [untaken, List.append_nil, List.drop_zero] at stretch
  cases payloads : body' with
  | nil =>
      rw [payloads] at first
      cases first
  | cons payload rest =>
      rw [payloads] at none first stretch framed
      have announced := framed.numbered.frg_lt framed.whole
      have short := acquainted.opening'.short payload (by simp [payloads])
      have enough : payload.frg.toNat < x.kcp.cb.rcvQueue.length := by
        by_contra few
        rcases none x.kcp.cb.rcvNxt (by omega) with before | ⟨seg, buffered, sn⟩
        · exact absurd before (lt_irrefl _)
        · have full := emptied seg buffered sn
          omega
      obtain ⟨seg, queue, head⟩ : ∃ seg queue, x.kcp.cb.rcvQueue = seg :: queue := by
        cases queued : x.kcp.cb.rcvQueue with
        | nil => simp [queued] at enough
        | cons seg queue => exact ⟨seg, queue, rfl⟩
      have same : seg.payload = payload := by
        rw [head, List.map_cons, List.cons_prefix_cons] at stretch
        exact stretch.1
      have chained : Numbered (x.kcp.cb.rcvQueue.map Seg.payload) := by
        obtain ⟨later, split⟩ := stretch
        have numbered := framed.numbered
        rw [← split] at numbered
        exact numbered.left_of_append
      have announced' : seg.frg.toNat < x.kcp.cb.rcvQueue.length := by
        rw [← same] at enough
        exact enough
      obtain ⟨whole, nonempty⟩ := whole_takeMessage chained head announced'
      have message := messages_takeMessage whole nonempty
      obtain ⟨later, split⟩ := (takeMessage_begins _).trans stretch
      rw [← split, messages_append whole, message, List.cons_append, List.head?_cons] at first
      have equal := Option.some.inj first
      have positive : 0 < ikcpPeeksize x.kcp.cb := by
        refine Ikcpcb.ikcpPeeksize_positive_iff.2 ⟨⟨seg, by simp [head], .inr ?_⟩, ?_⟩
        · rw [counted.rcvQueue]
          exact announced'
        · rw [Ikcpcb.headLength, equal, Nat.mod_eq_of_lt (by omega)]
          exact size
      rw [Kcp.peekSize] at idle
      omega

/-! ## What the two say -/

/-- A task that has neither finished nor left its loop says nothing that is flagged. -/
theorem Speaks.unflagged {own other : List Payload} (speaks : y.Speaks own other x)
    (departed : y.Departed) (inv : y.FinLast) (unfinished : ¬ y.finQueued)
    (alive : y.hs ≠ .disconnected)
    (carried : ∀ packet, ambient.Delivered packet → packet ∈ y.emitted) :
    Unflagged ambient kcpReset ∧ Unflagged ambient kcpFin := by
  refine ⟨fun packet cmd arrived command => ?_, fun packet cmd arrived command => ?_⟩
  · by_contra flagged
    exact alive (departed.reset _ (speaks.reset (carried packet arrived) command flagged))
  · by_contra flagged
    obtain ⟨recorded, _⟩ := speaks.honest_fin (carried packet arrived) command flagged
    refine unfinished (inv.finQueued_of_flagged recorded ?_)
    rw [readCmd] at command
    simpa [finFlagged, List.getD_eq_getElem?_getD, command] using flagged

/-- What a task says spares a segment that has not arrived. -/
theorem Acquainted.spares (acquainted : Acquainted body body' x y) {number : Nat}
    (missing : ¬ x.kcp.cb.Has number) {bytes : Bytes} (uttered : x.Utters bytes) :
    PacketSpares number bytes := by
  intro conv fuel segment processed
  rcases uttered with fed | queued
  · exact (acquainted.speaks.honest (mem_emitted.2 (.inl fed)) processed).spares missing
  · obtain ⟨segs, _, rfl, good⟩ := acquainted.speaks.queue bytes queued
    obtain ⟨seg, inside, _, rfl⟩ := mem_accepted_encodePacket
      (fun seg member => (good seg member).2.1) processed
    have spares := (good seg inside).2.2.spares missing
    exact ⟨spares.una, spares.ack⟩

/-- A segment that has not arrived is in flight once it has been numbered. -/
theorem Acquainted.unacked (acquainted : Acquainted body body' x y) {number : Nat}
    (missing : ¬ x.kcp.cb.Has number) : y.kcp.cb.Unacked number := fun below =>
  (acquainted.answers.tied.covered number below).resolve_left missing

/-- A packet that confirms what has arrived is whole, of the conv, and without flags. -/
theorem Confirming.read {conv : U32} {count : Nat} {packet : Bytes}
    (confirming : Confirming conv count packet) :
    readConv packet = some conv ∧ inputCode conv packet = 0 := by
  obtain ⟨segs, wellFormed, rfl, _⟩ := confirming
  have long := wellFormed.length_packet
  cases segs with
  | nil => exact absurd rfl wellFormed.nonempty
  | cons seg rest =>
      refine ⟨?_, ?_⟩
      · rw [readConv_encodePacket, wellFormed.conv seg List.mem_cons_self]
      · rw [inputCode, if_neg long]
        exact (accepted_encodePacket (length_le_length_encodePacket _) wellFormed.conv wellFormed.command
          wellFormed.short).2

/-- A client in `Syn` handles what its server says without losing track of the conv. -/
theorem Acquainted.admits (acquainted : Acquainted body body' x y)
    (agreed : x.Agreed fun packet => packet ∈ y.emitted) (client : x.client) (state : x.hs = .syn)
    (valid : Kcp.isValidConv y.kcp.cb.conv)
    (confirms : ∀ packet ∈ y.emitted, Confirming y.kcp.cb.conv body.length packet) {packet : Bytes}
    (said : packet ∈ y.emitted) : x.admits packet := by
  have confirming := confirms packet said
  obtain ⟨read, code⟩ := confirming.read
  -- What the client holds came from the server.
  have known : ∀ seg ∈ x.kcp.cb.received, seg.conv = y.kcp.cb.conv ∧ seg.conv = x.kcp.cb.conv := by
    intro seg held
    obtain ⟨same, _, packet', said', carried, _⟩ := agreed client state seg held
    have read' := (confirms packet' said').read.1
    rw [read'] at carried
    exact ⟨(Option.some.inj carried).symm, same⟩
  have acknowledged : carriesData (accepted y.kcp.cb.conv packet.length packet) →
      x.kcp.cb.acknowledgedBy (accepted y.kcp.cb.conv packet.length packet) := by
    intro carries
    obtain ⟨segment, processed, data⟩ := List.any_eq_true.1 carries
    have push : segment.1.cmd = ikcpCmdPush := by simpa using data
    obtain ⟨next, past, near, una⟩ : ∃ next, body.length ≤ next ∧ next < 2 ^ 31 ∧
        segment.1.una = BitVec.ofNat 32 next := by
      obtain ⟨segs, wellFormed, rfl, good⟩ := confirming
      rw [(accepted_encodePacket (length_le_length_encodePacket segs) wellFormed.conv wellFormed.command
        wellFormed.short).1] at processed
      obtain ⟨seg, inside, rfl⟩ := List.mem_map.1 processed
      exact good seg inside push
    obtain ⟨number, near', una', all⟩ := (acquainted.answers.honest said processed).una
    have same : number = next := by
      have equal : (BitVec.ofNat 32 number).toNat = (BitVec.ofNat 32 next).toNat := by
        rw [← una', ← una]
        rfl
      rwa [BitVec.toNat_ofNat, BitVec.toNat_ofNat, Nat.mod_eq_of_lt (by omega),
        Nat.mod_eq_of_lt (by omega)] at equal
    have written := acquainted.speaks.written
    have length := written.length
    have most := written.most
    rw [List.append_nil] at length most
    have reached : body.length ≤ x.kcp.cb.sndNxt := by
      by_contra few
      have has := all (body.length - 1) (by omega)
      have below := acquainted.answers.tied.arrived.lt_of_has (by omega) (by omega) has
      omega
    have queue : x.kcp.cb.sndQueue = [] := List.eq_nil_of_length_eq_zero (by omega)
    simp only [Ikcpcb.acknowledgedBy, queue, decide_true, Bool.true_and, Bool.or_eq_true,
      List.any_eq_true, List.all_eq_true, decide_eq_true_eq]
    refine .inl ⟨segment, processed, fun seg flying => ?_⟩
    obtain ⟨_, flight⟩ := acquainted.speaks.tied.flying
    obtain ⟨sn, stands, _, below⟩ := flight.window.exists_number (List.mem_map_of_mem flying)
    have distance : itimediff segment.1.una seg.sn = (next : Int) - sn := by
      rw [una, show seg.sn = BitVec.ofNat 32 sn from stands.1]
      exact serialDiff_of_near (by decide) (by omega) (by omega)
    rw [distance]
    omega
  unfold Task.admits
  rw [read]
  simp only [client, state, Bool.or_eq_true, Bool.and_eq_true, Bool.not_eq_true', List.all_eq_true,
    decide_eq_true_eq, code, valid]
  by_cases none : x.kcp.cb.received = []
  · cases carries : carriesData (accepted y.kcp.cb.conv packet.length packet) with
    | false => simp [none]
    | true => simp [none, acknowledged carries]
  · obtain ⟨seg, held⟩ := List.exists_mem_of_ne_nil _ none
    have same : y.kcp.cb.conv = x.kcp.cb.conv := (known seg held).1.symm.trans (known seg held).2
    refine .inr ⟨fun seg held => (known seg held).1, .inr ⟨⟨trivial, by decide⟩, .inl same⟩⟩

/-! ## The client in `Syn` -/

/-- What a task holds is what it has reassembled from the packets that it was given. -/
def Unread (t : Task) : Prop := ∃ done, Reassembles done t.kcp.cb ∧ Emptied t.kcp.cb

/-- A task that has returned no frame goes on reassembling. -/
theorem Move.unread (move : Move ambient t t') (unnoticed : ¬ t.finRecved) (silent : t'.received = [])
    (unread : t.Unread) : t'.Unread := by
  obtain ⟨done, holds, emptied⟩ := unread
  have window := (engineStable_rcvWnd t.kcp.cb.rcvWnd).move move rfl
  obtain same | ⟨packet, conv, back, data, _, kcp, _, taken, engine, way⟩ | ⟨frame, _, taken⟩ :=
    move.receives
  · exact ⟨done, holds.congr same window, emptied.congr same window⟩
  · obtain ⟨_, rfl⟩ := Kcp.input_eq taken
    have holds' : Reassembles done (t.kcp.setConv conv).cb := holds.congr rfl rfl
    have emptied' : Emptied (t.kcp.setConv conv).cb := emptied.congr rfl rfl
    rw [Unread, engine]
    by_cases short : (BitVec.ofNat 32 data.length).toInt < ikcpOverhead
    · have same : (ikcpInput (t.kcp.setConv conv).cb data).2 = (t.kcp.setConv conv).cb := by
        rw [ikcpInput, if_pos short]
      rw [same]
      exact ⟨done, holds.congr rfl rfl, emptied.congr rfl rfl⟩
    · obtain ⟨holds', emptied'⟩ := holds'.ikcpInput emptied' short
      exact ⟨_, holds'.congr rfl rfl, emptied'.congr rfl rfl⟩
  · obtain ⟨kcp, ⟨got, _, rfl⟩ | ⟨bytes, _, ⟨discards, _, rfl⟩ | ⟨_, _, rfl⟩⟩⟩ := kcpRecv_cases taken
    · obtain ⟨_, rfl⟩ | ⟨_, _, some, _⟩ := Kcp.recvBytes_eq got
      · exact ⟨done, holds, emptied⟩
      · cases some
    · exact absurd discards.1 unnoticed
    · rw [received, log, List.filterMap_append, List.append_eq_nil_iff] at silent
      cases silent.2

/-- In `Syn` a client sends nothing after its SYN frame. -/
theorem Move.sends_of_syn (move : Move ambient t t') (client : t.client) (state : t.hs = .syn)
    (unheld : t.Unheld) (unannounced : t.Unannounced) (asked : t.sends ≠ []) :
    t'.sends = t.sends := by
  rcases move.sends with same | ⟨sent, _, queues⟩
  · exact same
  · cases queues with
    | syn _ _ first => simp [Task.sends, first] at asked
    | reply _ server =>
        rw [client] at server
        cases server
    | data _ queued => exact absurd (unheld (unannounced state)).1 queued
    | fin _ pending =>
        rw [state] at pending
        cases pending

/-- A client that waits for its SYN reply. -/
structure Seeks (t : Task) : Prop where
  client : t.client
  searching : t.hs = .syn
  asked : ∃ syn, t.sends = [syn]
  unread : t.Unread
  unannounced : t.Unannounced
  departed : t.Departed

/-- Moves of a client that goes on waiting. -/
theorem Moves.seeks (moves : Moves ambient x x') (acquainted : Acquainted body body' x y)
    (stays : ¬ ambient.Quits) (searching : x'.hs = .syn) (silent : x'.received = [])
    (regular : x.Regular config) (opens : x.Opens) (still : y.FinLast) (modest : x'.Modest)
    (short : y.kcp.cb.sndNxt < 2 ^ 31)
    (carried : ∀ packet, ambient.Delivered packet → packet ∈ y.emitted)
    (named : 0 < config.sessionKey.length + config.sessionIdLen) (fits : config.synWhole)
    (seeks : x.Seeks) : Acquainted body body' x' y ∧ x'.Seeks := by
  have early {u : Task} (moves : Moves ambient u x') : u.hs = .syn := by
    have rank := moves.advances
    rw [searching] at rank
    cases hs : u.hs <;> simp [hs, Handshake.rank] at rank ⊢
  have unreturned {u : Task} (moves : Moves ambient u x') : u.received = [] := by
    have grows := (trace_prefix_of_moves moves).filterMap Obs.popped
    have none : x'.trace.filterMap Obs.popped = [] := silent
    rw [none, List.prefix_nil] at grows
    exact grows
  have quiet : x'.sends = x.sends := by
    obtain ⟨syn, sends⟩ := seeks.asked
    refine (@Moves.invariant ambient (fun u => (Moves ambient u x' → u.sends = x.sends ∧ u.client) ∧
      u.Unheld ∧ u.Unannounced) x x' moves (fun u u' move holds => ?_)
      ⟨fun _ => ⟨rfl, seeks.client⟩, regular.unheld, seeks.unannounced⟩).1 .refl |>.1
    obtain ⟨same, unheld, unannounced⟩ := holds
    refine ⟨fun rest => ?_, move.unheld unheld, move.unannounced unannounced⟩
    obtain ⟨same, client⟩ := same (.head move rest)
    refine ⟨(move.sends_of_syn client (early (.head move rest)) unheld unannounced ?_).trans same,
      move.conv.1.trans client⟩
    simp [same, sends]
  obtain ⟨regular', opens'⟩ := moves.opens regular opens
  obtain ⟨body'', acquainted', seeks', _, same⟩ := moves.acquainted acquainted regular
    (opens'.begins regular'.cfg) still modest short carried named fits (.inr (.inr (by rw [quiet]; exact le_max_right _ _)))
    (fun _ t => t.Seeks) seeks (by
      intro own u u' move rest _ regular acquainted seeks
      refine ⟨(move.regular regular).unqueued (by simp [beforeFin, early rest]), fun own' _ => ?_⟩
      obtain ⟨syn, sends⟩ := seeks.asked
      refine ⟨move.conv.1.trans seeks.client, early rest, ⟨syn, ?_⟩, ?_,
        move.unannounced seeks.unannounced, move.departed stays seeks.departed⟩
      · rw [move.sends_of_syn seeks.client seeks.searching regular.unheld seeks.unannounced
          (by simp [sends]), sends]
      · exact move.unread (fun noticed => acquainted.unfinished' (acquainted.back.notice noticed))
          (unreturned rest) seeks.unread)
  rw [same quiet] at acquainted'
  exact ⟨acquainted', seeks'⟩

/-! ## The end of a batch -/

/-- The end of a batch in `Syn`: the task goes on waiting, or it has taken a frame, which connects it
unless it is the wrong one or the application is gone. -/
theorem batchDone_of_syn (before : t.hs = .syn) :
    t.batchDone.hs = .syn ∧ t.Hushes t.batchDone ∨
      ∃ syn later, t.kcpRecv = some (some syn, later) ∧
        (t.batchDone.hs = .disconnected ∧ (later.Mismatched syn ∨ t.outputOpen = false) ∨
          t.batchDone.hs = .connected ∧ t.batchDone.hasStream ∧
            later.synSessionId syn = some t.batchDone.sessionId ∧
            t.batchDone.sends.length ≤ t.sends.length + 1) := by
  have flushed (u : Task) : u.kcpFlush.outputOpen = u.outputOpen ∧
      u.kcpFlush.sessionId = u.sessionId := by
    unfold kcpFlush
    split <;> exact ⟨rfl, rfl⟩
  unfold batchDone
  rw [if_pos before]
  cases received : t.synHandshakeRecv with
  | none => exact .inl ⟨before, fun _ => id⟩
  | some outcome =>
      obtain ⟨ok, t'⟩ := outcome
      obtain ⟨rfl, idle⟩ | ⟨syn, later, taken, outcome⟩ := synHandshakeRecv_cases received
      · have hushes := kcpRecv_hushes idle
        exact .inl ⟨(kcpRecv_hs idle).trans before, hushes⟩
      · refine .inr ⟨syn, later, taken, ?_⟩
        obtain ⟨kcp, _, _, rfl⟩ := kcpRecv_some taken
        obtain ⟨rfl, mismatched, rfl⟩ | ⟨_, valid, connected⟩ | ⟨_, id, sent, valid, reply, connected⟩ :=
          outcome
        · exact .inl ⟨rfl, .inl mismatched⟩
        · obtain ⟨rfl, rfl⟩ | ⟨rfl, closed, rfl⟩ := connect_cases connected
          · refine .inr ⟨rfl, by simp [hasStream, log, Obs.connects], valid, ?_⟩
            simp [sends, log, kcpApplyNodelay, List.filterMap_cons, Obs.sent]
          · exact .inl ⟨rfl, .inr closed⟩
        · obtain ⟨_, _, _, rfl⟩ := handshakeSend_eq reply
          obtain ⟨rfl, rfl⟩ | ⟨rfl, closed, rfl⟩ := connect_cases connected
          · refine .inr ⟨rfl, by simp [hasStream, log, Obs.connects], ?_, ?_⟩
            · dsimp only [log]
              rw [(flushed _).2]
              exact valid
            · simp [sends, log, trace_kcpFlush, kcpApplyNodelay, List.filterMap_cons, Obs.sent, sentRecord]
          · rw [(flushed _).1] at closed
            exact .inl ⟨rfl, .inr closed⟩

/-! ## One step -/

/-- What every reachable task keeps. -/
structure Lawful (config : Config) (t : Task) : Prop extends Regular config t where
  opens : t.Opens
  placed : t.Placed
  handing : t.Handing
  introduced : t.Introduced
  disciplined : t.Disciplined
  silenced : t.pc = .panicked → t.hs = .syn → t.received = []

/-- The application has closed one of its channels before it got its stream. -/
def abandoned (t : Task) : Bool := t.hs = .syn && (!t.outputOpen || t.inputRx.txClosed)

/-- A task in `Syn` has returned no frame, and at the top of its loop there is none. -/
theorem Lawful.waits (lawful : t.Lawful config) (departed : t.Departed) (state : t.hs = .syn) :
    t.received = [] ∧ (t.pc = .head → t.kcp.peekSize = 0) := by
  by_cases panicked : t.pc = .panicked
  · exact ⟨lawful.silenced panicked state, fun inside => absurd (panicked.symm.trans inside) (by simp)⟩
  have stays : ¬ t.left := fun isLeft => by
    rw [departed.left isLeft] at state
    cases state
  have running : t.running := by
    cases pc : t.pc <;> simp [Task.left, Task.running, pc] at stays panicked ⊢
  have ordered := lawful.handing.ordered running (by simp [state])
  exact ⟨ordered.early state, fun inside =>
    lawful.handing.fetched (by simp [unattended, inside]) (ordered.stash_of_syn state).2⟩

/-- A SYN handshake in which nothing flagged arrives and the application stays does not end outside
the end of a batch. -/
theorem Acquainted.lasts (acquainted : Acquainted body body' x y) (lawful : x.Lawful config)
    (departed : x.Departed) (state : x.hs = .syn) {event : Event} (stays : x.quits event = false)
    (held : x.abandoned = false) (unreset : Unflagged (x.ambient event) kcpReset)
    (plain : Unflagged (x.ambient event) kcpFin) : ¬ x.Ends event := by
  rintro (quits | ended | ⟨packet, rfl, cmd, command, reset | fin⟩)
  · rw [stays] at quits
    cases quits
  · have closed := lawful.placed.ended ended
    simp only [Channel.exhausted, Bool.and_eq_true, Bool.or_eq_true] at closed
    rcases closed.2 with tx | rx
    · simp [abandoned, state, tx] at held
    · rcases lawful.introduced.shut rx with noticed | isLeft
      · exact acquainted.unfinished' (acquainted.back.notice noticed)
      · rw [departed.left isLeft] at state
        cases state
  · exact reset (unreset packet cmd rfl command)
  · exact fin (plain packet cmd rfl command)

/-- What a task that has not left its loop has given to the network are packets. -/
theorem utters_of_emitted (departed : t.Departed) (alive : t.hs ≠ .disconnected) {bytes : Bytes}
    (member : bytes ∈ t.emitted) : t.Utters bytes := by
  rcases mem_emitted.1 member with packet | reset
  · exact .inl packet
  · exact absurd (departed.reset bytes reset) alive

/-- The first frame that a task takes is the handshake frame of the other one. -/
theorem Acquainted.accepts (acquainted : Acquainted body body' x y) (introduced : y.Introduced)
    (same : y.cfg = x.cfg) (length : y.sends ≠ [] → y.sessionId.length = x.cfg.sessionIdLen)
    (silent : x.received = []) (few : y.kcp.cb.sndNxt < 2 ^ 31) {syn : Bytes} {later : Task}
    (taken : x.kcpRecv = some (some syn, later)) :
    later.synSessionId syn = some y.sessionId ∧ later.sessionId = x.sessionId := by
  have reads := acquainted.recv acquainted.unfinished' acquainted.reads taken few
  obtain ⟨kcp, _, _, rfl⟩ := kcpRecv_some taken
  have received : ({ x with kcp }.log (.recv syn)).received = [syn] := by
    rw [Task.received, log, List.filterMap_append]
    exact congrArg (· ++ [syn]) silent
  obtain ⟨sent, more, sends, rfl⟩ := reads.first acquainted.opening' received
  have some : y.sends ≠ [] := by simp [sends]
  rw [introduced.named sent more sends, handshakeFrame, same]
  exact ⟨synSessionId_append (length some), rfl⟩

/-- What is between a client that waits for its SYN reply and its server. -/
structure Greets (body body' : List Payload) (x y : Task) : Prop extends
    Acquainted body body' x y where
  seeks : x.Seeks
  agreed : x.Agreed fun packet => packet ∈ y.emitted
  departed' : y.Departed
  alive : y.beforeFin
  serves : y.Serves body.length
  valid : Kcp.isValidConv y.kcp.cb.conv
  replied : y.hs ≠ .syn → y.sessionId = x.sessionId ∧ ∃ number, y.Replied number body' ∧
    ∀ bytes, x.Utters bytes → PacketSpares number bytes

/-- Both tasks have been connected: under the conv of the server and with the session id of the
client. -/
structure Met (x y : Task) : Prop where
  connected : .output (.connected y.kcp.cb.conv) ∈ x.trace
  connected' : .output (.connected y.kcp.cb.conv) ∈ y.trace
  conv : x.kcp.cb.conv = y.kcp.cb.conv
  sessionId : x.sessionId = y.sessionId

/-- A server that has sent something has replied. -/
theorem Greets.answered (greets : Greets body body' x y) (lawful' : y.Lawful config)
    (some : y.sends ≠ []) : y.hs ≠ .syn := by
  obtain ⟨none, _⟩ | ⟨_, _, _, _, _, _, answered⟩ := lawful'.opens
  · exact absurd none some
  · exact answered greets.serves.server

/-- Before its FIN handshake a task is not disconnected. -/
theorem alive_of_beforeFin (before : t.beforeFin) : t.hs ≠ .disconnected := by
  intro gone
  simp [beforeFin, gone] at before

/-- A client takes the SYN reply of its server. -/
theorem Greets.accepts (greets : Greets body body' x y) (lawful : x.Lawful config)
    (lawful' : y.Lawful config) (few : y.kcp.cb.sndNxt < 2 ^ 31) {syn : Bytes} {later : Task}
    (taken : x.kcpRecv = some (some syn, later)) : later.synSessionId syn = some y.sessionId ∧
      later.sessionId = x.sessionId ∧ y.sessionId = x.sessionId ∧ y.hasStream := by
  have cfg : y.cfg = x.cfg := lawful'.cfg.trans lawful.cfg.symm
  have silent := (lawful.waits greets.seeks.departed greets.seeks.searching).1
  obtain ⟨valid, same⟩ := greets.toAcquainted.accepts lawful'.introduced cfg (fun some => by
    rw [(greets.replied (greets.answered lawful' some)).1]
    exact lawful.known (.inl greets.seeks.client)) silent few taken
  have reads := greets.recv greets.unfinished' greets.reads taken few
  obtain ⟨kcp, _, _, rfl⟩ := kcpRecv_some taken
  obtain ⟨sent, more, sends, _⟩ := reads.first greets.opening' (by
    rw [Task.received, log, List.filterMap_append]
    exact congrArg (· ++ [syn]) silent)
  obtain ⟨id, number, replied, _⟩ := greets.replied (greets.answered lawful' (by simp [sends]))
  exact ⟨valid, same, id, replied.stream⟩

/-- A client that becomes connected has met its server. -/
theorem Greets.met (greets : Greets body body' x y) (lawful : x.Lawful config)
    (lawful' : y.Lawful config) (few : y.kcp.cb.sndNxt < 2 ^ 31)
    (after : x.batchDone.hs = .connected) : Met x.batchDone y := by
  obtain ⟨queued, _, conv, trace⟩ :=
    batchDone_connected greets.seeks.client greets.seeks.searching after
  have same : x.kcp.cb.conv = y.kcp.cb.conv := by
    -- The reply has been received from the server.
    obtain ⟨seg, member⟩ := List.exists_mem_of_ne_nil _ queued
    obtain ⟨own, _, packet, said, read, _⟩ := greets.agreed greets.seeks.client
      greets.seeks.searching seg (List.mem_append_left _ member)
    have uttered := utters_of_emitted greets.departed' (alive_of_beforeFin greets.alive) said
    rw [(greets.serves.confirms packet uttered).read.1, Option.some.injEq] at read
    exact own.symm.trans read.symm
  obtain ⟨syn', _⟩ | ⟨syn, later, taken, ⟨gone, _⟩ | ⟨_, _, id, _⟩⟩ :=
    batchDone_of_syn greets.seeks.searching
  · rw [after] at syn'
    cases syn'
  · rw [after] at gone
    cases gone
  · obtain ⟨id', _, _, stream⟩ := greets.accepts lawful lawful' few taken
    refine ⟨?_, ?_, conv.trans same, Option.some.inj (id.symm.trans id')⟩
    · rw [trace, same]
      simp
    · obtain ⟨obs, member, connects⟩ := List.any_eq_true.1 stream
      obtain ⟨conv, own, carries⟩ := greets.serves.disciplined.recorded obs member
      unfold Obs.connects at connects
      split at connects
      · rename_i reported
        have equal : reported = conv := carries
        rwa [equal, own greets.serves.server] at member
      · cases connects

/-- The end of a batch does not disconnect a client. -/
theorem Greets.survives (greets : Greets body body' x y) (lawful : x.Lawful config)
    (lawful' : y.Lawful config) (few : y.kcp.cb.sndNxt < 2 ^ 31) (held : x.abandoned = false) :
    x.batchDone.hs = .syn ∧ x.Hushes x.batchDone ∨ x.batchDone.hs = .connected := by
  obtain waits | ⟨syn, later, taken, ⟨_, mismatched | closed⟩ | ⟨connected, _⟩⟩ :=
    batchDone_of_syn greets.seeks.searching
  · exact .inl waits
  · obtain ⟨valid, same, id, _⟩ := greets.accepts lawful lawful' few taken
    rcases mismatched with invalid | ⟨_, other⟩
    · rw [valid] at invalid
      cases invalid
    · rw [valid, same, id] at other
      exact absurd rfl other
  · simp [abandoned, greets.seeks.searching, closed] at held
  · exact .inr connected

theorem Moves.sessionId (moves : Moves ambient t t') (known : t.client ∨ t.hs ≠ .syn) :
    t'.sessionId = t.sessionId := by
  refine (@Moves.invariant _ (fun u => u.sessionId = t.sessionId ∧ (u.client ∨ u.hs ≠ .syn)) _ _ moves
    (fun u u' move holds => ?_) ⟨rfl, known⟩).1
  obtain ⟨same, known⟩ := holds
  refine ⟨(move.sessionId.resolve_right ?_).trans same, known.imp (move.conv.1.trans ·) fun later =>
    (move.identity.2 later).2⟩
  rintro ⟨server, state⟩
  rcases known with client | later
  · rw [server] at client
    cases client
  · exact later state

/-- A step of the client: it goes on waiting, or it has met its server. -/
theorem Greets.client (greets : Greets body body' x y) (lawful : x.Lawful config)
    (lawful' : y.Lawful config) (later : x'.Lawful config) {event : Event}
    (stepped : x.step event = some x') (carried : event.carried y) (stays : x.quits event = false)
    (held : x.abandoned = false) (modest : x'.Modest) (short : y.kcp.cb.sndNxt < 2 ^ 31)
    (named : 0 < config.sessionKey.length + config.sessionIdLen)
    (framed : config.sessionKey.length + config.sessionIdLen < 2 ^ 31) (fits : config.synWhole) :
    Greets body body' x' y ∨ Met x' y := by
  have moves := step_moves lawful.placed stepped
  have quiet : ¬ (x.ambient event).Quits := by simp [ambient, stays]
  have said (packet : Bytes) (delivered : (x.ambient event).Delivered packet) : packet ∈ y.emitted :=
    Event.mem_emitted carried delivered
  have alive := alive_of_beforeFin greets.alive
  obtain ⟨unreset, plain⟩ := greets.answers.unflagged greets.departed' lawful'.finLast
    greets.unfinished' alive said
  have goes : (x'.hs = .syn ∧ (x.Hushes x' ∨ x'.pc = .head)) ∨ Met x' y := by
    obtain ⟨_, rfl⟩ | waits | ⟨_, ends⟩ := step_syn stepped greets.seeks.searching
    · rcases greets.survives lawful lawful' short held with ⟨state, hushes⟩ | connected
      · exact .inl ⟨state, .inl hushes⟩
      · exact .inr (greets.met lawful lawful' short connected)
    · exact .inl waits
    · exact absurd ends (greets.toAcquainted.lasts lawful greets.seeks.departed
        greets.seeks.searching stays held unreset plain)
  refine goes.imp_left ?_
  rintro ⟨state, hushes⟩
  have departed := moves.invariant (fun _ _ move => move.departed quiet) greets.seeks.departed
  obtain ⟨silent, idle⟩ := later.waits departed state
  obtain ⟨acquainted, seeks⟩ := moves.seeks greets.toAcquainted quiet state silent lawful.toRegular
    lawful.opens lawful'.finLast modest short said named fits greets.seeks
  refine ⟨acquainted, seeks, ?_, greets.departed', greets.alive, greets.serves, greets.valid,
    fun answered => ?_⟩
  · refine step_agreed lawful.placed lawful.disciplined.counted
      greets.toAcquainted.speaks.tied.flying (fun packet delivers => ?_) greets.agreed stepped
    have said' := said packet delivers
    refine ⟨said', greets.toAcquainted.admits greets.agreed greets.seeks.client greets.seeks.searching
      greets.valid (fun packet member => ?_) said'⟩
    exact greets.serves.confirms packet (utters_of_emitted greets.departed' alive member)
  · obtain ⟨id, number, replied, spares⟩ := greets.replied answered
    rw [moves.sessionId (.inl greets.seeks.client)]
    refine ⟨id, ?_⟩
    rcases hushes with hushes | head
    · exact ⟨number, replied, fun bytes uttered => spares bytes (hushes bytes uttered)⟩
    · -- At the top of the loop a segment of the reply is missing.
      obtain ⟨_, _, _, early⟩ | ⟨sent, more, sends, _, length, _⟩ := lawful'.opens
      · exact absurd early (by simp [Early, answered, alive])
      · rw [lawful'.cfg] at length
        obtain ⟨_, _, emptied⟩ := seeks.unread
        obtain ⟨missed, below, missing⟩ := acquainted.gap silent emptied (idle head) sends
          (by rw [length]; exact ⟨named, framed⟩)
        exact ⟨missed, { replied with
          number_lt := below
          unacked := acquainted.unacked missing }, fun bytes => acquainted.spares missing⟩

theorem Moves.emitted (moves : Moves ambient t t') {bytes : Bytes} (member : bytes ∈ t.emitted) :
    bytes ∈ t'.emitted :=
  ((trace_prefix_of_moves moves).filterMap Obs.wire).subset member

/-- A server keeps its conv. -/
theorem Moves.server_conv (moves : Moves ambient t t') (server : t.client = false) :
    t'.kcp.cb.conv = t.kcp.cb.conv := by
  refine (@Moves.invariant _ (fun u => u.kcp.cb.conv = t.kcp.cb.conv ∧ u.client = false) _ _ moves
    (fun u u' move holds => ?_) ⟨rfl, server⟩).1
  obtain ⟨same, server⟩ := holds
  obtain ⟨side, conv | ⟨client, _⟩⟩ := move.conv
  · exact ⟨conv.trans same, side.trans server⟩
  · rw [server] at client
    cases client

/-- In streaming mode a frame is merged into the SYN frame, of which no segment has been numbered. -/
def merges (t : Task) (event : Event) : Bool :=
  t.cfg.stream && t.hs ≠ .syn && t.kcp.cb.sndNxt = 0 &&
    (t.step event).any fun later => later.sends ≠ t.sends

/-- What both tasks have in common outlives a step of the server. -/
theorem Greets.rejoin (greets : Greets body body' x y) (moves : Moves ambient y y')
    (quiet : ¬ ambient.Quits) {body'' : List Payload} (acquainted : Acquainted body body'' x y')
    (serves : y'.Serves body.length) (before : y'.beforeFin) (replied : y'.hs ≠ .syn →
      y'.sessionId = x.sessionId ∧ ∃ number, y'.Replied number body'' ∧
        ∀ bytes, x.Utters bytes → PacketSpares number bytes) : Greets body body'' x y' := by
  have departed : y'.Departed := moves.invariant (fun _ _ move => move.departed quiet) greets.departed'
  have same : y'.kcp.cb.conv = y.kcp.cb.conv := moves.server_conv greets.serves.server
  refine ⟨acquainted, greets.seeks, ?_, departed, before, serves, same ▸ greets.valid, replied⟩
  intro client state seg member
  obtain ⟨own, valid, packet, delivered, carries⟩ := greets.agreed client state seg member
  exact ⟨own, valid, packet, moves.emitted delivered, carries⟩

/-- A server that waits for the SYN frame has sent no frame. -/
theorem Greets.unanswered (greets : Greets body body' x y) (lawful' : y.Lawful config)
    (state : y.hs = .syn) : y.sends = [] := by
  by_contra some
  exact greets.answered lawful' some state

/-- The server connects: it reads the SYN frame of the client, and none of its reply has arrived. -/
theorem Greets.connects (greets : Greets body body' x y) (lawful : x.Lawful config)
    (lawful' : y.Lawful config) (later : y.batchDone.Lawful config)
    (moves : Moves ambient y y.batchDone) (quiet : ¬ ambient.Quits) (state : y.hs = .syn)
    (held : y.abandoned = false) (short : x.kcp.cb.sndNxt < 2 ^ 31)
    (serve : y.batchDone.beforeFin → y.batchDone.sends.length ≤ max 1 y.sends.length →
      ∃ body'', Acquainted body body'' x y.batchDone ∧ y.batchDone.Serves body.length)
    (waiting : y.batchDone.hs = .syn → ∃ body'', Greets body body'' x y.batchDone) :
    ∃ body'', Greets body body'' x y.batchDone := by
  have silent := greets.unanswered lawful' state
  have departed : y.batchDone.Departed :=
    moves.invariant (fun _ _ move => move.departed quiet) greets.departed'
  have cfg : x.cfg = y.cfg := lawful.cfg.trans lawful'.cfg.symm
  have unreceived := (lawful'.waits greets.departed' state).1
  obtain ⟨waits, _⟩ | ⟨syn', after, taken, outcome⟩ := batchDone_of_syn state
  · exact waiting waits
  obtain ⟨valid, _⟩ := greets.toAcquainted.symm.accepts lawful.introduced cfg
    (fun _ => (lawful.known (.inl greets.seeks.client)).trans (congrArg _ cfg)) unreceived short taken
  rcases outcome with ⟨_, mismatched | closed⟩ | ⟨connected, stream, id, more⟩
  · obtain ⟨kcp, _, _, rfl⟩ := kcpRecv_some taken
    rcases mismatched with invalid | ⟨client, _⟩
    · rw [valid] at invalid
      cases invalid
    · have client' : y.client := client
      rw [greets.serves.server] at client'
      cases client'
  · simp [abandoned, state, closed] at held
  · have before : y.batchDone.beforeFin := by simp [beforeFin, connected]
    rw [silent] at more
    obtain ⟨body'', acquainted, serves⟩ := serve before (by simpa [silent] using more)
    have missing : ¬ x.kcp.cb.Has 0 := by
      intro has
      have most := greets.rcvNxt_le.2
      rw [greets.opening'.silent silent, List.length_nil] at most
      have below := greets.speaks.tied.arrived.lt_of_has (by omega) (by decide) has
      omega
    have reply : 0 < body''.length := by
      obtain ⟨_, _, _, early⟩ | ⟨sent, rest, sends, _⟩ := later.opens
      · exact absurd early (by simp [Early, connected])
      · have first := acquainted.opening'.first sent rest sends
        by_contra empty
        rw [List.eq_nil_of_length_eq_zero (by omega : body''.length = 0)] at first
        cases first
    refine ⟨body'', greets.rejoin moves quiet acquainted serves before fun _ =>
      ⟨Option.some.inj (id.symm.trans valid), 0, ?_, fun bytes => ?_⟩⟩
    · exact ⟨before, by simp [connected], stream, departed, reply, acquainted.unacked missing⟩
    · -- Nothing of the reply had arrived before.
      exact greets.toAcquainted.spares missing

/-- A step of the server. -/
theorem Greets.server (greets : Greets body body' x y) (lawful : x.Lawful config)
    (lawful' : y.Lawful config) (later : y'.Lawful config) {event : Event}
    (stepped : y.step event = some y') (carried : event.carried x) (stays : y.quits event = false)
    (held : y.abandoned = false) (apart : y.merges event = false) (modest : y'.Modest)
    (short : x.kcp.cb.sndNxt < 2 ^ 31)
    (named : 0 < config.sessionKey.length + config.sessionIdLen) (fits : config.synWhole)
    (moderate : config.mtu.toNat < 2 ^ 30) : ∃ body'', Greets body body'' x y' := by
  have moves := step_moves lawful'.placed stepped
  have quiet : ¬ (y.ambient event).Quits := by simp [ambient, stays]
  have said (packet : Bytes) (delivered : (y.ambient event).Delivered packet) : packet ∈ x.emitted :=
    Event.mem_emitted carried delivered
  have alive : x.hs ≠ .disconnected := by simp [greets.seeks.searching]
  obtain ⟨syn, asked⟩ := greets.seeks.asked
  obtain ⟨unreset, plain⟩ := greets.speaks.unflagged greets.seeks.departed lawful.finLast
    greets.unfinished alive said
  have serve (before : y'.beforeFin) (few : y'.sends.length ≤ max 1 y.sends.length) :=
    moves.serves greets.toAcquainted asked before lawful'.toRegular lawful'.opens lawful.finLast modest
      short said named fits moderate (.inr (.inr few)) greets.serves
  by_cases state : y.hs = .syn
  · have unsaid (waits : y'.hs = .syn) : ∃ body'', Greets body body'' x y' := by
      have none : y'.sends = [] := by
        obtain ⟨none, _⟩ | ⟨_, _, _, _, _, _, answered⟩ := later.opens
        · exact none
        · exact absurd waits (answered (moves.invariant (fun _ _ move server =>
            move.conv.1.trans server) greets.serves.server))
      obtain ⟨body'', acquainted, serves⟩ := serve (by simp [beforeFin, waits]) (by simp [none])
      exact ⟨body'', greets.rejoin moves quiet acquainted serves (by simp [beforeFin, waits])
        fun answered => absurd waits answered⟩
    obtain ⟨_, rfl⟩ | ⟨waits, _⟩ | ⟨_, ends⟩ := step_syn stepped state
    · exact greets.connects lawful lawful' later moves quiet state held short serve unsaid
    · exact unsaid waits
    · exact absurd ends (greets.toAcquainted.symm.lasts lawful' greets.departed' state stays held
        unreset plain)
  · obtain ⟨id, number, replied, spares⟩ := greets.replied state
    have spares' (packet : Bytes) (delivered : (y.ambient event).Delivered packet) :
        PacketSpares number packet :=
      spares packet (utters_of_emitted greets.seeks.departed alive (said packet delivered))
    have few : config.stream = false ∨ 0 < y.kcp.cb.sndNxt ∨ y'.sends.length ≤ max 1 y.sends.length := by
      by_cases message : config.stream = false
      · exact .inl message
      by_cases numbered : y.kcp.cb.sndNxt = 0
      · have stream : y.cfg.stream = true := by
          rw [lawful'.cfg]
          simpa using message
        simp only [merges, stream, state, numbered, stepped, ne_eq, not_false_eq_true, decide_true,
          Bool.true_and, Option.any_some, decide_eq_false_iff_not, not_not] at apart
        rw [apart]
        exact .inr (.inr (le_max_right _ _))
      · exact .inr (.inl (by omega))
    obtain ⟨body'', acquainted, serves, replied'⟩ := moves.replied greets.toAcquainted asked quiet
      unreset plain spares' lawful'.toRegular lawful'.opens lawful.finLast modest short said named fits
      moderate few greets.serves replied
    refine ⟨body'', greets.rejoin moves quiet acquainted serves replied'.before
      fun _ => ⟨?_, number, replied', spares⟩⟩
    rw [moves.sessionId (.inr state), id]

/-- What has been reported of a connection stays. -/
theorem Moves.met {conv : U32} (moves : Moves ambient t t') (unannounced : t.Unannounced)
    (connected : .output (.connected conv) ∈ t.trace) : .output (.connected conv) ∈ t'.trace ∧
      t'.kcp.cb.conv = t.kcp.cb.conv ∧ t'.sessionId = t.sessionId := by
  have later : t.hs ≠ .syn := by
    intro state
    have stream : t.hasStream = true := List.any_eq_true.2 ⟨_, connected, rfl⟩
    rw [unannounced state] at stream
    cases stream
  exact ⟨(trace_prefix_of_moves moves).subset connected, (moves.conv later).2,
    moves.sessionId (.inr later)⟩

/-- A client that has just started has queued its SYN frame, and a server nothing. -/
theorem start_sends {conv : U32} {id : Bytes} {clock : Nat → U32}
    (started : start config conv id clock = some t) : t.inputRx.rxClosed = false ∧
      (conv = Kcp.synConv → t.client ∧ ∃ syn, t.sends = [syn] ∧ syn.frame = t.handshakeFrame) ∧
      (conv ≠ Kcp.synConv → t.trace = [] ∧ t.kcp.outputQueue = []) := by
  unfold start at started
  split at started
  · cases started
  · rename_i base configured
    have queue := (configure_fresh configured id).outputQueue
    obtain ⟨kcp, rfl⟩ := configure_eq configured
    dsimp only [getSystemTime] at started queue
    split at started
    · rename_i search
      obtain ⟨upto, sends⟩ := sends_handshakeSend started
      obtain ⟨_, _, _, rfl⟩ := handshakeSend_eq started
      refine ⟨?_, fun _ => ⟨?_, _, sends, ?_⟩, fun other => absurd search other⟩ <;>
        unfold kcpFlush <;> split <;> rfl
    · rename_i server
      cases started
      exact ⟨rfl, fun search => absurd search server, fun _ => ⟨rfl, queue⟩⟩

theorem start_introduced {conv : U32} {id : Bytes} {clock : Nat → U32}
    (started : start config conv id clock = some t) : t.Introduced := by
  obtain ⟨opened, client, server⟩ := start_sends started
  refine ⟨fun sent rest sends => ?_, fun answers some => ?_, fun closed => ?_⟩
  · by_cases search : conv = Kcp.synConv
    · obtain ⟨_, syn, only, named⟩ := client search
      rw [only, List.cons.injEq] at sends
      rw [← sends.1, named]
    · rw [Task.sends, (server search).1] at sends
      cases sends
  · by_cases search : conv = Kcp.synConv
    · rw [(client search).1] at answers
      cases answers
    · rw [Task.sends, (server search).1] at some
      exact absurd rfl some
  · rw [opened] at closed
    cases closed

/-- What a task does before its loop. -/
theorem Fresh.start {conv : U32} {id : Bytes} (fresh : Fresh config conv id x)
    (length : conv = Kcp.synConv → id.length = config.sessionIdLen) (moves : Moves .idle x x')
    (state : x'.hs = .syn) (opens : x'.Opens) (few : x'.sends.length ≤ 1)
    (acquainted : Acquainted body body' x y) (still : y.FinLast) (modest : x'.Modest)
    (short : y.kcp.cb.sndNxt < 2 ^ 31) (named : 0 < config.sessionKey.length + config.sessionIdLen)
    (fits : config.synWhole) : ∃ body'', Acquainted body'' body' x' y := by
  have regular := fresh.regular length
  have cfg : x'.cfg = config := (moves.invariant (fun _ _ move => move.regular) regular).cfg
  obtain ⟨body'', acquainted', _⟩ := moves.acquainted acquainted regular (opens.begins cfg) still modest
    short (by simp [Ambient.idle]) named fits (.inr (.inr (few.trans (le_max_left _ _))))
    (fun _ _ => True) trivial (by
      intro _ u u' move rest _ regular _ _
      refine ⟨(move.regular regular).unqueued ?_, fun _ _ => trivial⟩
      have rank := rest.advances
      rw [state] at rank
      cases hs : u'.hs <;> simp [hs, Handshake.rank, Task.beforeFin] at rank ⊢)
  exact ⟨body'', acquainted'⟩

/-- A task that has just started has received nothing. -/
theorem start_unread {conv : U32} {id : Bytes} {clock : Nat → U32}
    (started : start config conv id clock = some t) : t.Unread ∧ t.kcp.cb.received = [] := by
  obtain ⟨fresh, isFresh, _, receiver, _⟩ := start_aside started
  simp only [Ikcpcb.receiver, Ikcpcb.Receiver.mk.injEq] at receiver
  obtain ⟨queue, count, buffer, _, next⟩ := receiver
  rw [isFresh.empty.counted.rcvQueue] at count
  rw [isFresh.empty.rcvQueue] at queue count
  rw [isFresh.empty.rcvBuf] at buffer
  have width : t.kcp.cb.rcvWnd < 2 ^ 31 := by
    rw [start_rcvWnd started]
    exact receiveWindow_lt config
  refine ⟨⟨[], Reassembles.empty queue buffer (next.trans isFresh.empty.rcvNxt) count width⟩, ?_⟩
  rw [Ikcpcb.received, queue, buffer]
  rfl

/-- Two tasks that have not begun. -/
theorem Fresh.acquainted {conv conv' : U32} {id id' : Bytes} (fresh : Fresh config conv id x)
    (fresh' : Fresh config conv' id' y) : Acquainted [] [] x y := by
  have silent {conv : U32} {id : Bytes} {t : Task} (fresh : Fresh config conv id t) : t.sends = [] := by
    simp [sends, fresh.trace]
  have opening {conv : U32} {id : Bytes} {t : Task} (fresh : Fresh config conv id t) :
      Opening [] t := by
    refine ⟨fun _ => rfl, fun sent rest some => ?_, fun sent some => ?_, by simp⟩
    · rw [silent fresh] at some
      cases some
    · rw [silent fresh] at some
      cases some
  have unfinished {conv : U32} {id : Bytes} {t : Task} (fresh : Fresh config conv id t) :
      ¬ t.finQueued := by
    rw [finQueued, silent fresh]
    simp
  exact ⟨(fresh.unbroken fresh').toJoined, opening fresh, opening fresh', fresh.reads, fresh'.reads,
    unfinished fresh, unfinished fresh'⟩

end Task

/-! ## Every run -/

variable {config : Config}

theorem reach_introduced {allow : Task → Event → Prop} {t : Task}
    (reach : (taskMachine config).Reach allow t) : t.Introduced := by
  refine reach.invariant Task.Introduced (fun t initial => ?_) (fun t event next prior introduced _
    stepped => ?_)
  · obtain ⟨_, _, _, started⟩ | ⟨_, _, _, started⟩ := initial <;> exact Task.start_introduced started
  · obtain ⟨regular, opens⟩ := reach_regular prior
    refine (@Task.Moves.invariant _ (fun u => (u.Regular config ∧ u.Opens) ∧ u.Introduced) _ _
      (Task.step_moves (reach_placed prior) stepped) (fun u u' move holds => ?_)
      ⟨⟨regular, opens⟩, introduced⟩).2
    obtain ⟨⟨regular, opens⟩, introduced⟩ := holds
    exact ⟨⟨move.regular regular, move.opens regular.unheld regular.known opens⟩,
      move.introduced regular.unheld opens introduced⟩

/-- A task that panics in its SYN handshake has returned no frame. -/
theorem reach_silenced {allow : Task → Event → Prop} {t : Task}
    (reach : (taskMachine config).Reach allow t) :
    t.pc = .panicked → t.hs = .syn → t.received = [] := by
  refine reach.invariant (fun t => t.pc = .panicked → t.hs = .syn → t.received = []) (fun t initial => ?_)
    (fun t event next prior silenced _ stepped panicked state => ?_)
  · obtain ⟨_, _, _, started⟩ | ⟨_, _, _, started⟩ := initial <;> rw [Task.start_pc started] <;> simp
  · obtain already | ⟨running, _, hs, trace⟩ := Task.step_panics stepped panicked
    · obtain ⟨event, rfl⟩ := Task.event_of_panicked stepped already
      obtain ⟨_, _, _, rfl | ⟨_, rfl⟩⟩ := Task.app_eq stepped
      · exact silenced already state
      · refine Eq.trans ?_ (silenced already state)
        simp [Task.received, Task.log, Obs.popped]
    · rw [hs] at state
      rw [Task.received, trace]
      exact ((reach_handing prior).ordered running (by simp [state])).early state

theorem reach_lawful {allow : Task → Event → Prop} {t : Task}
    (reach : (taskMachine config).Reach allow t) : t.Lawful config where
  toRegular := (reach_regular reach).1
  opens := (reach_regular reach).2
  placed := reach_placed reach
  handing := reach_handing reach
  introduced := reach_introduced reach
  disciplined := reach_disciplined reach
  silenced := reach_silenced reach

namespace Pair

variable {p p' : Pair} {event : PairEvent}

/-- Both tasks have been connected. -/
def Met (p : Pair) : Prop := Task.Met p.client p.server

/-- One of the applications has closed a channel before it got its stream. -/
def abandons (p : Pair) : PairEvent → Bool
  | .client _ => p.client.abandoned
  | .server _ => p.server.abandoned

/-- The server merges a frame into its SYN reply. -/
def merges (p : Pair) : PairEvent → Bool
  | .client _ => false
  | .server event => p.server.merges event

/-- The client waits for the reply of the server. -/
def Greets (p : Pair) : Prop := ∃ body body', Task.Greets body body' p.client p.server

theorem met_of_step {allow : Pair → PairEvent → Prop} (reach : (pairMachine config).Reach allow p)
    (stepped : p.step event = some p') (met : p.Met) : p'.Met := by
  obtain ⟨reach, reach'⟩ := reach_tasks reach
  obtain ⟨connected, connected', conv, id⟩ := met
  rcases step_cases stepped with ⟨inner, rfl, same, _, moved⟩ | ⟨inner, rfl, same, _, moved⟩
  · obtain ⟨kept, conv', id'⟩ := (Task.step_moves (reach_placed reach) moved).met
      (reach_disciplined reach).unannounced connected
    unfold Met
    rw [same]
    exact ⟨kept, connected', conv'.trans conv, id'.trans id⟩
  · obtain ⟨kept, conv', id'⟩ := (Task.step_moves (reach_placed reach') moved).met
      (reach_disciplined reach').unannounced connected'
    unfold Met
    rw [same]
    exact ⟨conv'.symm ▸ connected, conv'.symm ▸ kept, conv.trans conv'.symm, id.trans id'.symm⟩

theorem greets_of_initial (named : 0 < config.sessionKey.length + config.sessionIdLen)
    (fits : config.synWhole)
    (initial : (pairMachine config).Initial p) (client : p.client.Modest) (server : p.server.Modest) :
    p.Greets := by
  obtain ⟨reach, reach'⟩ := reach_tasks (@Machine.Reach.initial _ _ _ (fun _ _ => True) _ initial)
  have lawful := reach_lawful reach
  have lawful' := reach_lawful reach'
  obtain ⟨⟨id, clock, length, started⟩, conv, valid, clock', started'⟩ := initial
  obtain ⟨fresh, isFresh, moves⟩ := @Task.start_moves .idle _ _ _ _ _ started
  obtain ⟨fresh', isFresh', moves'⟩ := @Task.start_moves .idle _ _ _ _ _ started'
  obtain ⟨_, _, _, _, state⟩ := Task.start_aside started
  obtain ⟨_, _, _, _, state'⟩ := Task.start_aside started'
  have other : conv ≠ Kcp.synConv := by
    rintro rfl
    revert valid
    decide
  obtain ⟨_, asks, _⟩ := Task.start_sends started
  obtain ⟨isClient, syn, asked, _⟩ := asks rfl
  obtain ⟨_, _, quiet⟩ := Task.start_sends started'
  obtain ⟨trace', queue'⟩ := quiet other
  have silent' : p.server.sends = [] := by
    rw [Task.sends, trace']
    rfl
  have server' : p.server.client = false := by
    refine (moves'.invariant (fun _ _ move same => move.conv.1.trans same) isFresh'.client).trans ?_
    simp [other]
  have short : fresh'.kcp.cb.sndNxt < 2 ^ 31 := by simp [isFresh'.empty.sndNxt]
  obtain ⟨body, acquainted⟩ := isFresh.start (fun _ => length) moves state lawful.opens
    (by simp [asked]) (isFresh.acquainted isFresh') isFresh'.finLast client short named fits
  obtain ⟨body', acquainted⟩ := isFresh'.start (fun same => absurd same other) moves' state'
    lawful'.opens (by simp [silent']) acquainted.symm lawful.finLast server client.few named fits
  have departed {number : U32} {id : Bytes} {t u : Task} (fresh : Task.Fresh config number id t)
      (moves : Task.Moves .idle t u) : u.Departed :=
    moves.invariant (fun _ _ move => move.departed not_false)
      ⟨by simp [Task.left, fresh.pc], by simp [fresh.trace]⟩
  obtain ⟨unread, unreceived⟩ := Task.start_unread started
  refine ⟨body, body', acquainted.symm, ⟨isClient, state, ⟨syn, asked⟩, unread,
    lawful.disciplined.unannounced, departed isFresh moves⟩, ?_, departed isFresh' moves',
    by simp [Task.beforeFin, state'], ⟨lawful'.disciplined, lawful'.introduced, server', ?_⟩, ?_,
    fun answered => absurd state' answered⟩
  · intro _ _ seg member
    rw [unreceived] at member
    cases member
  · rintro bytes (recorded | waiting)
    · rw [trace'] at recorded
      cases recorded
    · rw [queue'] at waiting
      cases waiting
  · have same : p.server.kcp.cb.conv = fresh'.kcp.cb.conv := by
      refine moves'.server_conv ?_
      rw [isFresh'.client]
      simp [other]
    rw [same, isFresh'.conv]
    exact valid

end Pair

variable {p : Pair}

/-- As long as they have not met, the client waits for the reply of the server. -/
theorem reach_greets (bounded : config.Bounded) (narrow : (config.mtu.toNat - ikcpOverhead) * 255 < 2 ^ 31)
    (named : 0 < config.sessionKey.length + config.sessionIdLen) (fits : config.synWhole)
    (reach : (pairMachine config).Reach (fun p event =>
      p.Met ∨ p.quits event = false ∧ p.abandons event = false ∧ p.merges event = false) p)
    (modest : ¬ p.Met → p.client.Modest ∧ p.server.Modest) : p.Met ∨ p.Greets := by
  induction reach with
  | @initial p valid =>
      by_cases met : p.Met
      · exact .inl met
      · exact .inr (Pair.greets_of_initial named fits valid (modest met).1 (modest met).2)
  | @step p p' event prior allowed stepped inductionHypothesis =>
      by_cases met' : p'.Met
      · exact .inl met'
      · have unmet : ¬ p.Met := fun met => met' (Pair.met_of_step prior stepped met)
        obtain ⟨stays, held, apart⟩ := allowed.resolve_left unmet
        obtain ⟨reach, reach'⟩ := reach_tasks prior
        obtain ⟨later, later'⟩ := reach_tasks (prior.step allowed stepped)
        obtain ⟨client, server⟩ := modest met'
        have least := (reach_configured reach).least
        have most := Kcp.toNat_maxFrameSize least narrow
        have framed : config.sessionKey.length + config.sessionIdLen < 2 ^ 31 := by
          unfold Config.Bounded at bounded
          omega
        have moderate : config.mtu.toNat < 2 ^ 30 := by
          simp only [ikcpOverhead] at narrow
          omega
        rcases Pair.step_cases stepped with ⟨inner, rfl, same, carried, moved⟩ |
          ⟨inner, rfl, same, carried, moved⟩
        · have before := (Task.step_moves (reach_placed reach) moved).modest client
          rw [same] at server
          obtain ⟨body, body', greets⟩ :=
            (inductionHypothesis fun _ => ⟨before, server⟩).resolve_left unmet
          rcases greets.client (reach_lawful reach) (reach_lawful reach')
            (reach_lawful later) moved carried stays held client server.few named framed fits
            with greets | met
          · refine .inr ⟨body, body', ?_⟩
            rw [same]
            exact greets
          · refine absurd ?_ met'
            unfold Pair.Met
            rw [same]
            exact met
        · have before := (Task.step_moves (reach_placed reach') moved).modest server
          rw [same] at client
          obtain ⟨body, body', greets⟩ :=
            (inductionHypothesis fun _ => ⟨client, before⟩).resolve_left unmet
          obtain ⟨body', greets⟩ := greets.server (reach_lawful reach)
            (reach_lawful reach') (reach_lawful later') moved carried stays held apart
            server client.few named fits moderate
          refine .inr ⟨body, body', ?_⟩
          rw [same]
          exact greets

/-- The SYN handshake connects the two or goes on. In every run of a pair in which, until both have
been connected, no task gives up its loop, no application closes a channel and no frame is merged
into the SYN reply, a task that is disconnected has been connected, and so has the other one: under
the conv of the server and with the session id of the client. The SYN frame is one message that fits
`max_frame_size`, and until then fewer than `2 ^ 31` segments are sent each way and every frame is
one that `max_frame_size` allows. -/
theorem syn_handshake_connects (bounded : config.Bounded)
    (narrow : (config.mtu.toNat - ikcpOverhead) * 255 < 2 ^ 31)
    (named : 0 < config.sessionKey.length + config.sessionIdLen) (fits : config.synWhole)
    (reach : (pairMachine config).Reach (fun p event =>
      p.Met ∨ p.quits event = false ∧ p.abandons event = false ∧ p.merges event = false) p)
    (few : ¬ p.Met → p.client.kcp.cb.sndNxt < 2 ^ 31 ∧ p.server.kcp.cb.sndNxt < 2 ^ 31)
    (sized : ¬ p.Met → ∀ frame ∈ p.client.offered ++ p.server.offered,
      frame.length ≤ (Kcp.maxFrameSize config.mtu).toNat)
    (gone : p.client.hs = .disconnected ∨ p.server.hs = .disconnected) : p.Met := by
  obtain ⟨reached, reached'⟩ := reach_tasks reach
  obtain ⟨regular, opens⟩ := reach_regular reached
  obtain ⟨regular', opens'⟩ := reach_regular reached'
  have keyed : config.sessionKey.length + config.sessionIdLen < 2 ^ 32 := by
    have most := (Kcp.maxFrameSize config.mtu).isLt
    unfold Config.Bounded at bounded
    omega
  have outcome := reach_greets bounded narrow named fits reach fun unmet => by
    have sized := sized unmet
    rw [List.forall_mem_append] at sized
    exact ⟨regular.modest opens keyed (few unmet).1 sized.1,
      regular'.modest opens' keyed (few unmet).2 sized.2⟩
  rcases outcome with met | ⟨body, body', greets⟩
  · exact met
  · rcases gone with client | server
    · rw [greets.seeks.searching] at client
      cases client
    · exact absurd server (Task.alive_of_beforeFin greets.alive)

/-- Two tasks that have met and come to their ends. -/
theorem syn_handshake_connects_closed : ∃ p, (pairMachine nimbleConfig).Reach (fun p event =>
      p.Met ∨ p.quits event = false ∧ p.abandons event = false ∧ p.merges event = false) p ∧
    p.server.hs = .disconnected ∧ p.Met := by
  have run : (nimbleRun (fun p event => !p.quits event && !p.abandons event && !p.merges event)
      (lastFrameEvents ([Event.reserve true, .tryReserve true] ++ turnEvents))).map (fun p =>
        (decide (p.client.kcp.cb.sndNxt < 2 ^ 31 ∧ p.server.kcp.cb.sndNxt < 2 ^ 31 ∧
          p.server.hs = .disconnected), p.client.offered ++ p.server.offered)) =
      some (true, [[9]]) := by
    decide +kernel
  obtain ⟨p, executed, view⟩ := Option.map_eq_some_iff.1 run
  simp only [Prod.mk.injEq, decide_eq_true_eq] at view
  obtain ⟨⟨client, server, gone⟩, offered⟩ := view
  have reach : (pairMachine nimbleConfig).Reach (fun p event =>
      p.Met ∨ p.quits event = false ∧ p.abandons event = false ∧ p.merges event = false) p :=
    reach_of_nimbleRun (fun p event permitted => .inr (by simpa [and_assoc] using permitted)) executed
  refine ⟨p, reach, gone, ?_⟩
  refine syn_handshake_connects (by unfold Config.Bounded; decide) (by decide) (by decide) (by decide)
    reach (fun _ => ⟨client, server⟩) (fun _ => ?_) (.inr gone)
  rw [offered]
  decide

end KcpRs
