import KcpRs.Pair.Acquaintance

/-!
# Acknowledged means received

A segment that has been numbered and is no longer in flight has arrived at the other task, whatever
the network has done (`Ikcpcb.Tied`). `Entrusted` adds what has been read: as long as a task has not
queued its FIN frame, the other one has returned the messages of the segments that it has taken. So
when nothing waits for an acknowledgement, the other task has returned or holds every frame that was
queued (`acknowledged_received`).
-/

namespace KcpRs

open Lib Relation

/-- What stands for the numbers of a range are the payloads at these places. -/
theorem map_of_stands_range' {payloads : List Payload} {views : List (U32 × Payload)}
    {base count : Nat} (stand : List.Forall₂ (Stands (At payloads)) views (List.range' base count)) :
    views.map Prod.snd = (payloads.drop base).take count := by
  induction count generalizing base views with
  | zero =>
      cases stand
      rfl
  | succ count inductionHypothesis =>
      rw [List.range'_succ] at stand
      cases stand with
      | cons first rest =>
          obtain ⟨inside, at_⟩ := List.getElem?_eq_some_iff.1 first.2
          rw [List.map_cons, inductionHypothesis rest, List.drop_eq_getElem_cons inside, at_,
            List.take_succ_cons]

/-- When every number has arrived, the receive side holds all that has not been taken. -/
theorem Ikcpcb.Arrived.received_eq {kcp : Ikcpcb} {payloads : List Payload}
    (arrived : kcp.Arrived (At payloads) payloads.length) (small : payloads.length < 2 ^ 31)
    (all : ∀ number < payloads.length, kcp.Has number) :
    kcp.received.map Seg.payload = payloads.drop kcp.taken := by
  have buffered : kcp.rcvBuf.map Seg.payload = payloads.drop kcp.rcvNxt := by
    have gapless := arrived.buffer.full fun number least below => by
      rcases all number below with before | ⟨seg, member, sn⟩
      · omega
      · refine ⟨seg.view, List.mem_map_of_mem member, fun other _ most stands => ?_⟩
        exact ofNat_inj_of_lt (by omega) (by omega) (stands.1.symm.trans sn)
    have views := map_of_stands_range' gapless
    rw [List.map_map, List.take_of_length_le (by rw [List.length_drop])] at views
    exact views
  have queued := List.prefix_iff_eq_take.1 arrived.queue_prefix
  rw [List.length_map] at queued
  rw [received, List.map_append, queued, buffered, arrived.rcvNxt_eq, ← List.drop_drop,
    List.take_append_drop]

namespace Task

variable {ambient : Ambient} {config : Config} {x x' y : Task}
  {body tail body' tail' : List Payload}

/-- What is between two tasks, and what they have read before the FIN frame of the other one. -/
structure Entrusted (body tail body' tail' : List Payload) (x y : Task) : Prop extends
    Joined body tail body' tail' x y where
  reads : ¬ y.finQueued → Reads body' x
  reads' : ¬ x.finQueued → Reads body y

/-- The two ends are alike. -/
theorem Entrusted.symm (entrusted : Entrusted body tail body' tail' x y) :
    Entrusted body' tail' body tail y x :=
  ⟨entrusted.toJoined.symm, entrusted.reads', entrusted.reads⟩

theorem Move.entrusted (move : Move ambient x x') (entrusted : Entrusted body tail body' tail' x y)
    (inv : x.FinLast) (still : y.FinLast) (modest : x'.Modest) (short : y.kcp.cb.sndNxt < 2 ^ 31)
    (carried : ∀ packet, ambient.Delivered packet → packet ∈ y.emitted) :
    ∃ body'' tail'', Entrusted body'' tail'' body' tail' x' y := by
  obtain ⟨body'', tail'', joined, grows, turn⟩ :=
    move.joined entrusted.toJoined inv still modest short carried
  refine ⟨body'', tail'', joined, fun unfinished => ?_, fun unfinished => ?_⟩
  · exact entrusted.read unfinished (entrusted.reads unfinished) turn short
  · refine (entrusted.reads' fun queued => unfinished (finQueued_of_moves (.single move) queued)).sender
      grows ?_
    have most := entrusted.answers.tied.arrived.most
    have position := entrusted.answers.tied.arrived.rcvNxt_eq
    omega

/-- Any number of moves of one task. -/
theorem Moves.entrusted (moves : Moves ambient x x') (entrusted : Entrusted body tail body' tail' x y)
    (inv : x.FinLast) (still : y.FinLast) (modest : x'.Modest) (short : y.kcp.cb.sndNxt < 2 ^ 31)
    (carried : ∀ packet, ambient.Delivered packet → packet ∈ y.emitted) :
    ∃ body'' tail'', Entrusted body'' tail'' body' tail' x' y := by
  induction moves with
  | refl => exact ⟨body, tail, entrusted⟩
  | tail moves move inductionHypothesis =>
      obtain ⟨_, _, entrusted'⟩ := inductionHypothesis (move.modest modest)
      have inv' := Moves.invariant moves (fun _ _ move => move.finLast) inv
      exact move.entrusted entrusted' inv' still modest short carried

theorem Fresh.entrusted {conv conv' : U32} {id id' : Bytes} (fresh : Fresh config conv id x)
    (fresh' : Fresh config conv' id' y) : Entrusted [] [] [] [] x y :=
  ⟨(fresh.unbroken fresh').toJoined, fun _ => fresh.reads, fun _ => fresh'.reads⟩

/-- What the send side of `x` says about the receive side of `y`: a number that has been given and is
not in flight has arrived, and when nothing waits before the FIN handshake, `y` has returned or
holds every frame that was queued. -/
structure Receipt (x y : Task) : Prop where
  arrived : ∀ number < x.kcp.cb.sndNxt, (∀ seg ∈ x.kcp.cb.sndBuf, seg.sn ≠ BitVec.ofNat 32 number) →
    y.kcp.cb.Has number
  settled : x.kcp.getWaitsnd = 0 → x.beforeFin → if x.cfg.stream then
      y.received.flatten ++ payloadOf y.kcp.cb.received = (x.sends.map Sent.frame).flatten
    else y.received ++ messages (y.kcp.cb.received.map Seg.payload) =
      (x.sends.map Sent.frame).filter fun frame => frame ≠ []

/-- A number that is no longer in flight has arrived. -/
theorem Entrusted.receipt (entrusted : Entrusted body tail body' tail' x y)
    (regular : x.Regular config) (few : x.kcp.cb.sndNxt < 2 ^ 31) : Receipt x y where
  arrived number below gone := by
    refine (entrusted.speaks.tied.covered number below).resolve_right ?_
    rintro ⟨seg, flying, sn⟩
    exact gone seg flying sn
  settled nothing before := by
    have unfinished := regular.unqueued before
    have last : tail = [] := by
      by_contra some
      exact unfinished (entrusted.out.unfinished some)
    subst last
    obtain ⟨_, reached, all⟩ := entrusted.speaks.settled nothing
    have most := entrusted.speaks.written.most
    rw [List.append_nil] at reached most
    have same : body.length = x.kcp.cb.sndNxt := by omega
    have arrived := entrusted.answers.tied.arrived
    rw [List.append_nil, ← same] at arrived
    rw [← same] at few all
    have held := arrived.received_eq few all
    obtain ⟨_, whole, received⟩ := entrusted.reads' unfinished
    have split := List.take_append_drop y.kcp.cb.taken body
    have framed := entrusted.out.all
    rw [List.append_nil] at framed
    split
    · rename_i stream
      obtain ⟨plain, bytes⟩ := framed.merged stream
      have taken : messages (body.take y.kcp.cb.taken) = (body.take y.kcp.cb.taken).map Payload.data :=
        messages_of_plain fun payload member => plain payload (List.mem_of_mem_take member)
      rw [← bytes, ← split, bytesOf_append, ← held, bytesOf_map_payload, received, taken, bytesOf,
        List.flatMap_def]
    · rename_i message
      rw [← framed.message (by simpa using message), held, received, ← messages_append whole, split]

end Task

variable {config : Config} {allow : Pair → PairEvent → Prop} {p : Pair}

/-- What is symmetric, holds of fresh tasks and is kept by the moves of one of them holds of every
pair. -/
theorem reach_between {Between : Task → Task → Prop} (symm : ∀ x y, Between x y → Between y x)
    (fresh : ∀ conv conv' id id' x y, Task.Fresh config conv id x → Task.Fresh config conv' id' y →
      Between x y)
    (kept : ∀ ambient x x' y, Task.Moves ambient x x' → x.FinLast → y.FinLast → x'.Modest →
      y.kcp.cb.sndNxt < 2 ^ 31 → (∀ packet, ambient.Delivered packet → packet ∈ y.emitted) →
      Between x y → Between x' y)
    (reach : (pairMachine config).Reach allow p) (client : p.client.Modest) (server : p.server.Modest) :
    Between p.client p.server := by
  induction reach with
  | initial valid =>
      obtain ⟨⟨id, clock, _, started⟩, conv, _, clock', started'⟩ := valid
      obtain ⟨x, isFresh, moves⟩ := @Task.start_moves .idle _ _ _ _ _ started
      obtain ⟨y, isFresh', moves'⟩ := @Task.start_moves .idle _ _ _ _ _ started'
      have short : y.kcp.cb.sndNxt < 2 ^ 31 := by simp [isFresh'.empty.sndNxt]
      have between := kept _ _ _ _ moves isFresh.finLast isFresh'.finLast client short
        (by simp [Ambient.idle]) (fresh _ _ _ _ _ _ isFresh isFresh')
      have inv := moves.invariant (fun _ _ move => move.finLast) isFresh.finLast
      exact symm _ _ (kept _ _ _ _ moves' isFresh'.finLast inv server client.few
        (by simp [Ambient.idle]) (symm _ _ between))
  | step prior _ stepped inductionHypothesis =>
      obtain ⟨reach, reach'⟩ := reach_tasks prior
      have inv := reach_finLast reach
      have inv' := reach_finLast reach'
      rcases Pair.step_cases stepped with ⟨event, _, same, carried, moved⟩ |
        ⟨event, _, same, carried, moved⟩
      · have moves := Task.step_moves (reach_placed reach) moved
        rw [same] at server ⊢
        exact kept _ _ _ _ moves inv inv' client server.few
          (fun packet delivers => Event.mem_emitted carried delivers)
          (inductionHypothesis (moves.modest client) server)
      · have moves := Task.step_moves (reach_placed reach') moved
        rw [same] at client ⊢
        exact symm _ _ (kept _ _ _ _ moves inv' inv server client.few
          (fun packet delivers => Event.mem_emitted carried delivers)
          (symm _ _ (inductionHypothesis client (moves.modest server))))

/-- What is acknowledged has been received, in every run of a pair in which fewer than `2 ^ 31`
segments are sent each way and every frame is one that `max_frame_size` allows. -/
theorem acknowledged_received (keyed : config.sessionKey.length + config.sessionIdLen < 2 ^ 32)
    (reach : (pairMachine config).Reachable p)
    (few : p.client.kcp.cb.sndNxt < 2 ^ 31 ∧ p.server.kcp.cb.sndNxt < 2 ^ 31)
    (sized : ∀ frame ∈ p.client.offered ++ p.server.offered,
      frame.length ≤ (Kcp.maxFrameSize config.mtu).toNat) :
    Task.Receipt p.client p.server ∧ Task.Receipt p.server p.client := by
  rw [List.forall_mem_append] at sized
  obtain ⟨reached, reached'⟩ := reach_tasks reach
  obtain ⟨regular, opens⟩ := reach_regular reached
  obtain ⟨regular', opens'⟩ := reach_regular reached'
  obtain ⟨body, tail, body', tail', entrusted⟩ := @reach_between config _ p
    (fun x y => ∃ body tail body' tail', Task.Entrusted body tail body' tail' x y)
    (by
      rintro x y ⟨body, tail, body', tail', entrusted⟩
      exact ⟨body', tail', body, tail, entrusted.symm⟩)
    (fun _ _ _ _ _ _ fresh fresh' => ⟨[], [], [], [], fresh.entrusted fresh'⟩)
    (by
      rintro ambient x x' y moves inv still modest short carried ⟨_, _, body', tail', entrusted⟩
      obtain ⟨body, tail, entrusted'⟩ := moves.entrusted entrusted inv still modest short carried
      exact ⟨body, tail, body', tail', entrusted'⟩)
    reach (regular.modest opens keyed few.1 sized.1) (regular'.modest opens' keyed few.2 sized.2)
  exact ⟨entrusted.receipt regular few.1, entrusted.symm.receipt regular' few.2⟩

/-- The acknowledgement of the frame of the application reaches the client. -/
def answerEvents : List PairEvent :=
  [.client (.packet (encodePacket
    [{ conv := 1, cmd := ikcpCmdAck, wnd := 256, ts := 100, sn := 1, una := 2 }])), .client .noPacket]

/-- The SYN frame of a client and a frame of its application have been acknowledged. -/
theorem acknowledged_received_frames : ∃ p, (pairMachine wideConfig).Reachable p ∧
    p.client.kcp.getWaitsnd = 0 ∧ p.client.offered = [[9]] ∧ p.server.received ++
      messages (p.server.kcp.cb.received.map Seg.payload) = [[7], [9]] := by
  have run : (pairRun wideConfig 1 [7] lateClock (fun _ => 0) (greetingEvents ++ offerEvents ++
      [.client .recvInput] ++ handOverEvents ++ answerEvents)).map (fun p =>
        (decide (p.client.kcp.cb.sndNxt < 2 ^ 31 ∧ p.server.kcp.cb.sndNxt < 2 ^ 31 ∧
          p.client.kcp.getWaitsnd = 0 ∧ p.client.beforeFin ∧ p.client.cfg.stream = false),
          p.client.offered, p.server.offered, p.client.sends.map Sent.frame)) =
      some (true, [[9]], [], [[7], [9]]) := by decide +kernel
  obtain ⟨p, executed, view⟩ := Option.map_eq_some_iff.1 run
  simp only [Prod.mk.injEq, decide_eq_true_eq] at view
  obtain ⟨⟨client, server, nothing, before, message⟩, offered, offered', sends⟩ := view
  have reach := reach_of_pairRun rfl rfl executed
  have sized : ∀ frame ∈ p.client.offered ++ p.server.offered,
      frame.length ≤ (Kcp.maxFrameSize wideConfig.mtu).toNat := by
    rw [offered, offered']
    decide
  have receipt := (acknowledged_received (by decide) reach ⟨client, server⟩ sized).1
  have frames := receipt.settled nothing before
  rw [if_neg (by simp [message]), sends] at frames
  exact ⟨p, reach, nothing, offered, frames⟩

end KcpRs
