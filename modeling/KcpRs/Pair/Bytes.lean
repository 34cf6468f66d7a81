import KcpRs.Pair.Delivery
import KcpRs.Stream.Adapter

/-!
# Bytes from end to end

The application of one end writes by `poll_write`, the application of the other end reads by
`poll_read` and `poll_next`. Between the two are the chunks of the writer, the tasks, the engines and
the network. What is read is a prefix of what has been reported as written (`bytes_in_order`), whatever
the network loses, duplicates and reorders, and however the frames are cut on the way.
-/

namespace KcpRs

open Lib

namespace Task

variable {config : Config} {t x y : Task} {buffers : List Bytes}
  {results : List (Poll (Except ErrorKind Nat))} {sequence : List ReadCall} {bytes : Bytes}

/-- What has been sent to the output channel. -/
def outputs (t : Task) : List Output := t.trace.filterMap fun
  | .output value => some value
  | _ => none

/-- The application has written by calls of `poll_write` and in no other way. -/
def WrittenBy (t : Task) (buffers : List Bytes) (results : List (Poll (Except ErrorKind Nat))) : Prop :=
  ∃ slots takes sink, pollWrites t.cfg.mtu { slots, takes } buffers = some (results, sink) ∧
    sink.frames = t.offered

/-- The application has read by calls of `poll_read` and `poll_next`, which have handed out `bytes`. -/
def ReadBy (t : Task) (sequence : List ReadCall) (bytes : Bytes) : Prop :=
  ∃ waits, (({ outputs := t.outputs, waits } : Reader).calls sequence).1 = bytes

/-- The bytes in the output channel are those of the frames. -/
theorem frameBytes_outputs (t : Task) : Reader.frameBytes t.outputs = t.shown.flatten := by
  unfold outputs shown
  induction t.trace with
  | nil => rfl
  | cons obs rest inductionHypothesis =>
      cases obs with
      | output value =>
          cases value with
          | connected conv => exact inductionHypothesis
          | frame frame => exact congrArg (frame ++ ·) inductionHypothesis
      | _ => exact inductionHypothesis

/-- What the calls hand out comes from the frames in the channel. -/
theorem ReadBy.of_shown (reads : t.ReadBy sequence bytes) : bytes <+: t.shown.flatten := by
  obtain ⟨waits, rfl⟩ := reads
  have left := (@Reader.calls_reads { outputs := t.outputs, waits } nofun sequence).bytes
  rw [← frameBytes_outputs]
  exact ⟨_, left⟩

end Task

/-- What a sequence of calls of `poll_write` puts into the channel: the bytes that it reports, cut
into frames that are not empty and not larger than `max_frame_size`. -/
theorem pollWrites_frames {mtu : U32} (positive : 0 < (Kcp.maxFrameSize mtu).toNat)
    {buffers : List Bytes} {sink sink' : InputSink} {results : List (Poll (Except ErrorKind Nat))}
    (called : pollWrites mtu sink buffers = some (results, sink')) :
    ∃ frames, sink'.frames = sink.frames ++ frames ∧
      (∀ frame ∈ frames, frame ≠ [] ∧ frame.length ≤ (Kcp.maxFrameSize mtu).toNat) ∧
      frames.flatten = (List.zipWith reported buffers results).flatten := by
  induction buffers generalizing sink results with
  | nil =>
      cases called
      exact ⟨[], (List.append_nil _).symm, List.forall_mem_nil _, rfl⟩
  | cons buf rest inductionHypothesis =>
      obtain ⟨result, middle, first, ⟨frames, enqueued, sized, _⟩, bytes⟩ :=
        pollWrite_writes positive sink buf
      rw [pollWrites, first] at called
      obtain ⟨⟨later, last⟩, calls, equal⟩ := Option.map_eq_some_iff.1 called
      cases equal
      obtain ⟨more, enqueued', sized', bytes'⟩ := inductionHypothesis calls
      have reports : frames.flatten = reported buf result := by
        rw [enqueued, List.flatten_append] at bytes
        exact List.append_cancel_left bytes
      refine ⟨frames ++ more, by rw [enqueued', enqueued, List.append_assoc],
        List.forall_mem_append.2 ⟨sized, sized'⟩, ?_⟩
      rw [List.flatten_append, reports, bytes', List.zipWith_cons_cons, List.flatten_cons]

namespace Task

variable {config : Config} {t x y : Task} {buffers : List Bytes}
  {results : List (Poll (Except ErrorKind Nat))} {sequence : List ReadCall} {bytes : Bytes}

/-- What an application that writes by `poll_write` has offered. -/
theorem WrittenBy.offered (written : t.WrittenBy buffers results)
    (positive : 0 < (Kcp.maxFrameSize t.cfg.mtu).toNat) :
    (∀ frame ∈ t.offered, frame ≠ [] ∧ frame.length ≤ (Kcp.maxFrameSize t.cfg.mtu).toNat) ∧
      t.offered.flatten = (List.zipWith reported buffers results).flatten := by
  obtain ⟨slots, takes, sink, called, same⟩ := written
  obtain ⟨frames, enqueued, sized, bytes⟩ := pollWrites_frames positive called
  rw [← same, enqueued]
  exact ⟨sized, bytes⟩

/-- Frame by frame or byte by byte, the bytes are delivered in order. -/
theorem Delivers.flatten (delivers : x.Delivers y) : y.shown.flatten <+: x.offered.flatten := by
  unfold Delivers at delivers
  split at delivers
  · exact delivers
  · exact List.IsPrefix.flatten delivers

/-- What flows from one task to the other, from the first buffer to the last. -/
theorem Flow.readBy {body tail : List Payload} (flow : Flow body tail x y)
    (regular : x.Regular config) (opens : x.Opens) (cfg : y.cfg = config) (handed : y.Handed)
    (positive : 0 < (Kcp.maxFrameSize config.mtu).toNat)
    (bounded : (Kcp.maxFrameSize config.mtu).toNat < 2 ^ 31)
    (written : x.WrittenBy buffers results) (reads : y.ReadBy sequence bytes) :
    bytes <+: (List.zipWith reported buffers results).flatten := by
  rw [← regular.cfg] at positive
  obtain ⟨sized, whole⟩ := written.offered positive
  rw [regular.cfg] at sized
  have taken := regular.unrefused fun frame member => by
    simp only [Config.fits, Bool.and_eq_true, decide_eq_true_eq]
    exact ⟨(sized frame member).2, (sized frame member).2.trans_lt bounded⟩
  have delivers := flow.delivers regular opens cfg handed (fun frame member => (sized frame member).1)
    taken
  rw [← whole]
  exact reads.of_shown.trans delivers.flatten

end Task

variable {config : Config} {p : Pair}

/-- Bytes from end to end. In every reachable state of a pair whose applications write by
`poll_write`, what the calls of `poll_read` and `poll_next` of one end have handed out is a prefix of
what the calls of `poll_write` of the other end have reported as written. -/
theorem bytes_in_order (fits : config.handshakeFits) (reach : (pairMachine config).Reachable p)
    (few : p.client.kcp.cb.sndNxt < 2 ^ 31 ∧ p.server.kcp.cb.sndNxt < 2 ^ 31)
    (bounded : (config.mtu.toNat - ikcpOverhead) * 255 < 2 ^ 31)
    {buffers buffers' : List Bytes} {results results' : List (Poll (Except ErrorKind Nat))}
    (written : p.client.WrittenBy buffers results) (written' : p.server.WrittenBy buffers' results')
    {sequence sequence' : List ReadCall} {bytes bytes' : Bytes}
    (reads : p.server.ReadBy sequence bytes) (reads' : p.client.ReadBy sequence' bytes') :
    bytes <+: (List.zipWith reported buffers results).flatten ∧
      bytes' <+: (List.zipWith reported buffers' results').flatten := by
  obtain ⟨reach', reach''⟩ := reach_tasks reach
  obtain ⟨regular, opens⟩ := reach_regular reach'
  obtain ⟨regular', opens'⟩ := reach_regular reach''
  have keyed : config.sessionKey.length + config.sessionIdLen < 2 ^ 32 := by
    have most := regular.finLast.configured.most
    rw [regular.cfg] at most
    unfold Config.handshakeFits at fits
    omega
  have least : 50 ≤ config.mtu.toNat := by
    have least := regular.finLast.configured.least
    rwa [regular.cfg] at least
  have size := Kcp.toNat_maxFrameSize least bounded
  have positive : 0 < (Kcp.maxFrameSize config.mtu).toNat := by
    rw [size, ikcpOverhead]
    omega
  have offers (t : Task) (cfg : t.cfg = config) {buffers results}
      (written : t.WrittenBy buffers results) :
      ∀ frame ∈ t.offered, frame.length ≤ (Kcp.maxFrameSize config.mtu).toNat := by
    have offered := (written.offered (cfg ▸ positive)).1
    rw [cfg] at offered
    exact fun frame member => (offered frame member).2
  have client := regular.modest opens keyed few.1 (offers _ regular.cfg written)
  have server := regular'.modest opens' keyed few.2 (offers _ regular'.cfg written')
  obtain ⟨body, tail, body', tail', between, _⟩ := reach_linked fits reach client server
  exact ⟨between.out.readBy regular opens regular'.cfg (reach_handed reach'') positive
      (size ▸ bounded) written reads,
    between.back.readBy regular' opens' regular.cfg (reach_handed reach') positive
      (size ▸ bounded) written' reads'⟩

/-- The client writes one byte, and the server reads it. -/
theorem bytes_in_order_one : ∃ p, (pairMachine messageConfig).Reachable p ∧
    p.client.WrittenBy [[9]] [.ready (.ok 1)] ∧ p.server.ReadBy [.read 4] [9] ∧
      [9] <+: (List.zipWith reported [[9]] [.ready (.ok 1)]).flatten := by
  have run : (pairRun messageConfig 1 [7] lateClock (fun _ => 0)
        (greetingEvents ++ offerEvents ++ [.client .recvInput] ++ handOverEvents)).map (fun p =>
          ((p.client.cfg.mtu, p.client.offered), p.server.offered,
            (({ outputs := p.server.outputs, waits := fun _ => false } : Reader).calls [.read 4]).1,
            (p.client.kcp.cb.sndNxt, p.server.kcp.cb.sndNxt))) =
        some ((1400, [[9]]), [], [9], 2, 1) := by decide +kernel
  obtain ⟨p, executed, view⟩ := Option.map_eq_some_iff.1 run
  simp only [Prod.mk.injEq] at view
  obtain ⟨⟨mtu, offered⟩, none, read, next, next'⟩ := view
  have reach := reach_of_pairRun rfl rfl executed
  have written : p.client.WrittenBy [[9]] [.ready (.ok 1)] := by
    refine ⟨fun _ => .free, fun _ => true, ⟨fun _ => .free, fun _ => true, 1, [[9]]⟩, ?_, offered.symm⟩
    rw [mtu]
    rfl
  have silent : p.server.WrittenBy [] [] :=
    ⟨fun _ => .free, fun _ => true, ⟨fun _ => .free, fun _ => true, 0, []⟩, rfl, none.symm⟩
  have reads : p.server.ReadBy [.read 4] [9] := ⟨fun _ => false, read⟩
  have idle : p.client.ReadBy [] [] := ⟨fun _ => false, rfl⟩
  refine ⟨p, reach, written, reads, (bytes_in_order ?_ reach ?_ ?_ written silent reads idle).1⟩
  · unfold Config.handshakeFits
    decide
  · rw [next, next']
    decide
  · decide

end KcpRs
