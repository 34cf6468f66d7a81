import KcpRs.Stream.Task
import KcpRs.Wrapper.Sending

/-!
# Writing and reading a stream: `AsyncWrite`, `AsyncRead` and `Stream` for `KcpStream`

The two ends of a `KcpStream` are channels whose other ends the task holds. What they answer is
given by functions of the number of times they have been asked, so that every timing of the task
is among them. `writes_exact` is about the bytes that any sequence of `poll_write` calls puts
into the input channel, `reads_lossless` about those that any sequence of `poll_read` and
`poll_next` calls takes out of the output channel.
-/

namespace KcpRs

open Lib

/-- `std::task::Poll`. -/
inductive Poll (α : Type) where
  | ready (value : α)
  | pending
deriving DecidableEq

/-! ## Writing -/

/-- The loop of `slice::chunks`. Every chunk takes something, so the length of the slice bounds
their number. -/
def chunksLoop {α : Type} (size : Nat) : Nat → List α → List (List α)
  | 0, _ => []
  | _ + 1, [] => []
  | fuel + 1, slice => slice.take size :: chunksLoop size fuel (slice.drop size)

/-- `slice::chunks`, which panics for a size of zero. -/
def chunks {α : Type} (size : Nat) (slice : List α) : Option (List (List α)) :=
  if size = 0 then none else some (chunksLoop size slice.length slice)

/-- What `PollSender::poll_reserve` finds. -/
inductive Slot where
  | free
  | full
  | closed

/-- The sender of the input channel: what it finds and whether it takes an item when it is asked
for the `n`-th time, how often it has been asked, and the frames it has enqueued. -/
structure InputSink where
  slots : Nat → Slot
  takes : Nat → Bool
  asked : Nat := 0
  frames : List Bytes := []

namespace InputSink

/-- `poll_ready` of `KcpStream`. -/
def pollReady (sink : InputSink) : Poll (Except ErrorKind Unit) × InputSink :=
  let answer :=
    match sink.slots sink.asked with
    | .free => .ready (.ok ())
    | .full => .pending
    | .closed => .ready (.error .notConnected)
  (answer, { sink with asked := sink.asked + 1 })

/-- `start_send` of `KcpStream`. -/
def startSend (sink : InputSink) (frame : Bytes) : Except ErrorKind Unit × InputSink :=
  if sink.takes sink.asked then (.ok (), { sink with frames := sink.frames ++ [frame] })
  else (.error .notConnected, sink)

end InputSink

/-- The loop of `KcpStream::poll_write` over the chunks that are left, when `len` bytes have been
enqueued. -/
def pollWriteLoop : InputSink → Nat → List Bytes → Poll (Except ErrorKind Nat) × InputSink
  | sink, len, [] => (.ready (.ok len), sink)
  | sink, len, chunk :: rest =>
      match sink.pollReady with
      | (.ready (.ok _), sink) =>
          match sink.startSend chunk with
          | (.error error, sink) =>
              if 0 < len then (.ready (.ok len), sink) else (.ready (.error error), sink)
          | (.ok _, sink) => pollWriteLoop sink (len + chunk.length) rest
      | (.ready (.error error), sink) =>
          if 0 < len then (.ready (.ok len), sink) else (.ready (.error error), sink)
      | (.pending, sink) => if 0 < len then (.ready (.ok len), sink) else (.pending, sink)

/-- `KcpStream::poll_write` of a stream with `mtu`; `none` is a panic. -/
def pollWrite (mtu : U32) (sink : InputSink) (buf : Bytes) :
    Option (Poll (Except ErrorKind Nat) × InputSink) :=
  if buf = [] then some (.ready (.ok 0), sink)
  else (chunks (Kcp.maxFrameSize mtu).toNat buf).map (pollWriteLoop sink 0)

/-- A sequence of `poll_write` calls: their results and the sink after them. -/
def pollWrites (mtu : U32) : InputSink → List Bytes →
    Option (List (Poll (Except ErrorKind Nat)) × InputSink)
  | sink, [] => some ([], sink)
  | sink, buf :: rest =>
      match pollWrite mtu sink buf with
      | none => none
      | some (result, sink) =>
          (pollWrites mtu sink rest).map fun (results, sink) => (result :: results, sink)

/-- The bytes of a buffer that a call reports as written. -/
def reported (buf : Bytes) : Poll (Except ErrorKind Nat) → Bytes
  | .ready (.ok count) => buf.take count
  | _ => []

section Chunks

variable {α : Type} {size : Nat}

theorem flatten_chunksLoop (positive : 0 < size) {fuel : Nat} {slice : List α}
    (enough : slice.length ≤ fuel) : (chunksLoop size fuel slice).flatten = slice := by
  induction fuel generalizing slice with
  | zero => rw [List.eq_nil_of_length_eq_zero (Nat.le_zero.1 enough), chunksLoop, List.flatten_nil]
  | succ fuel inductionHypothesis =>
      cases slice with
      | nil => rfl
      | cons first rest =>
          have later : ((first :: rest).drop size).length ≤ fuel := by
            rw [List.length_drop]
            rw [List.length_cons] at enough ⊢
            omega
          rw [chunksLoop, List.flatten_cons, inductionHypothesis later, List.take_append_drop]
          exact List.cons_ne_nil _ _

/-- Chunks are not empty and not larger than asked for. -/
theorem mem_chunksLoop (positive : 0 < size) {fuel : Nat} {slice chunk : List α}
    (member : chunk ∈ chunksLoop size fuel slice) : chunk ≠ [] ∧ chunk.length ≤ size := by
  induction fuel generalizing slice with
  | zero => cases member
  | succ fuel inductionHypothesis =>
      cases slice with
      | nil => cases member
      | cons first rest =>
          rw [chunksLoop, List.mem_cons] at member
          · rcases member with rfl | later
            · refine ⟨?_, List.length_take_le _ _⟩
              rw [← List.length_pos_iff, List.length_take, List.length_cons]
              omega
            · exact inductionHypothesis later
          · exact List.cons_ne_nil _ _

end Chunks

/-- How a loop that enqueues `frames` of its chunks ends: with the bytes that have been enqueued
by then, or, when there are none, without a count. -/
def Stopped (len : Nat) (chunks frames : List Bytes) (result : Poll (Except ErrorKind Nat)) : Prop :=
  result = .ready (.ok (len + frames.flatten.length)) ∧
      (chunks = [] ∨ 0 < len + frames.flatten.length) ∨
    len = 0 ∧ frames = [] ∧ ∀ count, result ≠ .ready (.ok count)

/-- The loop stops without another frame. -/
theorem stopped_here {len : Nat} {chunks : List Bytes} {answer : Poll (Except ErrorKind Nat)}
    (uncounted : ∀ count, answer ≠ .ready (.ok count)) :
    Stopped len chunks [] (if 0 < len then .ready (.ok len) else answer) := by
  split
  · rename_i some
    exact .inl ⟨rfl, .inr some⟩
  · rename_i none
    exact .inr ⟨Nat.eq_zero_of_not_pos none, rfl, uncounted⟩

/-- The loop enqueues the first of its chunks. -/
theorem pollWriteLoop_enqueues {chunks : List Bytes} (some : ∀ chunk ∈ chunks, chunk ≠ [])
    (sink : InputSink) (len : Nat) : ∃ frames,
      (pollWriteLoop sink len chunks).2.frames = sink.frames ++ frames ∧ frames <+: chunks ∧
        Stopped len chunks frames (pollWriteLoop sink len chunks).1 := by
  induction chunks generalizing sink len with
  | nil => exact ⟨[], (List.append_nil _).symm, List.nil_prefix, .inl ⟨rfl, .inl rfl⟩⟩
  | cons chunk rest inductionHypothesis =>
      rw [List.forall_mem_cons] at some
      -- Whatever the sink answers, the loop stops here unless it takes the chunk.
      have stops (answer : Poll (Except ErrorKind Nat))
          (uncounted : ∀ count, answer ≠ .ready (.ok count)) (sink' : InputSink)
          (same : sink'.frames = sink.frames)
          (loop : pollWriteLoop sink len (chunk :: rest) =
            (if 0 < len then .ready (.ok len) else answer, sink')) : ∃ frames,
          (pollWriteLoop sink len (chunk :: rest)).2.frames = sink.frames ++ frames ∧
            frames <+: chunk :: rest ∧
            Stopped len (chunk :: rest) frames (pollWriteLoop sink len (chunk :: rest)).1 := by
        rw [loop]
        exact ⟨[], by rw [same, List.append_nil], List.nil_prefix, stopped_here uncounted⟩
      cases slot : sink.slots sink.asked with
      | full =>
          refine stops .pending nofun { sink with asked := sink.asked + 1 } rfl ?_
          simp only [pollWriteLoop, InputSink.pollReady, slot]
          split <;> rfl
      | closed =>
          refine stops (.ready (.error .notConnected)) nofun { sink with asked := sink.asked + 1 } rfl ?_
          simp only [pollWriteLoop, InputSink.pollReady, slot]
          split <;> rfl
      | free =>
          cases takes : sink.takes (sink.asked + 1) with
          | false =>
              refine stops (.ready (.error .notConnected)) nofun { sink with asked := sink.asked + 1 } rfl ?_
              simp only [pollWriteLoop, InputSink.pollReady, slot, InputSink.startSend, takes,
                Bool.false_eq_true, if_false]
              split <;> rfl
          | true =>
              obtain ⟨frames, enqueued, first, stopped⟩ := inductionHypothesis some.2
                { sink with asked := sink.asked + 1, frames := sink.frames ++ [chunk] }
                (len + chunk.length)
              have loop : pollWriteLoop sink len (chunk :: rest) =
                  pollWriteLoop { sink with asked := sink.asked + 1, frames := sink.frames ++ [chunk] }
                    (len + chunk.length) rest := by
                simp [pollWriteLoop, InputSink.pollReady, slot, InputSink.startSend, takes]
              rw [loop]
              refine ⟨chunk :: frames, by rw [enqueued, List.append_assoc]; rfl,
                List.cons_prefix_cons.2 ⟨rfl, first⟩, ?_⟩
              have positive := List.length_pos_iff.2 some.1
              obtain ⟨result, _⟩ | ⟨start, _, _⟩ := stopped
              · refine .inl ⟨?_, .inr ?_⟩
                · rw [result, List.flatten_cons, List.length_append, Nat.add_assoc]
                · rw [List.flatten_cons, List.length_append]
                  omega
              · omega

/-- What one call of `poll_write` does: it enqueues consecutive non-empty frames of at most
`limit` bytes, it returns `Ok(n)` exactly when these are the first `n` bytes of its buffer, with
`n = 0` for an empty buffer only, and it enqueues nothing when it returns `Pending` or an error. -/
def Writes (limit : Nat) (sink sink' : InputSink) (buf : Bytes)
    (result : Poll (Except ErrorKind Nat)) : Prop :=
  ∃ frames, sink'.frames = sink.frames ++ frames ∧
    (∀ frame ∈ frames, frame ≠ [] ∧ frame.length ≤ limit) ∧
    (∀ count, result = .ready (.ok count) ↔
      frames.flatten = buf.take count ∧ count ≤ buf.length ∧ (count = 0 → buf = [])) ∧
    ((∀ count, result ≠ .ready (.ok count)) → frames = [])

theorem pollWrite_writes {mtu : U32} (positive : 0 < (Kcp.maxFrameSize mtu).toNat)
    (sink : InputSink) (buf : Bytes) : ∃ result sink',
      pollWrite mtu sink buf = some (result, sink') ∧
        Writes (Kcp.maxFrameSize mtu).toNat sink sink' buf result ∧
        sink'.frames.flatten = sink.frames.flatten ++ reported buf result := by
  by_cases empty : buf = []
  · subst empty
    refine ⟨.ready (.ok 0), sink, by rw [pollWrite, if_pos rfl], ⟨[], (List.append_nil _).symm,
      nofun, fun count => ?_, fun _ => rfl⟩, ?_⟩
    · simp only [Poll.ready.injEq, Except.ok.injEq, List.flatten_nil, List.take_nil, true_and,
        List.length_nil, Nat.le_zero, implies_true, and_true]
      exact eq_comm
    · simp [reported]
  · have pieces : chunks (Kcp.maxFrameSize mtu).toNat buf =
        some (chunksLoop (Kcp.maxFrameSize mtu).toNat buf.length buf) := if_neg (by omega)
    have whole := flatten_chunksLoop positive (le_refl buf.length)
    have formed (chunk : Bytes)
        (member : chunk ∈ chunksLoop (Kcp.maxFrameSize mtu).toNat buf.length buf) :=
      mem_chunksLoop positive member
    obtain ⟨frames, enqueued, first, stopped⟩ := pollWriteLoop_enqueues
      (fun chunk member => (formed chunk member).1) sink 0
    have prefix' : frames.flatten <+: buf := by
      obtain ⟨rest, equal⟩ := first
      rw [← whole, ← equal, List.flatten_append]
      exact List.prefix_append _ _
    have taken : frames.flatten = buf.take frames.flatten.length := List.prefix_iff_eq_take.1 prefix'
    refine ⟨_, _, by rw [pollWrite, if_neg empty, pieces]; rfl, ⟨frames, enqueued,
      fun frame member => formed frame (first.subset member), fun count => ?_, fun uncounted => ?_⟩, ?_⟩
    · obtain ⟨result, some⟩ | ⟨_, none, uncounted⟩ := stopped
      · rw [result, Nat.zero_add, Poll.ready.injEq, Except.ok.injEq]
        constructor
        · rintro rfl
          refine ⟨taken, prefix'.length_le, fun zero => ?_⟩
          obtain nothing | positive := some
          · rw [nothing, List.flatten_nil] at whole
            exact whole.symm
          · omega
        · rintro ⟨same, bound, _⟩
          rw [same, List.length_take_of_le bound]
      · refine iff_of_false (uncounted count) ?_
        rintro ⟨same, bound, zero⟩
        rw [none, List.flatten_nil] at same
        have short := congrArg List.length same
        rw [List.length_take_of_le bound, List.length_nil] at short
        exact empty (zero short.symm)
    · obtain ⟨result, _⟩ | ⟨_, none, _⟩ := stopped
      · exact absurd result (uncounted _)
      · exact none
    · rw [enqueued, List.flatten_append]
      obtain ⟨result, _⟩ | ⟨_, none, uncounted⟩ := stopped
      · rw [result, Nat.zero_add, reported, ← taken]
      · rw [none, List.flatten_nil]
        unfold reported
        split
        · rename_i count result
          exact absurd result (uncounted count)
        · rfl

/-- For every mtu that `set_mtu` accepts and whose largest frame is a C integer: every call of
`poll_write` enqueues exactly what it reports, and after any sequence of calls the frames that
have been enqueued are, put together, the bytes that have been reported, in the order of the
calls. -/
theorem writes_exact {mtu : U32} (least : 50 ≤ mtu.toNat)
    (bounded : (mtu.toNat - ikcpOverhead) * 255 < 2 ^ 31) :
    (∀ sink buf, ∃ result sink', pollWrite mtu sink buf = some (result, sink') ∧
      Writes (Kcp.maxFrameSize mtu).toNat sink sink' buf result) ∧
    ∀ buffers sink, ∃ results sink', pollWrites mtu sink buffers = some (results, sink') ∧
      sink'.frames.flatten =
        sink.frames.flatten ++ (List.zipWith reported buffers results).flatten := by
  have positive : 0 < (Kcp.maxFrameSize mtu).toNat := by
    rw [Kcp.toNat_maxFrameSize least bounded, ikcpOverhead]
    omega
  refine ⟨fun sink buf => ?_, fun buffers => ?_⟩
  · obtain ⟨result, sink', called, writes, _⟩ := pollWrite_writes positive sink buf
    exact ⟨result, sink', called, writes⟩
  · induction buffers with
    | nil => exact fun sink => ⟨[], sink, rfl, (List.append_nil _).symm⟩
    | cons buf rest inductionHypothesis =>
        intro sink
        obtain ⟨result, middle, called, _, bytes⟩ := pollWrite_writes positive sink buf
        obtain ⟨results, sink', calls, later⟩ := inductionHypothesis middle
        refine ⟨result :: results, sink', by rw [pollWrites, called]; simp [calls], ?_⟩
        rw [later, bytes, List.zipWith_cons_cons, List.flatten_cons, List.append_assoc]

/-- The input channel has one free slot. -/
def oneSlot : InputSink where
  slots asked := if asked = 0 then .free else .full
  takes _ := true

/-- Of 7000 bytes the first frame is enqueued. -/
theorem writes_exact_partial : ∃ sink',
    pollWrite 50 oneSlot (List.replicate 7000 1) = some (.ready (.ok 6630), sink') ∧
      Writes (Kcp.maxFrameSize 50).toNat oneSlot sink' (List.replicate 7000 1) (.ready (.ok 6630)) := by
  have run : (pollWrite 50 oneSlot (List.replicate 7000 1)).map Prod.fst =
      some (.ready (.ok 6630)) := by decide +kernel
  obtain ⟨result, sink', called, writes⟩ :=
    (@writes_exact 50 (by decide) (by decide)).1 oneSlot (List.replicate 7000 1)
  rw [called, Option.map_some, Option.some.injEq] at run
  subst run
  exact ⟨sink', called, writes⟩

/-! ## Reading -/

/-- The reading side of a stream: what is left of a frame that has been read in part, what the
task will have put into the output channel by the time it closes it and has not been received,
whether the channel makes its reader wait when it is asked for the `n`-th time, and how often it
has been asked. -/
structure Reader where
  readBuf : Option Bytes := none
  outputs : List Output
  waits : Nat → Bool
  asked : Nat := 0

namespace Reader

/-- The loop of `KcpStream::poll_next` over the output channel: its answer, how often the channel
has been asked and what is left in it. -/
def recvFrame (waits : Nat → Bool) : Nat → List Output → Poll (Option Bytes) × Nat × List Output
  | asked, [] => (if waits asked then .pending else .ready none, asked + 1, [])
  | asked, output :: rest =>
      if waits asked then (.pending, asked + 1, output :: rest)
      else
        match output with
        | .frame frame => (.ready (some frame), asked + 1, rest)
        | .connected _ => recvFrame waits (asked + 1) rest

/-- `KcpStream::poll_next`, which never returns an error. -/
def pollNext (reader : Reader) : Poll (Option Bytes) × Reader :=
  match reader.readBuf with
  | some chunk => (.ready (some chunk), { reader with readBuf := none })
  | none =>
      let (answer, asked, outputs) := recvFrame reader.waits reader.asked reader.outputs
      (answer, { reader with asked, outputs })

/-- The loop of `KcpStream::poll_read` that fetches a chunk, at most `fuel` turns: whether there is
one. -/
def fill : Nat → Reader → Poll Bool × Reader
  | 0, reader => (.pending, reader)
  | fuel + 1, reader =>
      if reader.readBuf.isSome then (.ready true, reader)
      else
        match reader.pollNext with
        | (.ready (some chunk), reader) =>
            if chunk = [] then fill fuel reader
            else fill fuel { reader with readBuf := some chunk }
        | (.ready none, reader) => (.ready false, reader)
        | (.pending, reader) => (.pending, reader)

/-- `KcpStream::poll_read` into a buffer with room for `remaining` bytes: whether it is ready, and
the bytes it has put into the buffer. Every turn of the loop but the last takes a frame out of
the channel. -/
def pollRead (reader : Reader) (remaining : Nat) : Poll Bytes × Reader :=
  if remaining = 0 then (.ready [], reader)
  else
    match fill (reader.outputs.length + 2) reader with
    | (.pending, reader) => (.pending, reader)
    | (.ready false, reader) => (.ready [], reader)
    | (.ready true, reader) =>
        match reader.readBuf with
        | none => (.ready [], reader)
        | some chunk =>
            let len := min chunk.length remaining
            (.ready (chunk.take len),
              { reader with readBuf := if len < chunk.length then some (chunk.drop len) else none })

/-- The bytes of the frames of a list of outputs. -/
def frameBytes : List Output → Bytes
  | [] => []
  | .frame frame :: rest => frame ++ frameBytes rest
  | .connected _ :: rest => frameBytes rest

/-- The bytes that have not been handed out. -/
def left (reader : Reader) : Bytes := reader.readBuf.getD [] ++ frameBytes reader.outputs

end Reader

/-- A call that reads. -/
inductive ReadCall where
  | read (remaining : Nat)
  | next

namespace Reader

/-- A call: the bytes it hands out, nothing when it has to wait, and whether it reports the end of
the stream. -/
def call (reader : Reader) : ReadCall → Bytes × Bool × Reader
  | .read remaining =>
      match reader.pollRead remaining with
      | (.ready bytes, reader) => (bytes, bytes = [] ∧ 0 < remaining, reader)
      | (.pending, reader) => ([], false, reader)
  | .next =>
      match reader.pollNext with
      | (.ready (some bytes), reader) => (bytes, false, reader)
      | (.ready none, reader) => ([], true, reader)
      | (.pending, reader) => ([], false, reader)

/-- A sequence of calls: the bytes that they hand out, whether one has reported the end, and the
reader after them. -/
def calls (reader : Reader) : List ReadCall → Bytes × Bool × Reader
  | [] => ([], false, reader)
  | call :: rest =>
      let (bytes, ended, next) := reader.call call
      let (more, ended', last) := next.calls rest
      (bytes ++ more, ended || ended', last)

variable {reader reader' : Reader}

/-- What is left in the channel after it has been asked for a frame. -/
theorem recvFrame_left (waits : Nat → Bool) (asked : Nat) (outputs : List Output) :
    (recvFrame waits asked outputs).2.2 <:+ outputs ∧
      match recvFrame waits asked outputs with
      | (.ready (some frame), _, rest) =>
          frameBytes outputs = frame ++ frameBytes rest ∧ rest.length < outputs.length
      | (.ready none, _, rest) => frameBytes outputs = [] ∧ rest = []
      | (.pending, asked', rest) => frameBytes rest = frameBytes outputs ∧ waits (asked' - 1) := by
  induction outputs generalizing asked with
  | nil =>
      unfold recvFrame
      split
      · rename_i waiting
        exact ⟨List.suffix_refl _, rfl, waiting⟩
      · exact ⟨List.suffix_refl _, rfl, rfl⟩
  | cons output rest inductionHypothesis =>
      unfold recvFrame
      split
      · rename_i waiting
        exact ⟨List.suffix_refl _, rfl, waiting⟩
      · cases output with
        | frame frame => exact ⟨List.suffix_cons _ _, rfl, Nat.lt_succ_self _⟩
        | connected conv =>
            obtain ⟨suffix, later⟩ := inductionHypothesis (asked + 1)
            refine ⟨suffix.trans (List.suffix_cons _ _), ?_⟩
            dsimp only
            split at later
            · exact ⟨later.1, Nat.lt_succ_of_lt later.2⟩
            · exact later
            · exact later

/-- A call that finds no left-over chunk asks the channel. -/
theorem pollNext_left (empty : reader.readBuf = none) :
    (reader.pollNext.2.outputs <:+ reader.outputs ∧ reader.pollNext.2.readBuf = none ∧
        reader.pollNext.2.waits = reader.waits) ∧
      match reader.pollNext with
      | (.ready (some frame), next) =>
          reader.left = frame ++ next.left ∧ next.outputs.length < reader.outputs.length
      | (.ready none, next) => reader.left = [] ∧ next.outputs = []
      | (.pending, next) => next.left = reader.left ∧ reader.waits (next.asked - 1) := by
  obtain ⟨suffix, found⟩ := recvFrame_left reader.waits reader.asked reader.outputs
  rcases received : recvFrame reader.waits reader.asked reader.outputs with ⟨answer, asked, outputs⟩
  rw [received] at suffix found
  have asks : reader.pollNext = (answer, { reader with readBuf := none, asked, outputs }) := by
    simp only [pollNext, empty, received]
  rw [asks]
  simp only [left, empty]
  refine ⟨⟨suffix, trivial, trivial⟩, ?_⟩
  cases answer with
  | pending => exact found
  | ready answer =>
      cases answer with
      | none => exact found
      | some frame => exact found

/-- The loop of `poll_read` ends with a chunk that is not empty, with the end of the stream or
because the channel makes it wait. -/
theorem fill_left {fuel : Nat} (whole : reader.readBuf ≠ some [])
    (enough : reader.outputs.length + 1 < fuel ∨ reader.readBuf.isSome ∧ 0 < fuel) :
    ((fill fuel reader).2.outputs <:+ reader.outputs ∧ (fill fuel reader).2.readBuf ≠ some [] ∧
        (fill fuel reader).2.waits = reader.waits) ∧
      match fill fuel reader with
      | (.ready true, next) => next.readBuf.isSome ∧ next.left = reader.left
      | (.ready false, next) => reader.left = [] ∧ next.readBuf = none ∧ next.outputs = []
      | (.pending, next) => next.left = reader.left ∧ reader.waits (next.asked - 1) := by
  induction fuel generalizing reader with
  | zero => omega
  | succ fuel inductionHypothesis =>
      unfold fill
      split
      · rename_i filled
        exact ⟨⟨List.suffix_refl _, whole, rfl⟩, filled, rfl⟩
      · rename_i missing
        have empty : reader.readBuf = none := by simpa using missing
        have turns := enough.resolve_right fun filled => missing filled.1
        obtain ⟨⟨suffix, nothing, same⟩, found⟩ := pollNext_left empty
        rcases answered : reader.pollNext with ⟨answer, next⟩
        rw [answered] at suffix nothing same found
        match answer, found with
        | .pending, found => exact ⟨⟨suffix, by rw [nothing]; nofun, same⟩, found⟩
        | .ready none, found =>
            exact ⟨⟨suffix, by rw [nothing]; nofun, same⟩, found.1, nothing, found.2⟩
        | .ready (some chunk), ⟨parts, fewer⟩ =>
            -- The turn that follows starts from a reader with the same bytes.
            have continues (later : Reader) (whole' : later.readBuf ≠ some [])
                (enough' : later.outputs.length + 1 < fuel ∨ later.readBuf.isSome ∧ 0 < fuel)
                (outputs : later.outputs = next.outputs) (waits : later.waits = next.waits)
                (bytes : later.left = reader.left) :
                ((fill fuel later).2.outputs <:+ reader.outputs ∧
                    (fill fuel later).2.readBuf ≠ some [] ∧
                    (fill fuel later).2.waits = reader.waits) ∧
                  match fill fuel later with
                  | (.ready true, next) => next.readBuf.isSome ∧ next.left = reader.left
                  | (.ready false, next) => reader.left = [] ∧ next.readBuf = none ∧ next.outputs = []
                  | (.pending, next) => next.left = reader.left ∧ reader.waits (next.asked - 1) := by
              obtain ⟨⟨fewer', kept, channel⟩, ends⟩ := inductionHypothesis whole' enough'
              rw [outputs] at fewer'
              rw [waits] at channel
              rw [bytes, waits, same] at ends
              exact ⟨⟨fewer'.trans suffix, kept, channel.trans same⟩, ends⟩
            dsimp only
            split
            · rename_i nothingRead
              rw [nothingRead, List.nil_append] at parts
              exact continues next (by rw [nothing]; nofun) (.inl (by omega)) rfl rfl parts.symm
            · rename_i some
              refine continues { next with readBuf := .some chunk } (by simpa using some)
                (.inr ⟨rfl, by omega⟩) rfl rfl ?_
              rw [parts, left, left, nothing]
              rfl

/-- What one call does: it hands out the next of the bytes that are left, it leaves no empty chunk,
and it reports the end only when nothing is left. -/
structure Reads (reader next : Reader) (bytes : Bytes) (ended : Bool) : Prop where
  bytes : bytes ++ next.left = reader.left
  whole : next.readBuf ≠ some []
  fewer : next.outputs <:+ reader.outputs
  ended : ended → next.outputs = [] ∧ next.readBuf = none
  waits : next.waits = reader.waits

/-- After the end there is nothing left that a later call could hand out. -/
theorem Reads.exhausted {bytes : Bytes} {ended : Bool} (reads : Reads reader reader' bytes ended)
    (drained : reader.outputs = []) (empty : reader.readBuf = none) :
    reader'.outputs = [] ∧ reader'.readBuf = none := by
  have nothing := reads.bytes
  have fewer := reads.fewer
  rw [left, left, drained, empty, Option.getD_none, List.nil_append, frameBytes,
    List.append_eq_nil_iff, List.append_eq_nil_iff] at nothing
  rw [drained, List.suffix_nil] at fewer
  refine ⟨fewer, ?_⟩
  cases kept : reader'.readBuf with
  | none => rfl
  | some chunk =>
      have whole := reads.whole
      rw [kept, Option.getD_some] at nothing
      rw [kept, nothing.2.1] at whole
      exact absurd rfl whole

theorem pollRead_reads (whole : reader.readBuf ≠ some []) (remaining : Nat) :
    match reader.pollRead remaining with
    | (.ready bytes, next) => Reads reader next bytes (bytes = [] ∧ 0 < remaining)
    | (.pending, next) => Reads reader next [] false ∧ reader.waits (next.asked - 1) := by
  by_cases full : remaining = 0
  · rw [pollRead, if_pos full]
    exact ⟨rfl, whole, List.suffix_refl _, by simp [full], rfl⟩
  · obtain ⟨⟨fewer, kept, same⟩, found⟩ := @fill_left reader (reader.outputs.length + 2) whole
      (.inl (Nat.lt_succ_self _))
    rw [pollRead, if_neg full]
    rcases filled : fill (reader.outputs.length + 2) reader with ⟨answer, next⟩
    rw [filled] at fewer kept same found
    match answer, found with
    | .pending, ⟨bytes, waiting⟩ => exact ⟨⟨bytes, kept, fewer, nofun, same⟩, waiting⟩
    | .ready false, ⟨nothing, empty, drained⟩ =>
        refine ⟨?_, kept, fewer, fun _ => ⟨drained, empty⟩, same⟩
        rw [nothing, left, empty, drained]
        rfl
    | .ready true, ⟨filled, bytes⟩ =>
        obtain ⟨chunk, holds⟩ := Option.isSome_iff_exists.1 filled
        have positive : 0 < chunk.length := by
          rw [List.length_pos_iff]
          rintro rfl
          exact kept holds
        simp only [holds]
        refine ⟨?_, ?_, fewer, ?_, same⟩
        · rw [← bytes, left, left, holds, ← List.append_assoc, Option.getD_some]
          congr 1
          split
          · exact List.take_append_drop _ _
          · rw [Option.getD_none, List.append_nil, List.take_of_length_le (by omega)]
        · split
          · rename_i partly
            rw [ne_eq, Option.some.injEq, List.drop_eq_nil_iff]
            omega
          · nofun
        · intro nothing
          have short := congrArg List.length (of_decide_eq_true nothing).1
          rw [List.length_take, List.length_nil] at short
          omega

theorem call_reads (whole : reader.readBuf ≠ some []) (call : ReadCall) :
    Reads reader (reader.call call).2.2 (reader.call call).1 (reader.call call).2.1 := by
  cases call with
  | read remaining =>
      have reads := pollRead_reads whole remaining
      simp only [Reader.call]
      rcases answered : reader.pollRead remaining with ⟨bytes | _, next⟩ <;> rw [answered] at reads
      · exact reads
      · exact reads.1
  | next =>
      simp only [Reader.call]
      cases kept : reader.readBuf with
      | some chunk =>
          have takes : reader.pollNext = (.ready (some chunk), { reader with readBuf := none }) := by
            simp only [pollNext, kept]
          rw [takes]
          exact ⟨by rw [left, left, kept]; rfl, nofun, List.suffix_refl _, nofun, rfl⟩
      | none =>
          obtain ⟨⟨fewer, empty, same⟩, found⟩ := pollNext_left kept
          rcases answered : reader.pollNext with ⟨answer, next⟩
          rw [answered] at fewer empty same found
          have whole' : next.readBuf ≠ some [] := by
            rw [empty]
            nofun
          match answer, found with
          | .pending, found => exact ⟨found.1, whole', fewer, nofun, same⟩
          | .ready none, ⟨nothing, drained⟩ =>
              refine ⟨?_, whole', fewer, fun _ => ⟨drained, empty⟩, same⟩
              rw [nothing, left, empty, drained]
              rfl
          | .ready (some frame), found => exact ⟨found.1.symm, whole', fewer, nofun, same⟩

/-- A sequence of calls does what one call does. -/
theorem calls_reads (whole : reader.readBuf ≠ some []) (sequence : List ReadCall) :
    Reads reader (reader.calls sequence).2.2 (reader.calls sequence).1
      (reader.calls sequence).2.1 := by
  induction sequence generalizing reader with
  | nil => exact ⟨rfl, whole, List.suffix_refl _, nofun, rfl⟩
  | cons call rest inductionHypothesis =>
      have first := call_reads whole call
      have later := inductionHypothesis first.whole
      simp only [calls]
      refine ⟨?_, later.whole, later.fewer.trans first.fewer, fun ended => ?_,
        later.waits.trans first.waits⟩
      · rw [List.append_assoc, later.bytes, first.bytes]
      · rw [Bool.or_eq_true] at ended
        rcases ended with before | after
        · obtain ⟨drained, empty⟩ := first.ended before
          exact later.exhausted drained empty
        · exact later.ended after

end Reader

/-- For every list of frames in the output channel and every timing of it, after any sequence of
calls: the bytes that the calls have handed out, followed by the chunk that is left over and the
frames that are in the channel, are the bytes of all the frames. They are all of these bytes as
soon as nothing is left, which a call reports by an empty answer in that case only. No call leaves
an empty chunk, and a read waits only for the channel. -/
theorem reads_lossless (outputs : List Output) (waits : Nat → Bool) (sequence : List ReadCall) :
    ∃ bytes ended last, ({ outputs, waits } : Reader).calls sequence = (bytes, ended, last) ∧
      bytes <+: Reader.frameBytes outputs ∧
      bytes ++ (last.readBuf.getD [] ++ Reader.frameBytes last.outputs) = Reader.frameBytes outputs ∧
      (last.outputs = [] → last.readBuf = none → bytes = Reader.frameBytes outputs) ∧
      last.readBuf ≠ some [] ∧
      (ended → last.outputs = [] ∧ last.readBuf = none ∧ bytes = Reader.frameBytes outputs) ∧
      ∀ remaining, (last.pollRead remaining).1 = .pending →
        waits ((last.pollRead remaining).2.asked - 1) := by
  have reads := @Reader.calls_reads { outputs, waits } nofun sequence
  rcases called : ({ outputs, waits } : Reader).calls sequence with ⟨bytes, ended, last⟩
  rw [called] at reads
  have conserved : bytes ++ (last.readBuf.getD [] ++ Reader.frameBytes last.outputs) =
      Reader.frameBytes outputs := reads.bytes
  have drained (nothing : last.outputs = []) (empty : last.readBuf = none) :
      bytes = Reader.frameBytes outputs := by
    rw [← conserved, nothing, empty, Option.getD_none, List.nil_append, Reader.frameBytes,
      List.append_nil]
  refine ⟨bytes, ended, last, rfl, ⟨_, conserved⟩, conserved, drained, reads.whole, ?_, ?_⟩
  · intro reported
    obtain ⟨nothing, empty⟩ := reads.ended reported
    exact ⟨nothing, empty, drained nothing empty⟩
  · intro remaining pending
    have waiting := Reader.pollRead_reads reads.whole remaining
    rcases answered : last.pollRead remaining with ⟨answer, next⟩
    rw [answered] at pending waiting
    dsimp only at pending
    subst pending
    rw [← show last.waits = waits from reads.waits]
    exact waiting.2

end KcpRs
