import KcpRs.Stream.Task

/-!
# The loop of the stream task: `Task::run`

`step` is `run` cut at the points where it waits for something outside the task or
where another turn of an inner loop begins, so that everything the environment
decides is an event: which ready branch `select!` takes, what the transport delivers
and when, whether the output channel has room, when the timer fires and what the
application does with its stream in the meantime.
-/

namespace KcpRs

open Lib

/-- What `kcp_output` meets while it drains the output queue. -/
inductive SinkOutcome where
  /-- Every packet and the final flush succeed. -/
  | sent
  /-- Feeding the packet after the first `fed` fails; the final flush may too. -/
  | feedError (fed : Nat) (flushed : Bool)
  /-- Every packet is fed but the final flush fails. -/
  | flushError
  /-- The token is cancelled after `fed` packets. -/
  | cancelled (fed : Nat)
deriving DecidableEq

/-- What the application, or the user of its token, does. -/
inductive AppEvent where
  /-- `poll_ready` reserves a slot of the input channel. -/
  | reserve
  /-- `start_send` uses the slot. -/
  | startSend (frame : Bytes)
  /-- `abort_send` gives the slot back. -/
  | abortSend
  /-- The sender is closed. -/
  | closeSender
  /-- The token is cancelled. -/
  | cancel
  /-- The receiver of the output channel is closed. -/
  | closeOutput
deriving DecidableEq

/-- What may happen next to a task. -/
inductive Event where
  /-- `kcp_output` at the top of the loop. -/
  | drain (outcome : SinkOutcome)
  /-- The task runs on by itself. -/
  | tau
  /-- The input branch is taken. -/
  | recvInput
  /-- The permit branch is taken; `ok` is whether `reserve` gave a permit. -/
  | reserve (ok : Bool)
  /-- The result of `try_reserve` in the permit branch. -/
  | tryReserve (ok : Bool)
  /-- The transport has a packet ready. -/
  | packet (bytes : Bytes)
  /-- The transport has no more packets ready for this batch. -/
  | noPacket
  /-- The transport has ended. -/
  | transportEnd
  /-- The timer fires. -/
  | sleep
  /-- The cancellation branch is taken. -/
  | cancelled
  /-- The application acts. -/
  | app (event : AppEvent)
deriving DecidableEq

namespace Task

/-- The packets of a list fed to the transport in state `hs`. -/
def feed (t : Task) (packets : List Bytes) : Task :=
  { t with trace := t.trace ++ packets.map fun packet => .packet (stamp t.hs packet) }

/-- `break`: leave the loop, drop `tx_frame` and the output sender and close the input
channel. -/
def leave (t : Task) : Task :=
  { t with pc := .draining, txFrame := none, inputRx := { t.inputRx with rxClosed := true } }

/-- The task panics; what it has done so far stays. -/
def panic (t : Task) : Task := { t with pc := .panicked }

/-- Continue at `pc`, or panic. -/
def goto (t : Task) (pc : Pc) (next : Option Task) : Task :=
  match next with
  | some next => { next with pc }
  | none => t.panic

/-- The drain of the output queue at the top of the loop. -/
def drain (t : Task) (outcome : SinkOutcome) : Option Task :=
  let queue := t.kcp.outputQueue
  let emptied := { t with kcp := { t.kcp with outputQueue := [] }, pc := .check }
  if queue = [] then
    if outcome = .sent then some { t with pc := .check } else none
  else
    match outcome with
    | .sent => some (emptied.feed queue)
    | .feedError fed flushed =>
        if fed < queue.length then
          let t := emptied.feed (queue.take fed)
          some (if flushed then t else t.leave)
        else none
    | .flushError => some (emptied.feed queue).leave
    | .cancelled fed => if t.token then some (emptied.feed (queue.take fed)).leave else none

/-- `session_expire` in the milliseconds it is compared in. -/
def expireMillis (t : Task) : U32 := (t.cfg.sessionExpire.secs * 1000).setWidth 32

/-- The time that the main `select!` may sleep, for the clock reading `current`. -/
def interval (t : Task) (current : U32) : U32 :=
  let interval := imin (t.kcp.check current - current) 60000
  if t.hs ≠ .connected then imin interval (t.hsEndTime - current) else interval

/-- The checks between the drain and the main `select!`. -/
def check (t : Task) : Task :=
  if t.hs = .disconnected then t.leave
  else if t.kcp.isDeadLink ∨ t.expireMillis ≤ t.kcp.durationSince t.lastIoTime then t.leave
  else
    let (current, t) := t.getSystemTime
    if t.hs ≠ .connected ∧ (t.hsEndTime - current).toInt ≤ 0 then
      { t with hs := .disconnected, pc := .head }
    else if t.interval current = 0 then { t with kcp := t.kcp.update current, pc := .head }
    else { t with pc := .select }

/-- The first turn of the input branch. -/
def recvInput (t : Task) : Option Task :=
  if t.inputClosed ∨ t.kcp.isSendQueueFull then none
  else
    match t.inputRx.queue with
    | frame :: rest =>
        let popped := { t with inputRx := { t.inputRx with queue := rest } }
        some (popped.goto .inputMore (popped.processInput frame))
    | [] => if t.inputRx.exhausted then some { t with pc := .inputDone true } else none

/-- A further turn of the input branch. -/
def inputMore (t : Task) : Task :=
  if t.kcp.isSendQueueFull then { t with pc := .inputDone false }
  else
    match t.inputRx.queue with
    | frame :: rest =>
        let popped := { t with inputRx := { t.inputRx with queue := rest } }
        popped.goto .inputMore (popped.processInput frame)
    | [] => { t with pc := .inputDone t.inputRx.exhausted }

/-- The end of the input branch. -/
def inputDone (t : Task) (closed : Bool) : Task :=
  if closed then
    match { t with inputClosed := true }.finTransitState with
    | some t => { t.kcpFlush with pc := .head }
    | none => t.panic
  else { t.kcpFlush with pc := .head }

/-- The permit branch: the stashed frame. -/
def permit (t : Task) (ok : Bool) : Option Task :=
  match t.txFrame with
  | none => none
  | some frame =>
      if ok then
        if t.outputOpen then
          some ({ t with txFrame := none, pc := .permitLoop }.log (.output (.frame frame)))
        else none
      else if t.outputOpen then none
      else some t.leave

/-- A turn of the inner loop of the permit branch. -/
def permitMore (t : Task) (ok : Bool) : Option Task :=
  match t.kcpRecv with
  | none => some t.panic
  | some (none, t) => some { t with pc := .head }
  | some (some frame, t) =>
      if ok then if t.outputOpen then some (t.log (.output (.frame frame))) else none
      else some { t with txFrame := some frame, pc := .head }

/-- The handshake step after a batch of packets. -/
def batchDone (t : Task) : Task :=
  if t.hs = .syn then
    match t.synHandshakeRecv with
    | some (true, t) => { t with pc := .fetch }
    | some (false, t) => { t with hs := .disconnected, pc := .fetch }
    | none => t.panic
  else if t.isFinHandshake then t.goto .fetch t.finTransitState
  else { t with pc := .fetch }

/-- The fetch and the flush that end the transport branch. -/
def fetch (t : Task) : Task :=
  match t.txFrame with
  | some _ => { t.kcpFlush with pc := .head }
  | none =>
      match t.kcpRecv with
      | some (frame, t) => { { t with txFrame := frame }.kcpFlush with pc := .head }
      | none => t.panic

/-- The end of `run`: the RESET packet and the disconnect report. -/
def finish (t : Task) : Task :=
  let conv := t.kcp.cb.conv
  let t :=
    if Kcp.isValidConv conv then
      let (now, t) := t.getSystemTime
      t.log (.reset (t.kcp.writeAckHead kcpReset 0 now))
    else t
  { t with pc := .exited }.log (.disconnect conv)

/-- Draining the input channel after the loop. -/
def drainInput (t : Task) : Option Task :=
  match t.inputRx.queue with
  | frame :: rest =>
      some ({ t with inputRx := { t.inputRx with queue := rest } }.log (.drained frame))
  | [] => if t.inputRx.exhausted then some t.finish else none

/-- The application acts on its stream. -/
def app (t : Task) : AppEvent → Option Task
  | .reserve =>
      if t.hasStream ∧ t.inputRx.txClosed = false ∧ t.inputRx.rxClosed = false then
        some { t with inputRx := { t.inputRx with permit := true } }
      else none
  | .startSend frame =>
      if t.inputRx.permit then
        let inputRx := { t.inputRx with queue := t.inputRx.queue ++ [frame], permit := false }
        some ({ t with inputRx }.log (.accepted frame))
      else none
  | .abortSend => some { t with inputRx := { t.inputRx with permit := false } }
  | .closeSender => some { t with inputRx := { t.inputRx with txClosed := true } }
  | .cancel => some { t with token := true }
  | .closeOutput => some { t with outputOpen := false }

/-- One step of `Task::run` or of its surroundings. -/
def step (t : Task) (event : Event) : Option Task :=
  match event, t.pc with
  | .app event, _ => t.app event
  | .drain outcome, .head => t.drain outcome
  | .tau, .check => some t.check
  | .recvInput, .select => t.recvInput
  | .tau, .inputMore => some t.inputMore
  | .tau, .inputDone closed => some (t.inputDone closed)
  | .reserve ok, .select => t.permit ok
  | .tryReserve ok, .permitLoop => t.permitMore ok
  | .packet bytes, .select => some (t.goto (.batch (t.cfg.rcvWnd.toNat - 1)) (t.kcpInput bytes))
  | .packet bytes, .batch (room + 1) => some (t.goto (.batch room) (t.kcpInput bytes))
  | .noPacket, .batch _ => some { t with pc := .batchDone }
  | .tau, .batchDone => some t.batchDone
  | .tau, .fetch => some t.fetch
  | .transportEnd, .select => some t.leave
  | .sleep, .select => some { t with pc := .head }
  | .cancelled, .select => if t.token then some t.leave else none
  | .tau, .draining => t.drainInput
  | _, _ => none

/-- `Kcp::initialize` and the configuration at the start of `run`. -/
def configure (cfg : Config) (conv : U32) (clock : Nat → U32) : Option Task :=
  let (now, t) := { cfg, kcp := .new conv, clock : Task }.getSystemTime
  { t with kcp := t.kcp.update now }.kcpApplyConfig

/-- `run` up to its loop. `id` is what `random_session_id` returns for a client. -/
def start (cfg : Config) (conv : U32) (id : Bytes) (clock : Nat → U32) : Option Task :=
  match configure cfg conv clock with
  | none => none
  | some t =>
      let (now, t) := t.getSystemTime
      let kcp := t.kcp.setNodelay true 100 0 false
      let t := { t with
        hs := .syn, hsEndTime := hsDeadline now cfg.connectTimeout, kcp,
        lastIoTime := kcp.cb.current }
      if conv = Kcp.synConv then { t with client := true, sessionId := id }.handshakeSend .syn
      else some t

end Task

/-- Client tasks: `KcpStream::connect`. -/
def clientMachine (cfg : Config) : Machine Task Event where
  Initial t := ∃ id clock, id.length = cfg.sessionIdLen ∧
    Task.start cfg Kcp.synConv id clock = some t
  step := Task.step

/-- Server tasks for `conv`: `KcpStream::accept`, which refuses an invalid one. -/
def serverMachine (cfg : Config) (conv : U32) : Machine Task Event where
  Initial t := Kcp.isValidConv conv ∧ ∃ clock, Task.start cfg conv [] clock = some t
  step := Task.step

/-- The task of any stream with configuration `cfg`. -/
def taskMachine (cfg : Config) : Machine Task Event where
  Initial t := (clientMachine cfg).Initial t ∨ ∃ conv, (serverMachine cfg conv).Initial t
  step := Task.step

/-! ## Concrete runs -/

/-- A configuration with a session id of one byte, for concrete runs. -/
def sampleConfig : Config := { sessionIdLen := 1 }

/-- A data segment as a peer would send it. -/
def pushSeg (conv sn una : U32) (data : Bytes) : Seg :=
  { conv, cmd := ikcpCmdPush, wnd := 128, sn, una, data }

/-- A configuration in message mode for session ids of one byte. -/
def messageConfig : Config := { stream := false, sessionIdLen := 1 }

/-- The application sends a frame, which is queued and flushed. -/
def frameEvents (frame : Bytes) : List Event :=
  [.app .reserve, .app (.startSend frame), .recvInput, .tau, .tau, .drain .sent, .tau]

/-- A client connects, its application sends three frames, and two frames of the peer come: two
segments are in flight, one is queued, and two acknowledgements are due. -/
def busyEvents : List Event :=
  [.drain .sent, .tau, .packet (encodePacket [pushSeg 1 0 1 [7]]), .noPacket, .tau, .tau, .drain .sent,
    .tau] ++ frameEvents [8] ++ frameEvents [9] ++ frameEvents [10] ++
      [.packet (encodePacket [pushSeg 1 1 1 [11], pushSeg 1 2 1 [12]])]

/-- Start a client of `cfg` with session id `id` and run events that are permitted. -/
def clientRun (cfg : Config) (id : Bytes) (clock : Nat → U32) (permits : Task → Event → Bool)
    (events : List Event) : Option Task :=
  (Task.start cfg Kcp.synConv id clock).bind fun t => (taskMachine cfg).exec permits t events

theorem reach_of_clientRun {cfg : Config} {id : Bytes} {clock : Nat → U32}
    {allow : Task → Event → Prop} {permits : Task → Event → Bool} {events : List Event} {t : Task}
    (permitted : ∀ t event, permits t event → allow t event)
    (length : id.length = cfg.sessionIdLen)
    (executed : clientRun cfg id clock permits events = some t) :
    (taskMachine cfg).Reach allow t := by
  obtain ⟨first, started, executed⟩ := Option.bind_eq_some_iff.1 executed
  exact Machine.reach_of_exec permitted (.initial (.inl ⟨id, clock, length, started⟩)) executed

end KcpRs
