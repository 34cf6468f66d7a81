import KcpRs.Protocol
import KcpRs.Lib.Machine

/-!
# The stream task: `stream.rs`

`Task` is the task of one `KcpStream`, the local variable `tx_frame` of its `run`
loop and the ends of its channels that the task reads. The functions below are the
methods of `Task`; the loop itself is in `KcpRs.Stream.Run`.

A Rust panic is the outcome `none`. The readings of `get_system_time` are an
arbitrary function of the number of calls made so far, so nothing is assumed about
how time passes inside or between calls. `trace` records what the task does at its
interfaces, in order; no function reads it except the guard that the application
holds its stream (`hasStream`).

The scratch buffer of the KCP is not part of the task: `ikcp_flush` only writes to it, and
`packets_buffered` shows that what a flush of a reachable task writes fits it while the mtu is below `2 ^ 30`.

`Channel` stands for a bounded channel of `tokio`'s `mpsc`. As documented there, values arrive once and in
the order of sending; after `close` on the receiver's side no value is sent any more, while those queued
and the permits given out before can still be received; `recv` gives `None` and `try_recv`
`Disconnected` when nothing is queued, no permit is out and either side is closed.
-/

namespace KcpRs

open Lib

/-- `std::time::Duration`. -/
structure Duration where
  secs : BitVec 64
  nanos : Nat := 0

/-- `KcpNoDelayConfig`. -/
structure NoDelayConfig where
  nodelay : Bool
  interval : U32
  resend : U32
  nc : Bool

/-- `KcpNoDelayConfig::normal`. -/
def NoDelayConfig.normal : NoDelayConfig :=
  { nodelay := false, interval := 40, resend := 0, nc := false }

/-- `KcpConfig`. -/
structure Config where
  mtu : U32 := 1400
  nodelay : NoDelayConfig := .normal
  sndWnd : U32 := 32
  rcvWnd : U32 := 256
  stream : Bool := true
  sessionKey : Bytes := []
  sessionIdLen : Nat := 16
  sessionExpire : Duration := { secs := 90 }
  connectTimeout : Duration := { secs := 15 }
  shutdownTimeout : Duration := { secs := 10 }

/-- `Handshake`. -/
inductive Handshake where
  | syn
  | connected
  | finPending
  | finSent
  | finWaitPeer
  | disconnected
deriving DecidableEq

/-- `Output`: what the task hands to the application. -/
inductive Output where
  | connected (conv : U32)
  | frame (bytes : Bytes)
deriving DecidableEq

/-- What a frame given to `Kcp::send` is for. -/
inductive FrameKind where
  | syn
  | data
  | fin
deriving DecidableEq

/-- A successful call of `Kcp::send`: `waitsnd` is the value of `get_waitsnd` before
it, `upto` the number of segments ever queued after it. -/
structure Sent where
  kind : FrameKind
  frame : Bytes
  waitsnd : Nat
  upto : Nat
deriving DecidableEq

/-- What the task does at its interfaces. -/
inductive Obs where
  /-- The application's `start_send` put a frame into the input channel. -/
  | accepted (frame : Bytes)
  /-- `Kcp::send` took a frame. -/
  | send (sent : Sent)
  /-- `process_input` dropped a frame that `Kcp::send` refused. -/
  | tooBig (frame : Bytes)
  /-- `kcp_output` fed a packet to the transport. -/
  | packet (bytes : Bytes)
  /-- `kcp_recv` returned a frame. -/
  | recv (frame : Bytes)
  /-- `kcp_recv` dropped a frame as the FIN frame. -/
  | discard (frame : Bytes)
  /-- A value was sent to the output channel. -/
  | output (value : Output)
  /-- The teardown drained an unsent frame from the input channel. -/
  | drained (frame : Bytes)
  /-- The half-close pool was given a RESET packet. -/
  | reset (bytes : Bytes)
  /-- The conv reported to the disconnect sink. -/
  | disconnect (conv : U32)
deriving DecidableEq

/-- The observation hands the application its stream. -/
def Obs.connects : Obs → Bool
  | .output (.connected _) => true
  | _ => false

/-- The input channel: queued frames, whether the application has closed its sender,
whether the task has closed its receiver, and whether the sender holds a permit. -/
structure Channel where
  queue : List Bytes := []
  txClosed : Bool := false
  rxClosed : Bool := false
  permit : Bool := false
deriving DecidableEq

namespace Channel

/-- Nothing is queued and nothing can be queued any more, so `recv` gives `None` and
`try_recv` gives `Disconnected`. -/
def exhausted (channel : Channel) : Bool :=
  channel.queue = [] && !channel.permit && (channel.txClosed || channel.rxClosed)

end Channel

/-- Where the task is in `run`. -/
inductive Pc where
  /-- Top of the loop, before the output queue is looked at. -/
  | head
  /-- After the output queue has been drained. -/
  | check
  /-- Waiting in the main `select!`. -/
  | select
  /-- The inner loop of the input branch. -/
  | inputMore
  /-- After that loop, with the local `closed`. -/
  | inputDone (closed : Bool)
  /-- The inner loop of the permit branch. -/
  | permitLoop
  /-- The `poll_fn` loop of the transport branch, with the turns left. -/
  | batch (room : Nat)
  /-- After the packets of a batch. -/
  | batchDone
  /-- Before the fetch and the flush that end the transport branch. -/
  | fetch
  /-- After the loop, draining the input channel. -/
  | draining
  /-- After the disconnect report. -/
  | exited
  /-- The task has panicked. -/
  | panicked
deriving DecidableEq

/-- `Task` with the local state of `run`. -/
structure Task where
  cfg : Config
  kcp : Kcp
  inputRx : Channel := {}
  /-- The cancellation token has been cancelled. -/
  token : Bool := false
  /-- The application has not closed its end of the output channel. -/
  outputOpen : Bool := true
  hs : Handshake := .syn
  /-- `CLIENT` of `flags`. -/
  client : Bool := false
  /-- `FLUSH` of `flags`. -/
  flush : Bool := false
  /-- `FIN_RECVED` of `flags`. -/
  finRecved : Bool := false
  /-- `INPUT_CLOSED` of `flags`. -/
  inputClosed : Bool := false
  hsEndTime : U32 := 0
  lastIoTime : U32 := 0
  sessionId : Bytes := []
  txFrame : Option Bytes := none
  pc : Pc := .head
  clock : Nat → U32
  ticks : Nat := 0
  trace : List Obs := []

/-- `KCP_FIN`. -/
def kcpFin : Byte := 0x20

/-- `KCP_RESET`. -/
def kcpReset : Byte := 0x08

namespace Task

/-- Record an observation. -/
def log (t : Task) (obs : Obs) : Task := { t with trace := t.trace ++ [obs] }

/-- `Kcp::get_system_time`. -/
def getSystemTime (t : Task) : U32 × Task := (t.clock t.ticks, { t with ticks := t.ticks + 1 })

/-- The SYN and FIN frame: the session key followed by the session id. -/
def handshakeFrame (t : Task) : Bytes := t.cfg.sessionKey ++ t.sessionId

/-- The application holds its `KcpStream`, which `connect` and `accept` return once
`Output::Connected` has arrived. -/
def hasStream (t : Task) : Bool := t.trace.any Obs.connects

/-- The record of a `Kcp::send` that led from `t` to `kcp`. -/
def sentRecord (t : Task) (kind : FrameKind) (frame : Bytes) (kcp : Kcp) : Obs :=
  .send { kind, frame, waitsnd := t.kcp.getWaitsnd, upto := kcp.cb.sndNxt + kcp.cb.nsndQue }

/-- `Task::kcp_flush`. -/
def kcpFlush (t : Task) : Task :=
  if t.flush then
    let (now, t) := { t with flush := false }.getSystemTime
    let kcp := (t.kcp.update now).flush
    { t with kcp, lastIoTime := kcp.cb.current }
  else t

/-- `Task::handshake_send`. -/
def handshakeSend (t : Task) (kind : FrameKind) : Option Task :=
  let t := { t with flush := true }
  match t.kcp.send t.handshakeFrame with
  | some (.ok _, kcp) =>
      some ({ t with kcp }.log (t.sentRecord kind t.handshakeFrame kcp)).kcpFlush
  | _ => none

/-- `Task::kcp_apply_nodelay`. -/
def kcpApplyNodelay (t : Task) : Task :=
  let nodelay := t.cfg.nodelay
  { t with
    kcp := t.kcp.setNodelay nodelay.nodelay nodelay.interval nodelay.resend nodelay.nc }

/-- `Task::kcp_apply_config`. -/
def kcpApplyConfig (t : Task) : Option Task :=
  match (t.kcp.setStream t.cfg.stream).setMtu t.cfg.mtu with
  | some (.ok _, kcp) =>
      some { t with kcp := kcp.setWndsize t.cfg.sndWnd t.cfg.rcvWnd }.kcpApplyNodelay
  | _ => none

/-- `Task::kcp_recv`. -/
def kcpRecv (t : Task) : Option (Option Bytes × Task) :=
  match t.kcp.recvBytes with
  | none => none
  | some (frame, kcp) =>
      if t.finRecved ∧ t.kcp.cb.nrcvQue = 1 ∧ t.kcp.cb.nrcvBuf = 0 then
        -- The key and id of the FIN frame are compared, with no effect on the result.
        match frame with
        | some fin => some (none, { t with kcp }.log (.discard fin))
        | none => some (none, { t with kcp })
      else
        match frame with
        | some bytes => some (some bytes, { t with kcp }.log (.recv bytes))
        | none => some (none, { t with kcp })

/-- The deadline of a handshake that starts at `now`. -/
def hsDeadline (now : U32) (timeout : Duration) : U32 :=
  now + timeout.secs.setWidth 32 * 1000

/-- The loop of `Task::fin_transit_state`, at most `fuel` turns. -/
def finTransitLoop : Nat → Task → Option Task
  | 0, t => some t
  | fuel + 1, t =>
      match t.hs with
      | .syn => finTransitLoop fuel { t with hs := .disconnected }
      | .connected =>
          let (now, t) := t.getSystemTime
          finTransitLoop fuel
            { t with hsEndTime := hsDeadline now t.cfg.shutdownTimeout, hs := .finPending }
      | .finPending =>
          if t.inputClosed = false ∨ 0 < t.kcp.getWaitsnd then some t
          else
            match t.handshakeSend .fin with
            | some t => finTransitLoop fuel { t with hs := .finSent }
            | none => none
      | .finSent =>
          if 0 < t.kcp.getWaitsnd then some t
          else finTransitLoop fuel { t with hs := .finWaitPeer }
      | .finWaitPeer =>
          if t.finRecved = false ∨ 0 < t.kcp.cb.nrcvQue + t.kcp.cb.nrcvBuf then some t
          else finTransitLoop fuel { t with hs := .disconnected }
      | .disconnected => some t

/-- `Task::fin_transit_state`. The state rises with every turn but the last, so six
turns are enough. -/
def finTransitState (t : Task) : Option Task := finTransitLoop 6 t

/-- `Task::is_fin_handshake`: the half-open range from `FinPending` to `FinWaitPeer`. -/
def isFinHandshake (t : Task) : Bool := t.hs = .finPending || t.hs = .finSent

/-- The session id in a SYN frame, if key and length are right. -/
def synSessionId (t : Task) (syn : Bytes) : Option Bytes :=
  if t.cfg.sessionKey.isPrefixOf syn then
    let id := syn.drop t.cfg.sessionKey.length
    if id.length = t.cfg.sessionIdLen then some id else none
  else none

/-- The end of `Task::syn_handshake_recv`: `Connected` and its report. -/
def connect (t : Task) : Bool × Task :=
  let t := { t with hs := .connected }
  if t.outputOpen then (true, t.log (.output (.connected t.kcp.cb.conv))) else (false, t)

/-- `Task::syn_handshake_recv`; the Boolean is `Ok`. The output channel is empty at
this point, so `try_send` fails only when it is closed. -/
def synHandshakeRecv (t : Task) : Option (Bool × Task) :=
  match t.kcpRecv with
  | none => none
  | some (none, t) => some (true, t)
  | some (some syn, t) =>
      match t.synSessionId syn with
      | none => some (false, t)
      | some id =>
          if t.client then
            if t.sessionId ≠ id then some (false, t) else some t.kcpApplyNodelay.connect
          else
            match ({ t with sessionId := id }.kcpApplyNodelay.handshakeSend .syn) with
            | some t => some t.connect
            | none => none

/-- `Task::syn_handshake_input`; the Boolean is `Ok`. -/
def synHandshakeInput (t : Task) (packet : Bytes) : Option (Bool × Task) :=
  match readConv packet with
  | none => some (false, t)
  | some conv =>
      if t.client then
        if t.hs = .syn ∧ conv ≠ Kcp.synConv then
          -- Try to accept the conv of the server.
          match (t.kcp.setConv conv).input packet with
          | none => none
          | some (result, kcp) =>
              if result ≠ .ok () ∨ 0 < kcp.getWaitsnd then
                some (true, { t with kcp := kcp.setConv Kcp.synConv })
              else some (true, { t with kcp })
        else some (true, t)
      else if conv = Kcp.synConv then
        -- Switch the conv of the server temporarily.
        match (t.kcp.setConv conv).input packet with
        | none => none
        | some (_, kcp) => some (true, { t with kcp := kcp.setConv t.kcp.cb.conv })
      else some (false, t)

/-- The branch of `Task::kcp_input` for a packet with the FIN flag. -/
def finInput (t : Task) (packet : Bytes) (cmd : Byte) : Option Task :=
  let t :=
    if t.finRecved then t
    else { t with finRecved := true, inputRx := { t.inputRx with rxClosed := true } }
  match t.finTransitState with
  | none => none
  | some t => (t.kcp.input (writeCmd packet (cmd ^^^ kcpFin))).map fun (_, kcp) => { t with kcp }

/-- `Task::kcp_input`. -/
def kcpInput (t : Task) (packet : Bytes) : Option Task :=
  match t.kcp.input packet with
  | none => none
  | some (.ok _, kcp) => some { t with kcp, flush := true }
  | some (.error .notFound, kcp) =>
      (synHandshakeInput { t with kcp } packet).map Prod.snd
  | some (.error .invalidData, kcp) =>
      match readCmd packet with
      | none => none
      | some cmd =>
          if cmd &&& kcpReset ≠ 0 then some { t with kcp, hs := .disconnected }
          else if cmd &&& kcpFin ≠ 0 then { t with kcp }.finInput packet cmd
          else some { t with kcp }
  | some (.error _, _) => none

/-- `Task::process_input`. -/
def processInput (t : Task) (frame : Bytes) : Option Task :=
  match t.kcp.send frame with
  | none => none
  | some (.ok _, kcp) =>
      let t' := { t with
        kcp, flush := t.flush || t.cfg.nodelay.nodelay || decide (1 < kcp.cb.nsndQue) }
      some (t'.log (t.sentRecord .data frame kcp))
  | some (.error _, kcp) => some ({ t with kcp }.log (.tooBig frame))

/-- The packet that `Task::kcp_output` feeds to the transport: in `FinSent`, one with
payload gets the FIN flag. -/
def stamp (hs : Handshake) (packet : Bytes) : Bytes :=
  if hs = .finSent ∧ (readPayloadData packet).isSome then
    writeCmd packet (packet.getD 4 0 ||| kcpFin)
  else packet

end Task
end KcpRs
