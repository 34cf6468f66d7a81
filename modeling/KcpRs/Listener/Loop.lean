import KcpRs.Listener.Messages

/-!
# The loop of the listener: `Task::run` of `udp.rs`

`Service` leaves open when `run` takes a packet or a message. `Listening` adds the control of its
loop: a closing listener takes a message at the top of the loop, or leaves when there is neither a
message nor a session; then `run` waits in its `select!`, whose token branch is off while it is closing.
Every step is one of the service or leaves it alone (`step_serves`), so that what holds of every
reachable service holds in the loop (`reach_service`).

The packets of `pkt_rx` are kept without their addresses.
-/

namespace KcpRs

open Lib

/-- `LISTENER_TASK_LOOP`. -/
def listenerTaskLoop : Nat := 1024

/-- Where `run` is. -/
inductive LoopPc where
  /-- The top of the loop. -/
  | top
  /-- The `select!`. -/
  | select
  /-- In the transport branch, which processes at most `room` more datagrams. -/
  | transport (room : Nat)
  /-- The loop has been left. -/
  | left
deriving DecidableEq

/-- The listener in its loop. -/
structure Listening where
  service : Service
  pc : LoopPc := .top
  /-- The token has been cancelled. -/
  token : Bool := false
  pktRx : List Bytes := []

/-- What may happen to a listener in its loop. -/
inductive ListeningEvent where
  /-- At the top of the loop a closing listener takes a message with `try_recv`. -/
  | tryRecv (now : Nat)
  /-- At the top of the loop a closing listener has neither a message nor a session. -/
  | leave
  /-- `run` goes on to its `select!`. -/
  | enter
  /-- The transport yields a datagram; `clock` is what a new KCP task will read. -/
  | datagram (bytes : Bytes) (peerAddr : SocketAddr) (now : Nat) (random : List U32)
      (clock : Nat → U32)
  /-- The transport yields an error. -/
  | transportError
  /-- The transport has ended. -/
  | transportEnd
  /-- No further datagram is ready. -/
  | noDatagram
  /-- A packet is taken from `pkt_rx`. -/
  | pkt
  /-- A message is taken from `msg_rx`. -/
  | msg (now : Nat)
  /-- The token branch. -/
  | cancelled
  /-- The application closes its `KcpUdpStream`, or drops it. -/
  | close
  /-- The KCP task of a session goes on. -/
  | task (job : Nat) (event : Event)
  /-- The `accept_stream` task of a session goes on. -/
  | acceptStream (job : Nat)
  /-- A half-close task sends the RESET packet of a session. -/
  | halfClose (bytes : Bytes)
  /-- The application takes a stream. -/
  | accept
  /-- Another holder of the cache uses it. -/
  | cache (call : CacheCall) (now : Nat)

/-- The packet that a KCP task fed to its transport. -/
def Obs.fed : Obs → Option Bytes
  | .packet bytes => some bytes
  | _ => none

namespace Listening

/-- The packets that the KCP task of a session has sent. -/
def sentBy (s : Service) (job : Nat) : List Bytes :=
  (s.taskOf job).elim [] fun t => t.trace.filterMap Obs.fed

/-- `pkt_tx.send`, which fails once `pkt_rx` is closed. -/
def send (r : Listening) (packets : List Bytes) : Listening :=
  if r.pc = .left then r else { r with pktRx := r.pktRx ++ packets }

/-- The service takes a step, and `run` goes on at `pc`. -/
def serve (r : Listening) (event : ServiceEvent) (pc : LoopPc) : Option Listening :=
  (r.service.step event).map fun service => { r with service, pc }

def tryRecv (r : Listening) (now : Nat) : Option Listening :=
  if r.pc = .top ∧ r.service.listener.isClosing ∧ r.service.messages ≠ [] then
    r.serve (.process now) .select
  else none

/-- `break`, and what is sent behind the loop. -/
def leave (r : Listening) : Option Listening :=
  if r.pc = .top ∧ r.service.listener.isClosing ∧ r.service.messages = [] ∧
      r.service.listener.convMap.size = 0 then
    some { r with pc := .left, pktRx := [] }
  else none

def enter (r : Listening) : Option Listening :=
  if r.pc = .top ∧ (r.service.listener.isClosing →
      r.service.messages = [] ∧ r.service.listener.convMap.size ≠ 0) then
    some { r with pc := .select }
  else none

def datagram (r : Listening) (bytes : Bytes) (peerAddr : SocketAddr) (now : Nat)
    (random : List U32) (clock : Nat → U32) : Option Listening :=
  match r.pc with
  | .select =>
      r.serve (.packet bytes peerAddr now random clock) (.transport (listenerTaskLoop - 1))
  | .transport (room + 1) => r.serve (.packet bytes peerAddr now random clock) (.transport room)
  -- What is polled after the last turn is dropped.
  | .transport 0 => some { r with pc := .top }
  | _ => none

def transportError (r : Listening) : Option Listening :=
  match r.pc with
  | .select | .transport _ => some { r with pc := .top }
  | _ => none

def transportEnd (r : Listening) : Option Listening :=
  match r.pc with
  | .select | .transport (_ + 1) => { r with token := true }.serve (.other .closing) .top
  | .transport 0 => some { r with pc := .top }
  | _ => none

def noDatagram (r : Listening) : Option Listening :=
  match r.pc with
  | .transport _ => some { r with pc := .top }
  | _ => none

/-- A packet is sent, and those behind it with `try_send`. -/
def pkt (r : Listening) : Option Listening :=
  match r.pc, r.pktRx with
  | .select, _ :: rest => some { r with pktRx := rest.drop listenerTaskLoop, pc := .top }
  | _, _ => none

def msg (r : Listening) (now : Nat) : Option Listening :=
  if r.pc = .select then r.serve (.process now) .top else none

def cancelled (r : Listening) : Option Listening :=
  if r.pc = .select ∧ r.token ∧ r.service.listener.isClosing = false then
    r.serve (.other .closing) .top
  else none

/-- A KCP task goes on and sends what it feeds to its transport. -/
def task (r : Listening) (job : Nat) (event : Event) : Option Listening :=
  (r.serve (.task job event) r.pc).map fun next =>
    next.send ((sentBy next.service job).drop (sentBy r.service job).length)

/-- A half-close task has a packet that a KCP task gave it to send. -/
def halfClose (r : Listening) (bytes : Bytes) : Option Listening :=
  if r.service.jobs.any fun job => job.task.any fun t => .reset bytes ∈ t.trace then
    some (r.send [bytes])
  else none

/-- One step of `run` or of its surroundings. -/
def step (r : Listening) : ListeningEvent → Option Listening
  | .tryRecv now => r.tryRecv now
  | .leave => r.leave
  | .enter => r.enter
  | .datagram bytes peerAddr now random clock => r.datagram bytes peerAddr now random clock
  | .transportError => r.transportError
  | .transportEnd => r.transportEnd
  | .noDatagram => r.noDatagram
  | .pkt => r.pkt
  | .msg now => r.msg now
  | .cancelled => r.cancelled
  | .close => { r with token := true }.serve (.other .close) r.pc
  | .task job event => r.task job event
  | .acceptStream job => r.serve (.acceptStream job) r.pc
  | .halfClose bytes => r.halfClose bytes
  | .accept => r.serve (.other .accept) r.pc
  | .cache call now => r.serve (.other (.cache call now)) r.pc

/-- The step that the service takes, unless a datagram is dropped. -/
def serves : ListeningEvent → Option ServiceEvent
  | .tryRecv now | .msg now => some (.process now)
  | .datagram bytes peerAddr now random clock => some (.packet bytes peerAddr now random clock)
  | .transportEnd | .cancelled => some (.other .closing)
  | .close => some (.other .close)
  | .task job event => some (.task job event)
  | .acceptStream job => some (.acceptStream job)
  | .accept => some (.other .accept)
  | .cache call now => some (.other (.cache call now))
  | _ => none

end Listening

/-- The listener processes a message, or an `accept_stream` task ends. -/
def ServiceEvent.drains : ServiceEvent → Bool
  | .process _ | .acceptStream _ => true
  | _ => false

/-- The same of the loop. -/
def ListeningEvent.drains : ListeningEvent → Bool
  | .tryRecv _ | .msg _ | .acceptStream _ => true
  | _ => false

namespace Listening

/-- A conv that is given out in this step was not released before. -/
def allocatesUnreleased (r : Listening) (event : ListeningEvent) : Bool :=
  (serves event).all r.service.allocatesUnreleased

variable {r r' : Listening} {event : ListeningEvent}

@[simp] theorem service_send (r : Listening) (packets : List Bytes) :
    (r.send packets).service = r.service := by
  unfold send
  split <;> rfl

@[simp] theorem pc_send (r : Listening) (packets : List Bytes) : (r.send packets).pc = r.pc := by
  unfold send
  split <;> rfl

/-- What a step of the loop can do. Only its control leaves the loop, and only without a session. -/
inductive Turn (r : Listening) (event : ListeningEvent) : Listening → Prop where
  /-- The service is left alone. -/
  | control {r' : Listening} (service : r'.service = r.service) (idle : event.drains = false)
      (leaves : r'.pc = .left → r.pc = .left ∨
        r.service.listener.isClosing ∧ r.service.listener.convMap.size = 0) : Turn r event r'
  /-- The service takes a step. -/
  | serve {r' : Listening} {inner : ServiceEvent} (served : serves event = some inner)
      (stepped : r.service.step inner = some r'.service)
      (leaves : r'.pc = .left → r.pc = .left ∧ ∀ now, inner ≠ .process now) : Turn r event r'

/-- The service takes a step that does not lead out of the loop. -/
theorem Turn.of_serve {before : Listening} {inner : ServiceEvent} {pc : LoopPc}
    (same : before.service = r.service) (served : serves event = some inner) (stays : pc ≠ .left)
    (serve : before.serve inner pc = some r') : r.Turn event r' := by
  obtain ⟨service, stepped, rfl⟩ := Option.map_eq_some_iff.1 serve
  rw [same] at stepped
  exact .serve served stepped fun left => absurd left stays

/-- The tasks and the application go on beside the loop. -/
theorem Turn.of_beside {before : Listening} {inner : ServiceEvent}
    (same : before.service = r.service) (served : serves event = some inner)
    (quiet : ∀ now, inner ≠ .process now) (serve : before.serve inner r.pc = some r') :
    r.Turn event r' := by
  obtain ⟨service, stepped, rfl⟩ := Option.map_eq_some_iff.1 serve
  rw [same] at stepped
  exact .serve served stepped fun left => ⟨left, quiet⟩

/-- The loop goes on at `pc`, and nothing else happens to the service. -/
theorem Turn.of_goto {pc : LoopPc} {pktRx : List Bytes} (idle : event.drains = false)
    (stays : pc ≠ .left) : r.Turn event { r with pc, pktRx } :=
  .control rfl idle fun left => absurd left stays

theorem step_turn (stepped : r.step event = some r') : r.Turn event r' := by
  cases event with
  | tryRecv now =>
      simp only [step, tryRecv] at stepped
      split at stepped
      · exact .of_serve rfl rfl (by decide) stepped
      · cases stepped
  | leave =>
      simp only [step, leave] at stepped
      split at stepped
      · rename_i gone
        cases stepped
        exact .control rfl rfl fun _ => .inr ⟨gone.2.1, gone.2.2.2⟩
      · cases stepped
  | enter =>
      simp only [step, enter] at stepped
      split at stepped <;> cases stepped
      exact .of_goto rfl (by decide)
  | datagram bytes peerAddr now random clock =>
      simp only [step, datagram] at stepped
      split at stepped
      · exact .of_serve rfl rfl (by decide) stepped
      · exact .of_serve rfl rfl (by simp) stepped
      · cases stepped
        exact .of_goto rfl (by decide)
      · cases stepped
  | transportError =>
      simp only [step, transportError] at stepped
      split at stepped <;> cases stepped <;> exact .of_goto rfl (by decide)
  | transportEnd =>
      simp only [step, transportEnd] at stepped
      have same : ({ r with token := true } : Listening).service = r.service := rfl
      split at stepped
      · exact .of_serve same rfl (by decide) stepped
      · exact .of_serve same rfl (by decide) stepped
      · cases stepped
        exact .of_goto rfl (by decide)
      · cases stepped
  | noDatagram =>
      simp only [step, noDatagram] at stepped
      split at stepped <;> cases stepped
      exact .of_goto rfl (by decide)
  | pkt =>
      simp only [step, pkt] at stepped
      split at stepped <;> cases stepped
      exact .of_goto rfl (by decide)
  | msg now =>
      simp only [step, msg] at stepped
      split at stepped
      · exact .of_serve rfl rfl (by decide) stepped
      · cases stepped
  | cancelled =>
      simp only [step, cancelled] at stepped
      split at stepped
      · exact .of_serve rfl rfl (by decide) stepped
      · cases stepped
  | close =>
      have same : ({ r with token := true } : Listening).service = r.service := rfl
      exact .of_beside same rfl (by simp) stepped
  | task job event =>
      obtain ⟨next, served, rfl⟩ := Option.map_eq_some_iff.1 stepped
      obtain ⟨service, stepped, rfl⟩ := Option.map_eq_some_iff.1 served
      have taken : serves (.task job event) = some (.task job event) := rfl
      refine .serve taken ?_ fun left => ?_
      · rwa [service_send]
      · rw [pc_send] at left
        exact ⟨left, by simp⟩
  | acceptStream job => exact .of_beside rfl rfl (by simp) stepped
  | halfClose bytes =>
      simp only [step, halfClose] at stepped
      split at stepped <;> cases stepped
      exact .control (service_send ..) rfl fun left => .inl (pc_send r _ ▸ left)
  | accept => exact .of_beside rfl rfl (by simp) stepped
  | cache call now => exact .of_beside rfl rfl (by simp) stepped

/-- What the steps count for is the same in the loop and in the service. -/
theorem drains_of_serves {inner : ServiceEvent} (served : serves event = some inner) :
    inner.drains = event.drains := by
  cases event <;> cases served <;> rfl

end Listening

/-- The listener in its loop. -/
def listeningMachine : Machine Listening ListeningEvent where
  Initial r := ∃ service, serviceMachine.Initial service ∧ r = { service }
  step := Listening.step

/-- What is reached in the loop is reached by the service alone. -/
theorem reach_service {r : Listening}
    (reach : listeningMachine.Reach (fun r event => r.allocatesUnreleased event) r) :
    serviceMachine.Reach (fun s event => s.allocatesUnreleased event) r.service := by
  induction reach with
  | initial valid =>
      obtain ⟨service, valid, rfl⟩ := valid
      exact .initial valid
  | step _ allowed transition inductionHypothesis =>
      cases Listening.step_turn transition with
      | control service => exact service ▸ inductionHypothesis
      | serve served stepped =>
          rw [Listening.allocatesUnreleased, served] at allowed
          exact .step inductionHypothesis allowed stepped

end KcpRs
