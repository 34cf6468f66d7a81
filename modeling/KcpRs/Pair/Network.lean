import KcpRs.Stream.Conv

/-!
# Two tasks joined by a network

A client and a server with one configuration. What a task feeds to its transport, or leaves to
the half-close pool, may be delivered to the other one any number of times, at any later
moment, in any order, or never; nothing else is ever delivered. Everything else that happens
to either task is an event as in `KcpRs.Stream.Run`, so the reachable pairs are those of all
interleavings.
-/

namespace KcpRs

open Lib

/-- The two ends of a connection. -/
structure Pair where
  client : Task
  server : Task

/-- One of the two tasks takes a step. -/
inductive PairEvent where
  | client (event : Event)
  | server (event : Event)
deriving DecidableEq

/-- The bytes that an observation gives to the network. -/
def Obs.wire : Obs → Option Bytes
  | .packet bytes => some bytes
  | .reset bytes => some bytes
  | _ => none

/-- What a task has given to the network. -/
def Task.emitted (t : Task) : List Bytes := t.trace.filterMap Obs.wire

/-- The network delivers only what the other task has given to it. -/
def Event.carried (event : Event) (peer : Task) : Bool :=
  match event with
  | .packet bytes => peer.emitted.contains bytes
  | _ => true

namespace Pair

/-- One step of either task. -/
def step (p : Pair) : PairEvent → Option Pair
  | .client event =>
      if event.carried p.server then (p.client.step event).map fun client => { p with client }
      else none
  | .server event =>
      if event.carried p.client then (p.server.step event).map fun server => { p with server }
      else none

end Pair

/-- A client and a server of one configuration. -/
def pairMachine (cfg : Config) : Machine Pair PairEvent where
  Initial p := (clientMachine cfg).Initial p.client ∧ ∃ conv, (serverMachine cfg conv).Initial p.server
  step := Pair.step

/-- A step of one task while the other one waits. -/
def Task.Turned (peer : Task) (t t' : Task) (event : Event) : Prop :=
  event.carried peer ∧ t.step event = some t'

/-- A step of the pair is a step of one of its tasks. -/
theorem Pair.step_cases {p p' : Pair} {event : PairEvent} (stepped : p.step event = some p') :
    (∃ inner, event = .client inner ∧ p'.server = p.server ∧
        Task.Turned p.server p.client p'.client inner) ∨
      ∃ inner, event = .server inner ∧ p'.client = p.client ∧
        Task.Turned p.client p.server p'.server inner := by
  cases event with
  | client inner =>
      simp only [Pair.step] at stepped
      split at stepped
      · rename_i carried
        obtain ⟨client, moved, rfl⟩ := Option.map_eq_some_iff.1 stepped
        exact .inl ⟨inner, rfl, rfl, carried, moved⟩
      · cases stepped
  | server inner =>
      simp only [Pair.step] at stepped
      split at stepped
      · rename_i carried
        obtain ⟨server, moved, rfl⟩ := Option.map_eq_some_iff.1 stepped
        exact .inr ⟨inner, rfl, rfl, carried, moved⟩
      · cases stepped

/-- What is delivered has been given to the network. -/
theorem Event.mem_emitted {event : Event} {peer : Task} (carried : event.carried peer)
    {packet : Bytes} (delivers : event.Delivers packet) : packet ∈ peer.emitted := by
  rw [Event.Delivers] at delivers
  subst delivers
  exact List.contains_iff_mem.1 carried

theorem Task.mem_emitted {t : Task} {bytes : Bytes} :
    bytes ∈ t.emitted ↔ .packet bytes ∈ t.trace ∨ .reset bytes ∈ t.trace := by
  rw [emitted, List.mem_filterMap]
  constructor
  · rintro ⟨obs, member, wired⟩
    cases obs with
    | packet other =>
        cases wired
        exact .inl member
    | reset other =>
        cases wired
        exact .inr member
    | _ => cases wired
  · rintro (member | member)
    · exact ⟨_, member, rfl⟩
    · exact ⟨_, member, rfl⟩

variable {config : Config} {allow : Pair → PairEvent → Prop} {p : Pair}

/-- Each end of a pair is a task that could have been reached on its own. -/
theorem reach_ends (reach : (pairMachine config).Reach allow p) :
    (clientMachine config).Reachable p.client ∧
      ∃ conv, (serverMachine config conv).Reachable p.server := by
  induction reach with
  | initial valid => exact ⟨.initial valid.1, valid.2.imp fun _ initial => .initial initial⟩
  | step _ _ stepped inductionHypothesis =>
      obtain ⟨client, conv, server⟩ := inductionHypothesis
      rcases Pair.step_cases stepped with ⟨_, _, same, _, moved⟩ | ⟨_, _, same, _, moved⟩
      · exact ⟨.step client trivial moved, conv, by rwa [same]⟩
      · exact ⟨by rwa [same], conv, .step server trivial moved⟩

/-- A client is a task. -/
theorem reach_of_client {config : Config} {allow : Task → Event → Prop} {t : Task}
    (reach : (clientMachine config).Reach allow t) : (taskMachine config).Reach allow t := by
  induction reach with
  | initial valid => exact .initial (.inl valid)
  | step _ allowed stepped inductionHypothesis => exact .step inductionHypothesis allowed stepped

/-- So everything that holds of every task holds of both. -/
theorem reach_tasks (reach : (pairMachine config).Reach allow p) :
    (taskMachine config).Reachable p.client ∧ (taskMachine config).Reachable p.server := by
  obtain ⟨client, conv, server⟩ := reach_ends reach
  exact ⟨reach_of_client client, reach_of_server server⟩

/-! ## Concrete runs -/

/-- Start a client with session id `id` and a server for `conv`, and run events. -/
def pairRun (cfg : Config) (conv : U32) (id : Bytes) (clock clock' : Nat → U32)
    (events : List PairEvent) : Option Pair :=
  (Task.start cfg Kcp.synConv id clock).bind fun client =>
    (Task.start cfg conv [] clock').bind fun server =>
      (pairMachine cfg).exec (fun _ _ => true) { client, server } events

theorem reach_of_pairRun {cfg : Config} {conv : U32} {id : Bytes} {clock clock' : Nat → U32}
    {events : List PairEvent} {p : Pair} (length : id.length = cfg.sessionIdLen)
    (valid : Kcp.isValidConv conv) (executed : pairRun cfg conv id clock clock' events = some p) :
    (pairMachine cfg).Reachable p := by
  obtain ⟨client, started, executed⟩ := Option.bind_eq_some_iff.1 executed
  obtain ⟨server, started', executed⟩ := Option.bind_eq_some_iff.1 executed
  exact Machine.reach_of_exec (fun _ _ _ => trivial)
    (.initial ⟨⟨id, clock, length, started⟩, conv, valid, clock', started'⟩) executed

end KcpRs
