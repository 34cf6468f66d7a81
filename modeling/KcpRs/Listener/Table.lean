import KcpRs.Listener.ConvCache
import KcpRs.Stream.Task

/-!
# The session table of the UDP listener: `udp.rs`

`Listener` is `Task` of `udp.rs`: the sessions by conv, the convs by session id, the
cache of released convs and the channel of accepted streams. What a session's sender,
token and task handle lead to is given by `job`, the number of the session in the order
of creation.

The two maps are inverse to each other in every reachable state
(`listener_maps_inverse`), and `get_session` sends a packet to no session but its own
(`getSession_routes_iff`).
-/

namespace KcpRs

open Lib

/-- `std::net::SocketAddr`. -/
inductive SocketAddr where
  | v4 (ip : BitVec 32) (port : BitVec 16)
  | v6 (ip : BitVec 128) (port : BitVec 16) (flowinfo scopeId : U32)
deriving DecidableEq

/-- A `KcpStream` that an `accept_stream` task has got: its conv, and the session that the
task was spawned for. -/
structure KcpStream where
  conv : U32
  job : Nat
deriving DecidableEq

/-- `KcpStream::read_session_id`. -/
def KcpStream.readSessionId (packet sessionKey : Bytes) : Option Bytes :=
  (readPayloadData packet).bind fun payload =>
    if sessionKey.isPrefixOf payload then some (payload.drop sessionKey.length) else none

/-- `Session`. -/
structure Session where
  conv : U32
  sessionId : Bytes
  peerAddr : SocketAddr
  /-- `stream_permit` is there. -/
  streamPermit : Bool := true
  /-- `task` is there. -/
  task : Bool := true
  job : Nat
deriving DecidableEq

/-- `Message`. -/
inductive Message where
  | connect (stream : KcpStream)
  | disconnect (conv : U32)
deriving DecidableEq

/-- `Task` of `udp.rs`. -/
structure Listener where
  config : Config
  convCache : ConvCache
  /-- The capacity of the channel of accepted streams. -/
  backlog : Nat
  /-- The streams in that channel. -/
  streams : List (KcpStream × SocketAddr) := []
  /-- The application has not closed its end of that channel. -/
  accepting : Bool := true
  isClosing : Bool := false
  convMap : LinkedMap U32 Session := .empty
  sidMap : LinkedMap Bytes U32 := .empty
  /-- The number of sessions created so far. -/
  spawned : Nat := 0

namespace Listener

/-- `stream_tx.clone().try_reserve_owned()`: there is room besides the streams in the channel
and the permits that sessions hold. -/
def tryReserveOwned (l : Listener) : Bool :=
  l.accepting &&
    decide (l.streams.length + l.convMap.entries.countP (·.2.streamPermit) < l.backlog)

/-- The session found for a packet, if its address is right. -/
def sameAddr (session : Session) (peerAddr : SocketAddr) : Option Session :=
  if session.peerAddr = peerAddr then some session else none

/-- The new connection of `Task::get_session`. `channel` panics for a capacity of zero. -/
def openSession (l : Listener) (sessionId : Bytes) (peerAddr : SocketAddr) (now : Nat)
    (random : List U32) : Option (Session × Listener) :=
  match l.convCache.allocate l.convMap.contains now random with
  | none => none
  | some (conv, convCache) =>
      if l.config.sndWnd = 0 then none
      else
        let session := { conv, sessionId, peerAddr, job := l.spawned : Session }
        some (session, { l with
          convCache
          sidMap := l.sidMap.insert sessionId conv
          convMap := l.convMap.insert conv session
          spawned := l.spawned + 1 })

/-- `Task::get_session`. The outcome is `none` if it panics or goes on drawing convs. -/
def getSession (l : Listener) (packet : Bytes) (peerAddr : SocketAddr) (now : Nat)
    (random : List U32) : Option (Option Session × Listener) :=
  match readConv packet with
  | none => some (none, l)
  | some pktConv =>
      match l.convMap.get? pktConv with
      | some session => some (sameAddr session peerAddr, l)
      | none =>
          match KcpStream.readSessionId packet l.config.sessionKey with
          | none => some (none, l)
          | some sessionId =>
              match l.sidMap.get? sessionId with
              | some conv =>
                  if conv = pktConv ∨ pktConv = Kcp.synConv then
                    some ((l.convMap.get? conv).bind (sameAddr · peerAddr), l)
                  else some (none, l)
              | none =>
                  if l.isClosing ∨ pktConv ≠ Kcp.synConv ∨
                      sessionId.length ≠ l.config.sessionIdLen then some (none, l)
                  else if l.tryReserveOwned = false then some (none, l)
                  else
                    (l.openSession sessionId peerAddr now random).map fun (session, l) =>
                      (some session, l)

/-- `Task::kill_session`, for a session taken out of `conv_map`. -/
def killSession (l : Listener) (session : Session) (now : Nat) : Listener :=
  { l with
    convCache := l.convCache.add session.conv now
    sidMap := l.sidMap.remove session.sessionId }

/-- `Task::process_msg`. -/
def processMsg (l : Listener) (msg : Message) (now : Nat) : Listener :=
  match msg with
  | .connect stream =>
      match l.convMap.get? stream.conv with
      | none => l
      | some session =>
          let taken := { l with
            convMap := l.convMap.modify stream.conv fun session =>
              { session with task := false, streamPermit := false } }
          if session.streamPermit then
            { taken with streams := l.streams ++ [(stream, session.peerAddr)] }
          else taken
  | .disconnect conv =>
      match l.convMap.get? conv with
      | none => l
      | some session => { l with convMap := l.convMap.remove conv }.killSession session now

end Listener

/-- What may happen to a listener. -/
inductive ListenerEvent where
  /-- A packet arrives, at an instant and with random numbers to come. -/
  | packet (bytes : Bytes) (peerAddr : SocketAddr) (now : Nat) (random : List U32)
  /-- A message is processed. -/
  | message (msg : Message) (now : Nat)
  /-- Another holder of the cache uses it. -/
  | cache (call : CacheCall) (now : Nat)
  /-- The application takes a stream. -/
  | accept
  /-- The application closes its end. -/
  | close
  /-- The listener begins to close. -/
  | closing

namespace Listener

/-- One step of a listener. -/
def step (l : Listener) : ListenerEvent → Option Listener
  | .packet bytes peerAddr now random => (l.getSession bytes peerAddr now random).map Prod.snd
  | .message msg now => some (l.processMsg msg now)
  | .cache call now =>
      (CacheRun.after l.convCache now call).map fun convCache => { l with convCache }
  | .accept =>
      match l.streams with
      | [] => none
      | _ :: streams => some { l with streams }
  | .close => some { l with accepting := false }
  | .closing => some { l with isClosing := true }

end Listener

/-- Listeners: `KcpUdpStream::listen` with a cache of its own or a shared one. -/
def listenerMachine : Machine Listener ListenerEvent where
  Initial l := ∃ config convCache backlog, l = { config, convCache, backlog := max backlog 8 }
  step := Listener.step

namespace Listener

/-- The two maps are inverse to each other and every session is stored under its conv,
which is valid. -/
structure Paired (l : Listener) : Prop where
  inverse : ∀ sid conv, l.sidMap.get? sid = some conv ↔
    ∃ session, l.convMap.get? conv = some session ∧ session.sessionId = sid
  conv : ∀ conv session, l.convMap.get? conv = some session → session.conv = conv
  valid : ∀ conv session, l.convMap.get? conv = some session → Kcp.isValidConv conv
  size : l.sidMap.size = l.convMap.size

variable {l l' : Listener} {packet : Bytes} {peerAddr : SocketAddr} {now : Nat} {random : List U32}

/-- Only the maps matter. -/
theorem Paired.congr (paired : l.Paired) (convMap : l'.convMap = l.convMap)
    (sidMap : l'.sidMap = l.sidMap) : l'.Paired where
  inverse := by
    rw [convMap, sidMap]
    exact paired.inverse
  conv := by
    rw [convMap]
    exact paired.conv
  valid := by
    rw [convMap]
    exact paired.valid
  size := by
    rw [convMap, sidMap]
    exact paired.size

/-- A new connection: a conv that is free, under which the new session is stored. -/
theorem openSession_eq {sessionId : Bytes} {session : Session}
    (opened : l.openSession sessionId peerAddr now random = some (session, l')) :
    ∃ conv convCache, Kcp.isValidConv conv ∧ l.convMap.get? conv = none ∧
      session = { conv, sessionId, peerAddr, job := l.spawned } ∧
      l' = { l with
        convCache
        sidMap := l.sidMap.insert sessionId conv
        convMap := l.convMap.insert conv session
        spawned := l.spawned + 1 } := by
  unfold openSession at opened
  split at opened
  · cases opened
  · rename_i conv convCache allocated
    split at opened
    · cases opened
    · cases opened
      obtain ⟨valid, free, _, _⟩ := ConvCache.allocate_spec allocated
      exact ⟨conv, convCache, valid, LinkedMap.contains_eq_false_iff.1 free, rfl, rfl⟩

/-- The outcomes of `get_session`: a session that is there, or nothing, with the listener
unchanged; or a new connection. -/
theorem getSession_cases {found : Option Session}
    (got : l.getSession packet peerAddr now random = some (found, l')) :
    (l' = l ∧ ∀ session, found = some session → session.peerAddr = peerAddr ∧
      ∃ pktConv, readConv packet = some pktConv ∧
        (l.convMap.get? pktConv = some session ∨ l.convMap.get? pktConv = none ∧
          ∃ sid conv, KcpStream.readSessionId packet l.config.sessionKey = some sid ∧
            l.sidMap.get? sid = some conv ∧ (conv = pktConv ∨ pktConv = Kcp.synConv) ∧
            l.convMap.get? conv = some session)) ∨
    ∃ sid session, readConv packet = some Kcp.synConv ∧ l.convMap.get? Kcp.synConv = none ∧
      KcpStream.readSessionId packet l.config.sessionKey = some sid ∧ l.sidMap.get? sid = none ∧
      l.isClosing = false ∧ sid.length = l.config.sessionIdLen ∧ l.tryReserveOwned ∧
      found = some session ∧ l.openSession sid peerAddr now random = some (session, l') := by
  have addr {session session' : Session} (same : sameAddr session peerAddr = some session') :
      session = session' ∧ session'.peerAddr = peerAddr := by
    unfold sameAddr at same
    split at same
    · cases same
      exact ⟨rfl, ‹_›⟩
    · cases same
  unfold getSession at got
  split at got
  · cases got
    exact .inl ⟨rfl, by simp⟩
  · rename_i pktConv read
    split at got
    · rename_i session known
      cases got
      refine .inl ⟨rfl, fun session' same => ?_⟩
      obtain ⟨rfl, right⟩ := addr same
      exact ⟨right, pktConv, read, .inl known⟩
    · rename_i unknown
      split at got
      · cases got
        exact .inl ⟨rfl, by simp⟩
      · rename_i sid carried
        split at got
        · rename_i conv known
          split at got
          · rename_i own
            cases got
            refine .inl ⟨rfl, fun session' same => ?_⟩
            obtain ⟨session, here, same⟩ := Option.bind_eq_some_iff.1 same
            obtain ⟨rfl, right⟩ := addr same
            exact ⟨right, pktConv, read, .inr ⟨unknown, sid, conv, carried, known, own, here⟩⟩
          · cases got
            exact .inl ⟨rfl, by simp⟩
        · rename_i fresh
          split at got
          · cases got
            exact .inl ⟨rfl, by simp⟩
          · rename_i admitted
            simp only [not_or, Bool.not_eq_true, not_not, ne_eq] at admitted
            obtain ⟨running, rfl, length⟩ := admitted
            split at got
            · cases got
              exact .inl ⟨rfl, by simp⟩
            · rename_i reserved
              obtain ⟨⟨session, later⟩, opened, equal⟩ := Option.map_eq_some_iff.1 got
              cases equal
              exact .inr ⟨sid, session, read, unknown, carried, fresh, running, length,
                by simpa using reserved, rfl, opened⟩

/-- A new connection keeps the maps inverse. -/
theorem Paired.openSession {sessionId : Bytes} {session : Session} (paired : l.Paired)
    (fresh : l.sidMap.get? sessionId = none)
    (opened : l.openSession sessionId peerAddr now random = some (session, l')) : l'.Paired := by
  obtain ⟨conv, convCache, valid, free, rfl, rfl⟩ := openSession_eq opened
  refine ⟨fun sid other => ?_, fun other session here => ?_, fun other session here => ?_, ?_⟩
  · by_cases sameSid : sid = sessionId
    · subst sameSid
      rw [LinkedMap.get?_insert_self]
      constructor
      · rintro ⟨⟩
        exact ⟨_, LinkedMap.get?_insert_self, rfl⟩
      · rintro ⟨session, here, same⟩
        by_cases sameConv : other = conv
        · rw [sameConv]
        · rw [LinkedMap.get?_insert_of_ne sameConv] at here
          have known := (paired.inverse sid other).2 ⟨session, here, same⟩
          rw [fresh] at known
          cases known
    · rw [LinkedMap.get?_insert_of_ne sameSid, paired.inverse]
      refine exists_congr fun session => and_congr_left fun same => ?_
      by_cases sameConv : other = conv
      · subst sameConv
        rw [free, LinkedMap.get?_insert_self]
        refine ⟨fun here => (by cases here), fun here => ?_⟩
        cases here
        exact absurd same.symm sameSid
      · rw [LinkedMap.get?_insert_of_ne sameConv]
  · by_cases sameConv : other = conv
    · subst sameConv
      rw [LinkedMap.get?_insert_self] at here
      cases here
      rfl
    · rw [LinkedMap.get?_insert_of_ne sameConv] at here
      exact paired.conv other session here
  · by_cases sameConv : other = conv
    · rw [sameConv]
      exact valid
    · rw [LinkedMap.get?_insert_of_ne sameConv] at here
      exact paired.valid other session here
  · rw [LinkedMap.size_insert fresh, LinkedMap.size_insert free, paired.size]

/-- Taking the permit of a session leaves its conv and its session id alone. -/
theorem Paired.accept (paired : l.Paired) (accepted : U32) :
    Paired { l with
      convMap := l.convMap.modify accepted fun session =>
        { session with task := false, streamPermit := false } } := by
  have same (conv : U32) (session : Session) :
      (l.convMap.modify accepted fun session =>
        { session with task := false, streamPermit := false }).get? conv = some session →
      ∃ before, l.convMap.get? conv = some before ∧ session.conv = before.conv ∧
        session.sessionId = before.sessionId := by
    by_cases here : conv = accepted
    · subst here
      rw [LinkedMap.get?_modify_self, Option.map_eq_some_iff]
      rintro ⟨before, known, rfl⟩
      exact ⟨before, known, rfl, rfl⟩
    · rw [LinkedMap.get?_modify_of_ne here]
      exact fun known => ⟨session, known, rfl, rfl⟩
  refine ⟨fun sid conv => ?_, fun conv session here => ?_, fun conv session here => ?_, ?_⟩
  · rw [paired.inverse]
    constructor
    · rintro ⟨session, known, rfl⟩
      by_cases here : conv = accepted
      · subst here
        refine ⟨_, LinkedMap.get?_modify_self.trans (congrArg (Option.map _) known), rfl⟩
      · exact ⟨session, (LinkedMap.get?_modify_of_ne here).trans known, rfl⟩
    · rintro ⟨session, here, rfl⟩
      obtain ⟨before, known, _, sid⟩ := same conv session here
      exact ⟨before, known, sid.symm⟩
  · obtain ⟨before, known, conv', _⟩ := same conv session here
    exact conv'.trans (paired.conv conv before known)
  · obtain ⟨before, known, _⟩ := same conv session here
    exact paired.valid conv before known
  · exact paired.size.trans LinkedMap.size_modify.symm

/-- Removing a session from both maps keeps them inverse. -/
theorem Paired.killSession (paired : l.Paired) {gone : U32} {session : Session}
    (known : l.convMap.get? gone = some session) :
    ({ l with convMap := l.convMap.remove gone }.killSession session now).Paired := by
  have listed : l.sidMap.get? session.sessionId = some gone :=
    (paired.inverse _ _).2 ⟨session, known, rfl⟩
  have kept {conv : U32} {other : Session}
      (here : (l.convMap.remove gone).get? conv = some other) :
      conv ≠ gone ∧ l.convMap.get? conv = some other := by
    have member := LinkedMap.mem_remove.1 (LinkedMap.get?_eq_some_iff.1 here)
    exact ⟨member.2, LinkedMap.get?_eq_some_iff.2 member.1⟩
  refine ⟨fun sid conv => ?_, fun conv other here => paired.conv conv other (kept here).2,
    fun conv other here => paired.valid conv other (kept here).2, ?_⟩
  · by_cases sameSid : sid = session.sessionId
    · subst sameSid
      refine iff_of_false (by rw [Listener.killSession, LinkedMap.get?_remove_self]; simp) ?_
      rintro ⟨other, here, same⟩
      have again := (paired.inverse _ _).2 ⟨other, (kept here).2, same⟩
      rw [listed] at again
      exact (kept here).1 (Option.some.inj again).symm
    · rw [Listener.killSession, LinkedMap.get?_remove_of_ne sameSid, paired.inverse]
      refine exists_congr fun other => and_congr_left fun same => ?_
      by_cases sameConv : conv = gone
      · subst sameConv
        refine iff_of_false (fun here => ?_) (fun here => (kept here).1 rfl)
        rw [known] at here
        cases here
        exact sameSid same.symm
      · rw [LinkedMap.get?_remove_of_ne sameConv]
  · have sids := LinkedMap.size_remove listed
    have convs := LinkedMap.size_remove known
    have before := paired.size
    show (l.sidMap.remove session.sessionId).size = (l.convMap.remove gone).size
    omega

/-- A message either leaves the maps inverse entries alone, or removes one session from
both. -/
theorem Paired.processMsg (paired : l.Paired) (msg : Message) : (l.processMsg msg now).Paired := by
  cases msg with
  | connect stream =>
      have taken := paired.accept stream.conv
      unfold Listener.processMsg
      dsimp only
      split
      · exact paired
      · split
        · exact taken.congr rfl rfl
        · exact taken
  | disconnect gone =>
      unfold Listener.processMsg
      dsimp only
      split
      · exact paired
      · rename_i session known
        exact paired.killSession known

theorem Paired.step {event : ListenerEvent} (paired : l.Paired)
    (stepped : l.step event = some l') : l'.Paired := by
  cases event with
  | packet bytes peerAddr now random =>
      obtain ⟨⟨found, later⟩, got, rfl⟩ := Option.map_eq_some_iff.1 stepped
      obtain ⟨rfl, _⟩ | ⟨sid, session, _, _, _, fresh, _, _, _, _, opened⟩ := getSession_cases got
      · exact paired
      · exact paired.openSession fresh opened
  | message msg now =>
      cases stepped
      exact paired.processMsg msg
  | cache call now =>
      obtain ⟨convCache, _, rfl⟩ := Option.map_eq_some_iff.1 stepped
      exact paired.congr rfl rfl
  | accept =>
      simp only [Listener.step] at stepped
      split at stepped
      · cases stepped
      · cases stepped
        exact paired.congr rfl rfl
  | close =>
      cases stepped
      exact paired.congr rfl rfl
  | closing =>
      cases stepped
      exact paired.congr rfl rfl

end Listener

theorem reach_paired {allow : Listener → ListenerEvent → Prop} {l : Listener}
    (reach : listenerMachine.Reach allow l) : l.Paired := by
  refine reach.invariant Listener.Paired (fun l initial => ?_)
    (fun _ _ _ _ paired _ stepped => paired.step stepped)
  obtain ⟨config, convCache, backlog, rfl⟩ := initial
  exact ⟨by simp, by simp, by simp, rfl⟩

/-- The session table invariant: the two maps are inverse to each other and of one size, and
every session is stored under its conv, which is valid. -/
theorem listener_maps_inverse {l : Listener} (reach : listenerMachine.Reachable l) :
    (∀ sid conv, l.sidMap.get? sid = some conv ↔
      ∃ session, l.convMap.get? conv = some session ∧ session.sessionId = sid) ∧
    (∀ conv session, l.convMap.get? conv = some session → session.conv = conv ∧
      Kcp.isValidConv conv ∧ conv ≠ 0 ∧ conv ≠ Kcp.synConv ∧ conv ≠ 0xFFFFFFFF) ∧
    l.sidMap.size = l.convMap.size := by
  have paired := reach_paired reach
  refine ⟨paired.inverse, fun conv session known => ?_, paired.size⟩
  have valid := paired.valid conv session known
  refine ⟨paired.conv conv session known, valid, ?_, ?_, ?_⟩
  · rintro rfl
    exact absurd valid (by decide)
  · rintro rfl
    exact absurd valid (by decide)
  · rintro rfl
    exact absurd valid (by decide)

/-- The SYN packet of a client with the session id `[7]`. -/
def synPacket : Bytes :=
  encodePacket [{ conv := Kcp.synConv, cmd := ikcpCmdPush, wnd := 128, data := [7] }]

/-- The address of that client. -/
def clientAddr : SocketAddr := .v4 0x7F000001 4000

/-- A new listener for session ids of one byte. -/
def sampleListener : Listener :=
  { config := { sessionIdLen := 1 }, convCache := { timeout := 120 }, backlog := 8 }

/-- A SYN packet for another session id. -/
def otherSynPacket : Bytes := synPacket.dropLast ++ [8]

theorem reachable_sampleListener : listenerMachine.Reachable sampleListener :=
  .initial ⟨_, _, 8, rfl⟩

/-- Two SYN packets open two sessions, each under the first random conv that is valid and free. -/
def twoSessionEvents : List ListenerEvent :=
  [.packet synPacket clientAddr 0 [0, 5], .packet otherSynPacket clientAddr 1 [0, 5, 6]]

theorem listener_maps_inverse_two : ∃ l, listenerMachine.Reachable l ∧ l.convMap.size = 2 ∧
    l.sidMap.size = 2 ∧ l.sidMap.get? [7] = some 5 ∧ l.sidMap.get? [8] = some 6 := by
  have run : (listenerMachine.exec (fun _ _ => true) sampleListener twoSessionEvents).map (fun l =>
      (l.convMap.size, (l.convMap.get? 5).map Session.sessionId,
        (l.convMap.get? 6).map Session.sessionId)) = some (2, some [7], some [8]) := by decide +kernel
  obtain ⟨l, executed, view⟩ := Option.map_eq_some_iff.1 run
  simp only [Prod.mk.injEq, Option.map_eq_some_iff] at view
  obtain ⟨two, ⟨first, known, sid⟩, second, known', sid'⟩ := view
  have reach : listenerMachine.Reachable l :=
    Machine.reach_of_exec (fun _ _ _ => trivial) reachable_sampleListener executed
  obtain ⟨inverse, _, sizes⟩ := listener_maps_inverse reach
  exact ⟨l, reach, two, sizes.trans two, (inverse [7] 5).2 ⟨first, known, sid⟩,
    (inverse [8] 6).2 ⟨second, known', sid'⟩⟩

/-! ## Routing -/

namespace Listener

/-- The packet opens a new connection: it carries `SYN_CONV` and a session id of the right
length that is not in `sid_map`, the backlog has room and the listener is not closing. -/
def admits (l : Listener) (packet : Bytes) : Bool :=
  match KcpStream.readSessionId packet l.config.sessionKey with
  | none => false
  | some sid => decide (readConv packet = some Kcp.synConv) && l.sidMap.get? sid = none &&
      !l.isClosing && sid.length = l.config.sessionIdLen && l.tryReserveOwned

/-- `get_session` returns, and what it returns belongs to the packet: a session of its
address, with its conv or with its session id under `SYN_CONV`. A session id that is known
opens nothing, and the maps change only when a new connection is admitted; then exactly
one new session is added and returned. -/
def Routes (l : Listener) (packet : Bytes) (peerAddr : SocketAddr) (now : Nat)
    (random : List U32) : Prop :=
  ∃ found l', l.getSession packet peerAddr now random = some (found, l') ∧
    (∀ session, found = some session → session.peerAddr = peerAddr ∧
      (readConv packet = some session.conv ∨ readConv packet = some Kcp.synConv ∧
        KcpStream.readSessionId packet l.config.sessionKey = some session.sessionId)) ∧
    (∀ conv session, l.convMap.get? conv = some session →
      KcpStream.readSessionId packet l.config.sessionKey = some session.sessionId →
      l'.convMap = l.convMap ∧ l'.sidMap = l.sidMap) ∧
    (l.admits packet = false → l'.convMap = l.convMap ∧ l'.sidMap = l.sidMap) ∧
    (l.admits packet → ∃ session, found = some session ∧ session.peerAddr = peerAddr ∧
      KcpStream.readSessionId packet l.config.sessionKey = some session.sessionId ∧
      l.convMap.get? session.conv = none ∧
      l'.convMap = l.convMap.insert session.conv session ∧
      l'.sidMap = l.sidMap.insert session.sessionId session.conv)

variable {l : Listener} {packet : Bytes} {peerAddr : SocketAddr} {now : Nat} {random : List U32}

theorem admits_iff : l.admits packet ↔ ∃ sid,
    KcpStream.readSessionId packet l.config.sessionKey = some sid ∧
      readConv packet = some Kcp.synConv ∧ l.sidMap.get? sid = none ∧ l.isClosing = false ∧
      sid.length = l.config.sessionIdLen ∧ l.tryReserveOwned := by
  unfold admits
  cases carried : KcpStream.readSessionId packet l.config.sessionKey with
  | none => simp
  | some sid =>
      simp only [Bool.and_eq_true, decide_eq_true_eq, Bool.not_eq_true', Option.some.injEq,
        exists_eq_left', and_assoc]

theorem Paired.get?_synConv (paired : l.Paired) : l.convMap.get? Kcp.synConv = none := by
  cases known : l.convMap.get? Kcp.synConv with
  | none => rfl
  | some session => exact absurd (paired.valid _ _ known) (by decide)

/-- An admitted packet opens a session, unless its channel cannot be made. -/
theorem getSession_of_admits (paired : l.Paired) (admitted : l.admits packet)
    (peerAddr : SocketAddr)
    (drawn : (l.convCache.allocate l.convMap.contains now random).isSome) :
    ∃ sid, KcpStream.readSessionId packet l.config.sessionKey = some sid ∧
      l.sidMap.get? sid = none ∧ readConv packet = some Kcp.synConv ∧
      (l.config.sndWnd = 0 ∧ l.getSession packet peerAddr now random = none ∨
        ∃ session l', l.openSession sid peerAddr now random = some (session, l') ∧
          l.getSession packet peerAddr now random = some (some session, l')) := by
  obtain ⟨sid, carried, read, fresh, running, length, room⟩ := admits_iff.1 admitted
  refine ⟨sid, carried, fresh, read, ?_⟩
  have opens : l.getSession packet peerAddr now random =
      (l.openSession sid peerAddr now random).map fun (session, l) => (some session, l) := by
    simp [getSession, read, paired.get?_synConv, carried, fresh, running, length, room]
  obtain ⟨⟨conv, convCache⟩, allocated⟩ := Option.isSome_iff_exists.1 drawn
  by_cases none : l.config.sndWnd = 0
  · exact .inl ⟨none, by simp [opens, Listener.openSession, allocated, none]⟩
  · obtain ⟨session, l', opened⟩ :
        ∃ session l', l.openSession sid peerAddr now random = some (session, l') := by
      simp only [Listener.openSession, allocated, if_neg none]
      exact ⟨_, _, rfl⟩
    exact .inr ⟨session, l', opened, by rw [opens, opened]; rfl⟩

/-- A packet that is not admitted changes nothing. -/
theorem getSession_of_not_admits (refused : l.admits packet = false) (peerAddr : SocketAddr)
    (now : Nat) (random : List U32) :
    ∃ found, l.getSession packet peerAddr now random = some (found, l) := by
  have refused' : ¬ l.admits packet := by simp [refused]
  rw [admits_iff] at refused'
  unfold getSession
  split
  · exact ⟨_, rfl⟩
  · rename_i pktConv read
    split
    · exact ⟨_, rfl⟩
    · split
      · exact ⟨_, rfl⟩
      · rename_i sid carried
        split
        · split
          · exact ⟨_, rfl⟩
          · exact ⟨_, rfl⟩
        · rename_i fresh
          split
          · exact ⟨_, rfl⟩
          · rename_i admitted
            simp only [not_or, Bool.not_eq_true, not_not, ne_eq] at admitted
            obtain ⟨running, rfl, length⟩ := admitted
            split
            · exact ⟨_, rfl⟩
            · rename_i reserved
              exact absurd ⟨sid, carried, read, fresh, running, length, by simpa using reserved⟩
                refused'

/-- What is found without a new connection belongs to the packet. -/
theorem Paired.found (paired : l.Paired) {found : Option Session}
    (got : l.getSession packet peerAddr now random = some (found, l)) {session : Session}
    (is : found = some session) : session.peerAddr = peerAddr ∧
      (readConv packet = some session.conv ∨ readConv packet = some Kcp.synConv ∧
        KcpStream.readSessionId packet l.config.sessionKey = some session.sessionId) := by
  obtain ⟨_, old⟩ | ⟨sid, opened, _, _, _, _, _, _, _, _, fresh⟩ := getSession_cases got
  · obtain ⟨addr, pktConv, read, here | ⟨unknown, sid, conv, carried, known, own, here⟩⟩ :=
      old session is
    · exact ⟨addr, .inl (by rw [read, paired.conv pktConv session here])⟩
    · rcases own with rfl | rfl
      · rw [unknown] at here
        cases here
      · obtain ⟨session', again, rfl⟩ := (paired.inverse sid conv).1 known
        rw [here] at again
        cases again
        exact ⟨addr, .inr ⟨read, carried⟩⟩
  · obtain ⟨_, _, _, _, _, equal⟩ := openSession_eq fresh
    exact absurd (congrArg Listener.spawned equal) (by simp)

end Listener

/-- Routing isolation: in every reachable state, `get_session` treats every packet from every
address as it should exactly when it does not have to make a channel of capacity zero. -/
theorem getSession_routes_iff {l : Listener} (reach : listenerMachine.Reachable l) (packet : Bytes)
    (peerAddr : SocketAddr) (now : Nat) (random : List U32)
    (drawn : (l.convCache.allocate l.convMap.contains now random).isSome) :
    l.Routes packet peerAddr now random ↔ (l.admits packet → l.config.sndWnd ≠ 0) := by
  have paired := reach_paired reach
  cases admitted : l.admits packet with
  | false =>
      obtain ⟨found, got⟩ := Listener.getSession_of_not_admits admitted peerAddr now random
      refine iff_of_true ⟨found, l, got, fun session is => paired.found got is,
        fun _ _ _ _ => ⟨rfl, rfl⟩, fun _ => ⟨rfl, rfl⟩, fun admits => ?_⟩ (by simp)
      rw [admitted] at admits
      cases admits
  | true =>
      obtain ⟨sid, carried, fresh, read, ⟨none, stuck⟩ | ⟨session, l', opened, got⟩⟩ :=
        Listener.getSession_of_admits paired admitted peerAddr drawn
      · refine iff_of_false ?_ (by simp [none])
        rintro ⟨found, l', got, _⟩
        rw [stuck] at got
        cases got
      · have made : l.config.sndWnd ≠ 0 := by
          intro none
          simp only [Listener.openSession, none] at opened
          split at opened <;> simp at opened
        obtain ⟨conv, convCache, valid, free, rfl, rfl⟩ := Listener.openSession_eq opened
        refine iff_of_true ⟨_, _, got, ?_, ?_, ?_, ?_⟩ (fun _ => made)
        · rintro session ⟨⟩
          exact ⟨rfl, .inr ⟨read, carried⟩⟩
        · intro other session known same
          rw [carried] at same
          have listed := (paired.inverse _ _).2 ⟨session, known, rfl⟩
          rw [← Option.some.inj same, fresh] at listed
          cases listed
        · intro refused
          rw [admitted] at refused
          cases refused
        · exact fun _ => ⟨_, rfl, rfl, carried, free, rfl, rfl⟩

theorem getSession_routes_syn :
    sampleListener.admits synPacket ∧ sampleListener.Routes synPacket clientAddr 0 [0, 5] := by
  have admitted : sampleListener.admits synPacket := by decide +kernel
  have drawn : (sampleListener.convCache.allocate sampleListener.convMap.contains 0 [0, 5]).isSome := by
    decide +kernel
  exact ⟨admitted, (getSession_routes_iff reachable_sampleListener synPacket clientAddr 0 [0, 5]
    drawn).2 fun _ => by decide⟩

/-- With a send window of zero, a SYN packet makes the listener panic. -/
theorem getSession_panics : ∃ l, listenerMachine.Reachable l ∧ l.admits synPacket ∧
    (l.convCache.allocate l.convMap.contains 0 [0, 5]).isSome ∧
    l.getSession synPacket clientAddr 0 [0, 5] = none ∧ ¬ l.Routes synPacket clientAddr 0 [0, 5] := by
  let l : Listener := { sampleListener with config := { sessionIdLen := 1, sndWnd := 0 } }
  have stuck : (l.getSession synPacket clientAddr 0 [0, 5]).isNone := by decide +kernel
  have panics := Option.isNone_iff_eq_none.1 stuck
  refine ⟨l, .initial ⟨_, _, 8, rfl⟩, by decide +kernel, by decide +kernel, panics, ?_⟩
  rintro ⟨found, l', got, _⟩
  rw [panics] at got
  cases got

end KcpRs
