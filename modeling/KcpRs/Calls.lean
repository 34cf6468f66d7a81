import KcpRs.Engine.Stable
import KcpRs.Lib.Machine
import KcpRs.Protocol

/-!
# The calls of the safe interface

`kcpMachine` is a `Kcp` after `initialize`, with the size of the scratch buffer that
`ikcp_flush` fills, under the safe methods in any order and with any arguments. A packet is
what was written to the buffer since the packet before it, so its length is how far a flush
has written.
-/

namespace KcpRs

open Lib

/-- The bytes that `ikcp_create` and `ikcp_setmtu` allocate for the scratch buffer, computed in
32 bits. -/
def bufferSize (mtu : Nat) : Nat := (mtu + ikcpOverhead) * 3 % 2 ^ 32

/-- An initialized `Kcp`, which stays where it is, and the size of its scratch buffer. -/
structure Pinned where
  kcp : Kcp
  buffer : Nat

/-- A call of a safe method. -/
inductive Call where
  /-- `Kcp::set_mtu`, and whether the allocation of the buffer succeeds. -/
  | setMtu (mtu : U32) (allocated : Bool)
  | setConv (conv : U32)
  | setStream (stream : Bool)
  | setWndsize (sndwnd rcvwnd : U32)
  | setNodelay (nodelay : Bool) (interval resend : U32) (nc : Bool)
  | send (data : Bytes)
  | input (packet : Bytes)
  /-- `Kcp::recv` with a buffer of `len` bytes. -/
  | recv (len : Nat)
  | update (current : U32)
  | flush

namespace Pinned

/-- `Kcp::new` and `Kcp::initialize` at system time `now`. -/
def initialized (conv now : U32) : Pinned where
  kcp := (Kcp.new conv).update now
  buffer := bufferSize ikcpMtuDef

/-- A call; `none` is one that does not return. -/
def call (pinned : Pinned) : Call → Option Pinned
  | .setMtu mtu allocated =>
      -- A failed allocation changes nothing, and a new buffer comes with a new mtu only.
      if allocated then
        (pinned.kcp.setMtu mtu).map fun (_, kcp) =>
          { kcp, buffer := if kcp.cb.mtu = pinned.kcp.cb.mtu then pinned.buffer
              else bufferSize kcp.cb.mtu }
      else some pinned
  | .setConv conv => some { pinned with kcp := pinned.kcp.setConv conv }
  | .setStream stream => some { pinned with kcp := pinned.kcp.setStream stream }
  | .setWndsize sndwnd rcvwnd => some { pinned with kcp := pinned.kcp.setWndsize sndwnd rcvwnd }
  | .setNodelay nodelay interval resend nc =>
      some { pinned with kcp := pinned.kcp.setNodelay nodelay interval resend nc }
  | .send data => (pinned.kcp.send data).map fun (_, kcp) => { pinned with kcp }
  | .input packet => (pinned.kcp.input packet).map fun (_, kcp) => { pinned with kcp }
  | .recv len => (pinned.kcp.recv len).map fun (_, _, kcp) => { pinned with kcp }
  | .update current => some { pinned with kcp := pinned.kcp.update current }
  | .flush => some { pinned with kcp := pinned.kcp.flush }

/-- The segments that wait to be sent or acknowledged. -/
def waiting (pinned : Pinned) : List Seg := pinned.kcp.cb.sndBuf ++ pinned.kcp.cb.sndQueue

/-- At a flush the scratch buffer has room for a packet of the mtu, no waiting segment is larger than
that, and the sums that are compared with the mtu are C integers. -/
def Careful (pinned : Pinned) : Call → Prop
  | .update _ | .flush =>
      (pinned.kcp.cb.mtu ≤ bufferSize pinned.kcp.cb.mtu ∧ pinned.kcp.cb.mtu + ikcpOverhead < 2 ^ 31) ∧
        ∀ seg ∈ pinned.waiting, seg.Fits pinned.kcp.cb.mtu
  | _ => True

instance (pinned : Pinned) : (call : Call) → Decidable (pinned.Careful call)
  | .update _ | .flush =>
      inferInstanceAs (Decidable ((pinned.kcp.cb.mtu ≤ bufferSize pinned.kcp.cb.mtu ∧
        pinned.kcp.cb.mtu + ikcpOverhead < 2 ^ 31) ∧
          ∀ seg ∈ pinned.waiting, ikcpOverhead + seg.data.length ≤ pinned.kcp.cb.mtu ∧
            pinned.kcp.cb.mtu + (ikcpOverhead + seg.data.length) < 2 ^ 31))
  | .setMtu _ _ | .setConv _ | .setStream _ | .setWndsize _ _ | .setNodelay _ _ _ _ | .send _
  | .input _ | .recv _ => inferInstanceAs (Decidable True)

end Pinned

/-- Every sequence of calls on every initialized `Kcp`. -/
def kcpMachine : Machine Pinned Call where
  Initial pinned := ∃ conv now, pinned = .initialized conv now
  step := Pinned.call

namespace Pinned

variable {pinned next : Pinned} {call : Call}

end Pinned

/-! ## What every sequence of calls keeps -/

/-- A control block that calls of the safe interface can lead to: the counters agree with the
queues and the sizes are those of an mtu that `ikcp_setmtu` accepts. -/
structure Ikcpcb.Ready (kcp : Ikcpcb) : Prop where
  counted : kcp.Counted
  mss : kcp.mss = kcp.mtu - ikcpOverhead
  least : 50 ≤ kcp.mtu
  most : kcp.mtu < 2 ^ 31

namespace Ikcpcb.Ready

variable {kcp kcp' : Ikcpcb}

theorem positive (ready : kcp.Ready) : 0 < kcp.mss := by
  have least := ready.least
  rw [ready.mss, ikcpOverhead]
  omega

theorem of_settings (ready : kcp.Ready) (counted : kcp'.Counted) (mtu : kcp'.mtu = kcp.mtu)
    (mss : kcp'.mss = kcp.mss) : kcp'.Ready where
  counted := counted
  mss := by rw [mss, mtu, ready.mss]
  least := mtu ▸ ready.least
  most := mtu ▸ ready.most

end Ikcpcb.Ready

theorem Pinned.ready_initialized (conv now : U32) : (initialized conv now).kcp.cb.Ready := by
  have created : (ikcpCreate conv).Ready :=
    ⟨⟨rfl, rfl, rfl, rfl⟩, rfl, (by decide : 50 ≤ ikcpMtuDef), (by decide : ikcpMtuDef < 2 ^ 31)⟩
  have settings := settings_ikcpUpdate (ikcpCreate conv) now
  exact created.of_settings (created.counted.ikcpUpdate now)
    (congrArg Ikcpcb.Settings.mtu settings) (congrArg Ikcpcb.Settings.mss settings)

theorem Pinned.ready_call {pinned next : Pinned} {call : Call} (ready : pinned.kcp.cb.Ready)
    (called : pinned.call call = some next) : next.kcp.cb.Ready := by
  have counted := ready.counted
  cases call with
  | setMtu mtu allocated =>
      simp only [Pinned.call] at called
      split at called
      · obtain ⟨⟨result, kcp⟩, set, rfl⟩ := Option.map_eq_some_iff.1 called
        obtain ⟨rfl, _⟩ | ⟨least, most, rfl⟩ := Kcp.setMtu_eq set
        · exact ready
        · exact ⟨⟨counted.sndQueue, counted.sndBuf, counted.rcvQueue, counted.rcvBuf⟩, rfl, least,
            most⟩
      · cases called
        exact ready
  | setNodelay nodelay interval resend nc =>
      cases called
      exact ready.of_settings (counted.ikcpNodelay _ _ _ _) rfl rfl
  | send data =>
      obtain ⟨⟨result, kcp⟩, sent, rfl⟩ := Option.map_eq_some_iff.1 called
      obtain ⟨_, rfl⟩ | ⟨_, _, rfl⟩ := Kcp.send_eq sent
      · exact ready
      · have counted := counted.ikcpSend data (BitVec.ofNat 32 data.length).toInt
        obtain ⟨queue, count, equal⟩ :=
          ikcpSend_queue pinned.kcp.cb data (BitVec.ofNat 32 data.length).toInt
        rw [equal] at counted ⊢
        exact ready.of_settings counted rfl rfl
  | input packet =>
      obtain ⟨⟨result, kcp⟩, taken, rfl⟩ := Option.map_eq_some_iff.1 called
      obtain ⟨_, rfl⟩ := Kcp.input_eq taken
      have settings := settings_ikcpInput pinned.kcp.cb packet
      exact ready.of_settings (counted.ikcpInput packet) (congrArg Ikcpcb.Settings.mtu settings)
        (congrArg Ikcpcb.Settings.mss settings)
  | recv len =>
      obtain ⟨⟨result, written, kcp⟩, received, rfl⟩ := Option.map_eq_some_iff.1 called
      obtain rfl | ⟨ispeek, rfl⟩ := Kcp.recv_eq received
      · exact ready
      · have counted := counted.recvMoved ispeek
        obtain ⟨probe, equal⟩ := recvMoved_eq pinned.kcp.cb ispeek
        rw [equal] at counted ⊢
        exact ready.of_settings counted rfl rfl
  | update current =>
      cases called
      have settings := settings_ikcpUpdate pinned.kcp.cb current
      exact ready.of_settings (counted.ikcpUpdate current) (congrArg Ikcpcb.Settings.mtu settings)
        (congrArg Ikcpcb.Settings.mss settings)
  | flush =>
      cases called
      have settings := settings_ikcpFlush pinned.kcp.cb
      exact ready.of_settings counted.ikcpFlush (congrArg Ikcpcb.Settings.mtu settings)
        (congrArg Ikcpcb.Settings.mss settings)
  | _ =>
      cases called
      exact ready.of_settings
        ⟨counted.sndQueue, counted.sndBuf, counted.rcvQueue, counted.rcvBuf⟩ rfl rfl

/-- Every sequence of calls leaves a block that is ready. -/
theorem reach_ready {allow : Pinned → Call → Prop} {pinned : Pinned}
    (reach : kcpMachine.Reach allow pinned) : pinned.kcp.cb.Ready := by
  refine reach.invariant (fun pinned => pinned.kcp.cb.Ready) ?_ fun _ _ _ _ ready _ called =>
    Pinned.ready_call ready called
  rintro _ ⟨conv, now, rfl⟩
  exact Pinned.ready_initialized conv now

/-! ## Packets -/

namespace Pinned

variable {pinned next : Pinned} {call : Call}

/-- The scratch buffer is that of the mtu. -/
theorem buffer_call (sized : pinned.buffer = bufferSize pinned.kcp.cb.mtu)
    (called : pinned.call call = some next) : next.buffer = bufferSize next.kcp.cb.mtu := by
  cases call with
  | setMtu mtu allocated =>
      simp only [Pinned.call] at called
      split at called
      · obtain ⟨⟨result, kcp⟩, _, rfl⟩ := Option.map_eq_some_iff.1 called
        dsimp only
        split
        · rename_i same
          rw [same, sized]
        · rfl
      · cases called
        exact sized
  | setConv | setStream | setWndsize =>
      cases called
      exact sized
  | setNodelay nodelay interval resend nc =>
      cases called
      exact sized
  | send data =>
      obtain ⟨⟨result, kcp⟩, sent, rfl⟩ := Option.map_eq_some_iff.1 called
      obtain ⟨_, rfl⟩ | ⟨_, _, rfl⟩ := Kcp.send_eq sent
      · exact sized
      · obtain ⟨queue, count, equal⟩ :=
          ikcpSend_queue pinned.kcp.cb data (BitVec.ofNat 32 data.length).toInt
        rw [equal]
        exact sized
  | input packet =>
      obtain ⟨⟨result, kcp⟩, taken, rfl⟩ := Option.map_eq_some_iff.1 called
      obtain ⟨_, rfl⟩ := Kcp.input_eq taken
      have mtu := congrArg Ikcpcb.Settings.mtu (settings_ikcpInput pinned.kcp.cb packet)
      exact sized.trans (congrArg bufferSize mtu.symm)
  | recv len =>
      obtain ⟨⟨result, written, kcp⟩, received, rfl⟩ := Option.map_eq_some_iff.1 called
      obtain rfl | ⟨ispeek, rfl⟩ := Kcp.recv_eq received
      · exact sized
      · obtain ⟨probe, equal⟩ := recvMoved_eq pinned.kcp.cb ispeek
        rw [equal]
        exact sized
  | update current =>
      cases called
      have mtu := congrArg Ikcpcb.Settings.mtu (settings_ikcpUpdate pinned.kcp.cb current)
      exact sized.trans (congrArg bufferSize mtu.symm)
  | flush =>
      cases called
      have mtu := congrArg Ikcpcb.Settings.mtu (settings_ikcpFlush pinned.kcp.cb)
      exact sized.trans (congrArg bufferSize mtu.symm)

/-- What a careful call appends to the output queue. -/
theorem appended (ready : pinned.kcp.cb.Ready) (careful : pinned.Careful call)
    (called : pinned.call call = some next) : ∃ packets,
      next.kcp.outputQueue = pinned.kcp.outputQueue ++ packets ∧ ∀ packet ∈ packets,
        (ikcpOverhead ≤ packet.length ∧ packet.length ≤ pinned.kcp.cb.mtu) ∧
          pinned.kcp.cb.mtu ≤ bufferSize pinned.kcp.cb.mtu := by
  have silent (same : next.kcp.outputQueue = pinned.kcp.outputQueue) : ∃ packets,
      next.kcp.outputQueue = pinned.kcp.outputQueue ++ packets ∧ ∀ packet ∈ packets,
        (ikcpOverhead ≤ packet.length ∧ packet.length ≤ pinned.kcp.cb.mtu) ∧
          pinned.kcp.cb.mtu ≤ bufferSize pinned.kcp.cb.mtu :=
    ⟨[], by simpa using same, by simp⟩
  have header : ikcpOverhead ≤ pinned.kcp.cb.mtu := le_trans (by decide) ready.least
  cases call with
  | setMtu mtu allocated =>
      refine silent ?_
      simp only [Pinned.call] at called
      split at called
      · obtain ⟨⟨result, kcp⟩, set, rfl⟩ := Option.map_eq_some_iff.1 called
        obtain ⟨rfl, _⟩ | ⟨_, _, rfl⟩ := Kcp.setMtu_eq set <;> rfl
      · cases called
        rfl
  | send data =>
      refine silent ?_
      obtain ⟨⟨result, kcp⟩, sent, rfl⟩ := Option.map_eq_some_iff.1 called
      obtain ⟨_, rfl⟩ | ⟨_, _, rfl⟩ := Kcp.send_eq sent <;> rfl
  | input packet =>
      refine silent ?_
      obtain ⟨⟨result, kcp⟩, taken, rfl⟩ := Option.map_eq_some_iff.1 called
      obtain ⟨_, rfl⟩ := Kcp.input_eq taken
      rfl
  | recv len =>
      refine silent ?_
      obtain ⟨⟨result, written, kcp⟩, received, rfl⟩ := Option.map_eq_some_iff.1 called
      obtain rfl | ⟨_, rfl⟩ := Kcp.recv_eq received <;> rfl
  | update current =>
      cases called
      obtain ⟨⟨room, small⟩, fits⟩ := careful
      exact ⟨_, rfl, fun packet member => ⟨fits_ikcpUpdate ⟨header, small⟩ fits member, room⟩⟩
  | flush =>
      cases called
      obtain ⟨⟨room, small⟩, fits⟩ := careful
      exact ⟨_, rfl, fun packet member => ⟨fits_ikcpFlush ⟨header, small⟩ fits member, room⟩⟩
  | _ =>
      cases called
      exact silent rfl

end Pinned

theorem reach_buffer {allow : Pinned → Call → Prop} {pinned : Pinned}
    (reach : kcpMachine.Reach allow pinned) : pinned.buffer = bufferSize pinned.kcp.cb.mtu := by
  refine reach.invariant (fun pinned => pinned.buffer = bufferSize pinned.kcp.cb.mtu) ?_
    fun _ _ _ _ sized _ called => Pinned.buffer_call sized called
  rintro _ ⟨conv, now, rfl⟩
  have mtu := congrArg Ikcpcb.Settings.mtu (settings_ikcpUpdate (ikcpCreate conv) now)
  exact congrArg bufferSize mtu.symm

/-- Packets fit the scratch buffer. In every run of careful calls, what a call appends to the
output queue has the length of a header at least and of the mtu in force at most, and a
flush writes no further than its buffer. -/
theorem packets_fit {pinned next : Pinned} {call : Call}
    (reach : kcpMachine.Reach Pinned.Careful pinned) (careful : pinned.Careful call)
    (called : pinned.call call = some next) : ∃ packets,
      next.kcp.outputQueue = pinned.kcp.outputQueue ++ packets ∧ ∀ packet ∈ packets,
        ikcpOverhead ≤ packet.length ∧ packet.length ≤ pinned.kcp.cb.mtu ∧
          packet.length ≤ pinned.buffer := by
  obtain ⟨packets, appended, bounds⟩ := Pinned.appended (reach_ready reach) careful called
  refine ⟨packets, appended, fun packet member => ?_⟩
  obtain ⟨⟨least, most⟩, room⟩ := bounds packet member
  rw [reach_buffer reach]
  exact ⟨least, most, most.trans room⟩

/-- Frames that are cut under two mtus and flushed under a third, for which none is too long. -/
theorem packets_fit_frame : ∃ pinned next : Pinned, kcpMachine.Reach Pinned.Careful pinned ∧
    pinned.call .flush = some next ∧ next.kcp.outputQueue.map List.length = [374, 28] ∧ ∃ packets,
      next.kcp.outputQueue = pinned.kcp.outputQueue ++ packets ∧ ∀ packet ∈ packets,
        ikcpOverhead ≤ packet.length ∧ packet.length ≤ pinned.kcp.cb.mtu ∧
          packet.length ≤ pinned.buffer := by
  have run : (kcpMachine.exec (fun pinned call => decide (pinned.Careful call)) (.initialized 1 0)
      [.setNodelay true 10 2 true, .send (List.replicate 300 0), .setMtu 50 true,
        .send (List.replicate 30 0), .setMtu 400 true]).map (fun pinned =>
        (decide (pinned.Careful .flush), (pinned.call .flush).map fun next =>
          next.kcp.outputQueue.map List.length)) = some (true, some [374, 28]) := by decide +kernel
  obtain ⟨pinned, executed, measured⟩ := Option.map_eq_some_iff.1 run
  obtain ⟨careful, flushed⟩ := Prod.mk.inj measured
  obtain ⟨next, called, lengths⟩ := Option.map_eq_some_iff.1 flushed
  have reach : kcpMachine.Reach Pinned.Careful pinned :=
    Machine.reach_of_exec (fun _ _ holds => of_decide_eq_true holds) (.initial ⟨1, 0, rfl⟩) executed
  exact ⟨pinned, next, reach, called, lengths, packets_fit reach (of_decide_eq_true careful) called⟩

/-- A frame that waits when the mtu is lowered is flushed past the end of the new buffer. -/
theorem packets_overflow : ¬ ∀ (pinned next : Pinned) (call : Call), kcpMachine.Reachable pinned →
    pinned.call call = some next → ∃ packets,
      next.kcp.outputQueue = pinned.kcp.outputQueue ++ packets ∧ ∀ packet ∈ packets,
        ikcpOverhead ≤ packet.length ∧ packet.length ≤ pinned.kcp.cb.mtu ∧
          packet.length ≤ pinned.buffer := by
  intro fit
  have run : (kcpMachine.exec (fun _ _ => true) (.initialized 1 0)
      [.send (List.replicate 300 0), .setMtu 50 true]).map (fun pinned =>
        (pinned.buffer, pinned.kcp.outputQueue, (pinned.call .flush).map fun next =>
          next.kcp.outputQueue.map List.length)) = some (222, [], some [324]) := by decide +kernel
  obtain ⟨pinned, executed, measured⟩ := Option.map_eq_some_iff.1 run
  obtain ⟨buffer, measured⟩ := Prod.mk.inj measured
  obtain ⟨empty, flushed⟩ := Prod.mk.inj measured
  obtain ⟨next, called, lengths⟩ := Option.map_eq_some_iff.1 flushed
  have reach : kcpMachine.Reachable pinned :=
    Machine.reach_of_exec (fun _ _ _ => trivial) (.initial ⟨1, 0, rfl⟩) executed
  obtain ⟨packets, appended, bounds⟩ := fit pinned next .flush reach called
  rw [empty, List.nil_append] at appended
  rw [appended] at lengths
  obtain ⟨packet, rfl⟩ : ∃ packet, packets = [packet] := by
    cases packets with
    | nil => cases lengths
    | cons packet rest =>
        rw [List.map_cons, List.cons.injEq, List.map_eq_nil_iff] at lengths
        exact ⟨packet, by rw [lengths.2]⟩
  have long : packet.length = 324 := List.cons.inj lengths |>.1
  obtain ⟨_, _, room⟩ := bounds packet List.mem_cons_self
  rw [long, buffer] at room
  exact absurd room (by decide)

end KcpRs
