import KcpRs.Engine.Stable
import KcpRs.Lib.Transducer

/-!
# Runs of the engine

`engine` answers the calls of a session in any order and with any arguments. A session starts with
`engineStart`, before its first `ikcp_update`.
-/

namespace KcpRs

open Lib

/-- A call of the engine. -/
inductive EngineCall where
  | send (data : Bytes) (len : Int)
  | input (packet : Bytes)
  | recv (len : Int)
  | update (current : U32)
  | flush
  | check (current : U32)
  | nodelay (delay interval resend nc : Int)
  | wndsize (sndwnd rcvwnd : Int)

/-- What a call gives back: its result, the bytes that it has written, the packets that it has given
to the output callback and a time. -/
structure Answer where
  result : Int := 0
  data : Bytes := []
  packets : List Bytes := []
  time : Option U32 := none

def EngineCall.run (kcp : Ikcpcb) : EngineCall → Ikcpcb × Answer
  | .send data len => ((ikcpSend kcp data len).2, { result := (ikcpSend kcp data len).1 })
  | .input packet => ((ikcpInput kcp packet).2, { result := (ikcpInput kcp packet).1 })
  | .recv len =>
      ((ikcpRecv kcp len).2.2, { result := (ikcpRecv kcp len).1, data := (ikcpRecv kcp len).2.1 })
  | .update current => ((ikcpUpdate kcp current).1, { packets := (ikcpUpdate kcp current).2 })
  | .flush => ((ikcpFlush kcp).1, { packets := (ikcpFlush kcp).2 })
  | .check current => (kcp, { time := some (ikcpCheck kcp current) })
  | .nodelay delay interval resend nc => (ikcpNodelay kcp delay interval resend nc, {})
  | .wndsize sndwnd rcvwnd => (ikcpWndsize kcp sndwnd rcvwnd, {})

/-- The engine. -/
def engine : Transducer Ikcpcb EngineCall Answer := ⟨EngineCall.run⟩

/-- A block after `ikcp_create` and `ikcp_setmtu`. -/
def engineStart (conv : U32) (mtu : Int) : Ikcpcb := (ikcpSetmtu (ikcpCreate conv) mtu).2

variable {kcp : Ikcpcb}

/-- `ikcp_recv` moves segments up and takes some of them, or it changes nothing. -/
theorem ikcpRecv_moved (kcp : Ikcpcb) (len : Int) :
    (ikcpRecv kcp len).2.2 = kcp ∨ (ikcpRecv kcp len).2.2 = recvMoved kcp (len < 0) := by
  rcases ikcpRecv_cases kcp len with same | ⟨_, _, moved⟩
  · exact .inl (congrArg Prod.snd same)
  · exact .inr (congrArg Prod.snd moved)

theorem Ikcpcb.Sound.run (sound : kcp.Sound) (call : EngineCall) :
    (engine.respond kcp call).1.Sound := by
  cases call with
  | send data len => exact engineStable_sound.send kcp data len sound
  | input packet => exact engineStable_sound.input kcp packet sound
  | recv len =>
      simp only [engine, EngineCall.run]
      rcases ikcpRecv_moved kcp len with same | moved
      · rw [same]
        exact sound
      · obtain ⟨probe, equal⟩ := recvMoved_eq kcp (len < 0)
        rw [moved, equal]
        exact ⟨sound.push, sound.sized⟩
  | update current => exact engineStable_sound.update kcp current sound
  | flush => exact sound.ikcpFlush
  | check current => exact sound
  | nodelay => exact ⟨sound.push, sound.sized⟩
  | wndsize => exact ⟨sound.push, sound.sized⟩

/-! ## The probe timer -/

/-- Input leaves the probe timer alone. -/
theorem probe_ikcpInput (kcp : Ikcpcb) (data : Bytes) :
    (ikcpInput kcp data).2.probeWait = kcp.probeWait ∧ (ikcpInput kcp data).2.tsProbe = kcp.tsProbe := by
  refine @InputStable.ikcpInput
    (fun block => block.probeWait = kcp.probeWait ∧ block.tsProbe = kcp.tsProbe) kcp data ?_ ⟨rfl, rfl⟩
  constructor
  case push =>
    intro segment _ _ block holds
    obtain ⟨acklist, equal⟩ := inputPush_eq block segment.1 segment.2
    rw [equal]
    exact holds
  case shrink =>
    intro block holds
    unfold ikcpShrinkBuf
    split <;> exact holds
  case ack =>
    intro segment _ _ block holds
    unfold ikcpParseAck
    split <;> exact holds
  case fastack =>
    intro block sn holds
    unfold ikcpParseFastack
    split <;> exact holds
  all_goals
    intros
    assumption

/-- The congestion update leaves the probe timer alone. -/
theorem probe_flushCwnd (kcp : Ikcpcb) (cwnd change : Nat) (lost : Bool) :
    (flushCwnd kcp cwnd change lost).probeWait = kcp.probeWait ∧
      (flushCwnd kcp cwnd change lost).tsProbe = kcp.tsProbe := by
  unfold flushCwnd
  dsimp only
  split_ifs <;> exact ⟨rfl, rfl⟩

/-- Moving data into the window leaves the probe timer alone. -/
theorem probe_flushMoved (kcp : Ikcpcb) :
    (flushMoved kcp).probeWait = (flushProbed kcp).probeWait ∧
      (flushMoved kcp).tsProbe = (flushProbed kcp).tsProbe :=
  flushMove_induct (fun block => block.probeWait = (flushProbed kcp).probeWait ∧
    block.tsProbe = (flushProbed kcp).tsProbe) (fun _ _ _ _ holds => holds) _ _ ⟨rfl, rfl⟩

end KcpRs
