import KcpRs.Wire.Segment

/-!
# The KCP control block

`Ikcpcb` is `struct IKCPCB` of `ikcp.h` without what no modelled function reads: the
callbacks, the log mask, the scratch buffer, the two unused timestamps and the block
size of the ack array.

Two representation choices run through the engine. The sequence counters `sndNxt`
and `rcvNxt` count segments without bound; C holds their residues modulo `2 ^ 32`,
and every use goes through `sndNxt32` and `rcvNxt32`. Queue counters are natural
numbers kept beside the queues, as C keeps them, so that their agreement with the
queues is something to prove (`Counted`).
-/

namespace KcpRs

open Lib

/-- `IKCP_WND_RCV`, which also bounds the number of fragments of a message. -/
def ikcpWndRcv : Nat := 256

/-- `IKCP_WND_SND`. -/
def ikcpWndSnd : Nat := 32

/-- `IKCP_MTU_DEF`. -/
def ikcpMtuDef : Nat := 1400

/-- `IKCP_RTO_NDL`: minimal retransmission timeout without delay. -/
def ikcpRtoNdl : U32 := 30

/-- `IKCP_RTO_MIN`: normal minimal retransmission timeout. -/
def ikcpRtoMin : U32 := 100

/-- `IKCP_RTO_DEF`. -/
def ikcpRtoDef : U32 := 200

/-- `IKCP_RTO_MAX`. -/
def ikcpRtoMax : U32 := 60000

/-- `IKCP_ASK_SEND`: need to send `IKCP_CMD_WASK`. -/
def ikcpAskSend : U32 := 1

/-- `IKCP_ASK_TELL`: need to send `IKCP_CMD_WINS`. -/
def ikcpAskTell : U32 := 2

/-- `IKCP_INTERVAL`. -/
def ikcpInterval : U32 := 100

/-- `IKCP_DEADLINK`, the value of `dead_link`. -/
def ikcpDeadlink : U32 := 20

/-- `IKCP_THRESH_INIT`. -/
def ikcpThreshInit : U32 := 2

/-- `IKCP_THRESH_MIN`. -/
def ikcpThreshMin : U32 := 2

/-- `IKCP_PROBE_INIT`: 7 seconds to probe the window size. -/
def ikcpProbeInit : U32 := 7000

/-- `IKCP_PROBE_LIMIT`: up to 120 seconds to probe the window size. -/
def ikcpProbeLimit : U32 := 120000

/-- `IKCP_FASTACK_LIMIT`, the value of `fastlimit`. -/
def ikcpFastackLimit : Int := 5

/-- `_imin_`. -/
def imin (a b : U32) : U32 := if a ≤ b then a else b

/-- `_imax_`. -/
def imax (a b : U32) : U32 := if b ≤ a then a else b

/-- `_ibound_`. -/
def ibound (lower middle upper : U32) : U32 := imin (imax lower middle) upper

/-- `_itimediff`. -/
def itimediff (later earlier : U32) : Int := serialDiff later earlier

@[simp] theorem itimediff_self (time : U32) : itimediff time time = 0 := serialDiff_self time

/-- `struct IKCPCB`. -/
structure Ikcpcb where
  conv : U32
  mtu : Nat
  mss : Nat
  state : U32
  sndUna : U32
  sndNxt : Nat
  rcvNxt : Nat
  ssthresh : U32
  rxRttval : Int
  rxSrtt : Int
  rxRto : U32
  rxMinrto : U32
  sndWnd : Nat
  rcvWnd : Nat
  rmtWnd : Nat
  cwnd : U32
  probe : U32
  current : U32
  interval : U32
  tsFlush : U32
  xmit : U32
  nrcvBuf : Nat
  nsndBuf : Nat
  nrcvQue : Nat
  nsndQue : Nat
  nodelay : Int
  updated : Bool
  tsProbe : U32
  probeWait : U32
  incr : U32
  sndQueue : List Seg
  rcvQueue : List Seg
  sndBuf : List Seg
  rcvBuf : List Seg
  acklist : List (U32 × U32)
  fastresend : Int
  nocwnd : Int
  stream : Bool
deriving DecidableEq

/-- `ikcp_create`. -/
def ikcpCreate (conv : U32) : Ikcpcb where
  conv := conv
  mtu := ikcpMtuDef
  mss := ikcpMtuDef - ikcpOverhead
  state := 0
  sndUna := 0
  sndNxt := 0
  rcvNxt := 0
  ssthresh := ikcpThreshInit
  rxRttval := 0
  rxSrtt := 0
  rxRto := ikcpRtoDef
  rxMinrto := ikcpRtoMin
  sndWnd := ikcpWndSnd
  rcvWnd := ikcpWndRcv
  rmtWnd := ikcpWndRcv
  cwnd := 0
  probe := 0
  current := 0
  interval := ikcpInterval
  tsFlush := ikcpInterval
  xmit := 0
  nrcvBuf := 0
  nsndBuf := 0
  nrcvQue := 0
  nsndQue := 0
  nodelay := 0
  updated := false
  tsProbe := 0
  probeWait := 0
  incr := 0
  sndQueue := []
  rcvQueue := []
  sndBuf := []
  rcvBuf := []
  acklist := []
  fastresend := 0
  nocwnd := 0
  stream := false

namespace Ikcpcb

/-- `snd_nxt` as C holds it. -/
def sndNxt32 (kcp : Ikcpcb) : U32 := BitVec.ofNat 32 kcp.sndNxt

/-- `rcv_nxt` as C holds it. -/
def rcvNxt32 (kcp : Ikcpcb) : U32 := BitVec.ofNat 32 kcp.rcvNxt

/-- What only the setters change. -/
structure Settings where
  mtu : Nat
  mss : Nat
  sndWnd : Nat
  rcvWnd : Nat
  interval : U32
  rxMinrto : U32
  nodelay : Int
  fastresend : Int
  nocwnd : Int
  stream : Bool

/-- The settings of a block. -/
def settings (kcp : Ikcpcb) : Settings where
  mtu := kcp.mtu
  mss := kcp.mss
  sndWnd := kcp.sndWnd
  rcvWnd := kcp.rcvWnd
  interval := kcp.interval
  rxMinrto := kcp.rxMinrto
  nodelay := kcp.nodelay
  fastresend := kcp.fastresend
  nocwnd := kcp.nocwnd
  stream := kcp.stream

/-- The send side: what is queued, what is in flight and the next number. -/
structure Sender where
  sndQueue : List Seg
  nsndQue : Nat
  sndBuf : List Seg
  nsndBuf : Nat
  sndNxt : Nat

/-- The send side of a block. -/
def sender (kcp : Ikcpcb) : Sender where
  sndQueue := kcp.sndQueue
  nsndQue := kcp.nsndQue
  sndBuf := kcp.sndBuf
  nsndBuf := kcp.nsndBuf
  sndNxt := kcp.sndNxt

/-- The receive side: in-order segments, segments ahead of them and the next number. -/
structure Receiver where
  rcvQueue : List Seg
  nrcvQue : Nat
  rcvBuf : List Seg
  nrcvBuf : Nat
  rcvNxt : Nat

/-- The receive side of a block. -/
def receiver (kcp : Ikcpcb) : Receiver where
  rcvQueue := kcp.rcvQueue
  nrcvQue := kcp.nrcvQue
  rcvBuf := kcp.rcvBuf
  nrcvBuf := kcp.nrcvBuf
  rcvNxt := kcp.rcvNxt

/-- What has been queued and not acknowledged, in sending order. -/
def pending (kcp : Ikcpcb) : List Payload := (kcp.sndBuf ++ kcp.sndQueue).map Seg.payload

/-- The four queue counters agree with the queues. -/
structure Counted (kcp : Ikcpcb) : Prop where
  sndQueue : kcp.nsndQue = kcp.sndQueue.length
  sndBuf : kcp.nsndBuf = kcp.sndBuf.length
  rcvQueue : kcp.nrcvQue = kcp.rcvQueue.length
  rcvBuf : kcp.nrcvBuf = kcp.rcvBuf.length

end Ikcpcb

/-- `ikcp_waitsnd`. -/
def ikcpWaitsnd (kcp : Ikcpcb) : Nat := kcp.nsndBuf + kcp.nsndQue

/-- `ikcp_waitsnd` counts what is not acknowledged. -/
theorem Ikcpcb.Counted.waitsnd {kcp : Ikcpcb} (counted : kcp.Counted) :
    ikcpWaitsnd kcp = kcp.pending.length := by
  rw [ikcpWaitsnd, counted.sndQueue, counted.sndBuf, Ikcpcb.pending, List.length_map,
    List.length_append]

/-- `ikcp_wnd_unused`. -/
def ikcpWndUnused (kcp : Ikcpcb) : Nat :=
  if kcp.nrcvQue < kcp.rcvWnd then kcp.rcvWnd - kcp.nrcvQue else 0

/-- `ikcp_setmtu`, with an allocation that succeeds. -/
def ikcpSetmtu (kcp : Ikcpcb) (mtu : Int) : Int × Ikcpcb :=
  if mtu < 50 ∨ mtu < ikcpOverhead then (-1, kcp)
  else (0, { kcp with mtu := mtu.toNat, mss := mtu.toNat - ikcpOverhead })

/-- The range that `ikcp_nodelay` forces an interval into. -/
def clampInterval (interval : Int) : Int :=
  if 5000 < interval then 5000 else if interval < 10 then 10 else interval

/-- `ikcp_nodelay`. -/
def ikcpNodelay (kcp : Ikcpcb) (nodelay interval resend nc : Int) : Ikcpcb :=
  { kcp with
    nodelay := if 0 ≤ nodelay then nodelay else kcp.nodelay
    rxMinrto :=
      if 0 ≤ nodelay then if nodelay ≠ 0 then ikcpRtoNdl else ikcpRtoMin else kcp.rxMinrto
    interval := if 0 ≤ interval then BitVec.ofInt 32 (clampInterval interval) else kcp.interval
    fastresend := if 0 ≤ resend then resend else kcp.fastresend
    nocwnd := if 0 ≤ nc then nc else kcp.nocwnd }

/-- `ikcp_wndsize`. -/
def ikcpWndsize (kcp : Ikcpcb) (sndwnd rcvwnd : Int) : Ikcpcb :=
  { kcp with
    sndWnd := if 0 < sndwnd then sndwnd.toNat else kcp.sndWnd
    rcvWnd := if 0 < rcvwnd then max rcvwnd.toNat ikcpWndRcv else kcp.rcvWnd }

/-- The timer fields that the retransmission logic relies on. -/
structure Ikcpcb.Timed (kcp : Ikcpcb) : Prop where
  updated : kcp.updated = true
  interval : 10 ≤ kcp.interval.toNat ∧ kcp.interval.toNat ≤ 5000
  rxMinrto : 30 ≤ kcp.rxMinrto.toNat ∧ kcp.rxMinrto.toNat ≤ 100
  rxRto : 30 ≤ kcp.rxRto.toNat ∧ kcp.rxRto.toNat ≤ 60000

/-- The interval is between 10 ms and 5 s. -/
theorem toNat_clampInterval (interval : Int) :
    10 ≤ (BitVec.ofInt 32 (clampInterval interval)).toNat ∧
      (BitVec.ofInt 32 (clampInterval interval)).toNat ≤ 5000 := by
  unfold clampInterval
  rw [BitVec.toNat_ofInt]
  split
  · decide
  · split
    · decide
    · omega

/-- `ikcp_nodelay` keeps the timers in range. -/
theorem Ikcpcb.Timed.ikcpNodelay {kcp : Ikcpcb} (timed : kcp.Timed)
    (nodelay interval resend nc : Int) : (ikcpNodelay kcp nodelay interval resend nc).Timed where
  updated := timed.updated
  interval := by
    simp only [KcpRs.ikcpNodelay]
    split
    · exact toNat_clampInterval interval
    · exact timed.interval
  rxMinrto := by
    simp only [KcpRs.ikcpNodelay]
    split
    · split <;> decide
    · exact timed.rxMinrto
  rxRto := timed.rxRto

theorem Ikcpcb.Counted.ikcpNodelay {kcp : Ikcpcb} (counted : kcp.Counted)
    (nodelay interval resend nc : Int) : (ikcpNodelay kcp nodelay interval resend nc).Counted :=
  ⟨counted.sndQueue, counted.sndBuf, counted.rcvQueue, counted.rcvBuf⟩

end KcpRs
