import KcpRs.Engine.Send
import KcpRs.Engine.Input
import KcpRs.Engine.Flush

/-!
# The safe wrapper: `protocol.rs`

`Kcp` is the control block with the queue that the output callback fills. Results of
the C functions are turned into `io::Result` as the crate does it. A call that does not return
has the outcome `none`: it meets an arm marked `unreachable!()`, an overflow that is checked, or
the end of the buffer that the C code writes to.
-/

namespace KcpRs

open Lib

/-- The `io::ErrorKind`s the crate produces. -/
inductive ErrorKind where
  | notFound
  | invalidData
  | invalidInput
  | outOfMemory
  | notConnected
deriving DecidableEq

/-- `Kcp`: the control block and the packets waiting for the transport. -/
structure Kcp where
  cb : Ikcpcb
  outputQueue : List Bytes := []
deriving DecidableEq

namespace Kcp

/-- `Kcp::SYN_CONV`: the conv used for the SYN handshake. -/
def synConv : U32 := 0xFFFFFFFE

/-- `Kcp::is_valid_conv`. -/
def isValidConv (conv : U32) : Bool := conv ≠ 0 && conv < synConv

/-- `Kcp::max_frame_size`, in `u32` arithmetic. -/
def maxFrameSize (mtu : U32) : U32 := (mtu - 24) * 255

/-- `Kcp::new`. -/
def new (conv : U32) : Kcp := { cb := ikcpCreate conv }

/-- A C function that may call the output callback. -/
def emit (kcp : Kcp) (result : Ikcpcb × List Bytes) : Kcp :=
  { cb := result.1, outputQueue := kcp.outputQueue ++ result.2 }

/-- `Kcp::update`. -/
def update (kcp : Kcp) (current : U32) : Kcp := kcp.emit (ikcpUpdate kcp.cb current)

/-- `Kcp::flush`. -/
def flush (kcp : Kcp) : Kcp := kcp.emit (ikcpFlush kcp.cb)

/-- `Kcp::check`. -/
def check (kcp : Kcp) (current : U32) : U32 := ikcpCheck kcp.cb current

/-- `Kcp::peek_size`. -/
def peekSize (kcp : Kcp) : Nat := (ikcpPeeksize kcp.cb).toNat

/-- The result of `Kcp::peek` and `Kcp::recv` for a return value of `ikcp_recv`. -/
def recvResult (code : Int) : Option (Except ErrorKind Nat) :=
  if 0 ≤ code then some (.ok code.toNat)
  else if code = -1 ∨ code = -2 then some (.ok 0)
  else if code = -3 then some (.error .invalidInput)
  else none

/-- `Kcp::peek` into a buffer of `len` bytes: the result, the bytes written and the state. The
length becomes a C integer before it is negated, which panics for the smallest of them. The C
code does not look at `len` while it copies, so it may write past the end of the buffer; there
is no result then. -/
def peek (kcp : Kcp) (len : Nat) : Option (Except ErrorKind Nat × Bytes × Kcp) :=
  if BitVec.ofNat 32 len = BitVec.intMin 32 then none
  else
    let (code, written, cb) := ikcpRecv kcp.cb (-BitVec.ofNat 32 len).toInt
    if len < written.length then none
    else (recvResult code).map fun result => (result, written, { kcp with cb })

/-- `Kcp::recv` into a buffer of `len` bytes: the result, the bytes written and the state.
There is no result when the C code writes past the end of the buffer. -/
def recv (kcp : Kcp) (len : Nat) : Option (Except ErrorKind Nat × Bytes × Kcp) :=
  let (code, written, cb) := ikcpRecv kcp.cb (BitVec.ofNat 32 len).toInt
  if len < written.length then none
  else (recvResult code).map fun result => (result, written, { kcp with cb })

/-- `Kcp::recv_bytes`. The frame is what `recv` wrote into the buffer. -/
def recvBytes (kcp : Kcp) : Option (Option Bytes × Kcp) :=
  let size := kcp.peekSize
  if 0 < size then (kcp.recv size).map fun (_, written, kcp) => (some written, kcp)
  else some (none, kcp)

/-- The result of `Kcp::send` for a return value of `ikcp_send`. -/
def sendResult (code : Int) : Option (Except ErrorKind Nat) :=
  if 0 ≤ code then some (.ok code.toNat)
  else if code = -1 ∨ code = -2 then some (.error .invalidInput)
  else none

/-- `Kcp::send`. -/
def send (kcp : Kcp) (data : Bytes) : Option (Except ErrorKind Nat × Kcp) :=
  if data = [] then some (.ok 0, kcp)
  else
    let (code, cb) := ikcpSend kcp.cb data (BitVec.ofNat 32 data.length).toInt
    (sendResult code).map fun result => (result, { kcp with cb })

/-- The result of `Kcp::input` for a return value of `ikcp_input`. -/
def inputResult (code : Int) : Option (Except ErrorKind Unit) :=
  if code = 0 then some (.ok ())
  else if code = -1 then some (.error .notFound)
  else if code = -2 ∨ code = -3 then some (.error .invalidData)
  else none

/-- `Kcp::input`. -/
def input (kcp : Kcp) (packet : Bytes) : Option (Except ErrorKind Unit × Kcp) :=
  let (code, cb) := ikcpInput kcp.cb packet
  (inputResult code).map fun result => (result, { kcp with cb })

/-- `Kcp::set_mtu`; the unsuccessful results do not change the block. -/
def setMtu (kcp : Kcp) (mtu : U32) : Option (Except ErrorKind Unit × Kcp) :=
  if kcp.cb.mtu = mtu.toNat then some (.ok (), kcp)
  else
    let (code, cb) := ikcpSetmtu kcp.cb mtu.toInt
    let result :=
      if code = 0 then some (.ok ())
      else if code = -1 then some (.error ErrorKind.invalidInput)
      else if code = -2 then some (.error .outOfMemory)
      else none
    result.map fun result => (result, { kcp with cb })

/-- `Kcp::set_nodelay`. -/
def setNodelay (kcp : Kcp) (nodelay : Bool) (interval resend : U32) (nc : Bool) : Kcp :=
  { kcp with cb := ikcpNodelay kcp.cb nodelay.toInt interval.toInt resend.toInt nc.toInt }

/-- `Kcp::set_wndsize`. -/
def setWndsize (kcp : Kcp) (sndwnd rcvwnd : U32) : Kcp :=
  { kcp with cb := ikcpWndsize kcp.cb sndwnd.toInt rcvwnd.toInt }

/-- `Kcp::set_conv`. -/
def setConv (kcp : Kcp) (conv : U32) : Kcp := { kcp with cb := { kcp.cb with conv } }

/-- `Kcp::set_stream`. -/
def setStream (kcp : Kcp) (stream : Bool) : Kcp := { kcp with cb := { kcp.cb with stream } }

/-- `Kcp::get_waitsnd`. -/
def getWaitsnd (kcp : Kcp) : Nat := ikcpWaitsnd kcp.cb

/-- `Kcp::duration_since`. -/
def durationSince (kcp : Kcp) (since : U32) : U32 :=
  BitVec.ofInt 32 (max (kcp.cb.current - since).toInt 0)

/-- `Kcp::is_dead_link`. -/
def isDeadLink (kcp : Kcp) : Bool := kcp.cb.state = 0xffffffff

/-- `Kcp::is_send_queue_full`. -/
def isSendQueueFull (kcp : Kcp) : Bool := kcp.cb.sndWnd ≤ kcp.cb.nsndQue

/-- `Kcp::write_ack_head` at system time `now`. -/
def writeAckHead (kcp : Kcp) (cmdFlags : Byte) (payloadSize : Nat) (now : U32) : Bytes :=
  encode32u kcp.cb.conv ++ encode8u (ikcpCmdAck ||| cmdFlags) ++ encode8u 0 ++
    encode16u (BitVec.ofNat 16 kcp.cb.rcvWnd) ++ encode32u now ++ encode32u kcp.cb.sndNxt32 ++
    encode32u kcp.cb.rcvNxt32 ++ encode32u 0 ++ encode32u (BitVec.ofNat 32 payloadSize)

/-! ## What the wrapper adds to the engine -/

variable {kcp kcp' : Kcp}

theorem input_eq {packet : Bytes} {result : Except ErrorKind Unit}
    (taken : kcp.input packet = some (result, kcp')) :
    inputResult (ikcpInput kcp.cb packet).1 = some result ∧
      kcp' = { kcp with cb := (ikcpInput kcp.cb packet).2 } := by
  unfold input at taken
  obtain ⟨outcome, code, equal⟩ := Option.map_eq_some_iff.1 taken
  cases equal
  exact ⟨code, rfl⟩

theorem setConv_self {conv : U32} (same : kcp.cb.conv = conv) : kcp.setConv conv = kcp := by
  subst same
  rfl

theorem conv_of_input {packet : Bytes} {result : Except ErrorKind Unit}
    (taken : kcp.input packet = some (result, kcp')) : kcp'.cb.conv = kcp.cb.conv := by
  obtain ⟨_, rfl⟩ := input_eq taken
  exact conv_ikcpInput kcp.cb packet

/-- `Kcp::input` never reaches its `unreachable!()`. -/
theorem input_isSome (kcp : Kcp) (packet : Bytes) : (kcp.input packet).isSome := by
  unfold input
  dsimp only
  rw [Option.isSome_map]
  obtain code | code | code | code := ikcpInput_code kcp.cb packet <;> rw [code] <;> rfl

/-- The codes of `ikcp_recv` are those that `Kcp::peek` and `Kcp::recv` know. -/
theorem recvResult_isSome (kcp : Kcp) (len : Int) : (recvResult (ikcpRecv kcp.cb len).1).isSome := by
  unfold recvResult
  obtain code | code | code | code := ikcpRecv_code kcp.cb len
  · rw [if_pos code]
    rfl
  all_goals
    rw [code]
    rfl

/-- `Kcp::recv` fails and changes nothing, or takes the first message. -/
theorem recv_eq {len : Nat} {result : Except ErrorKind Nat} {written : Bytes}
    (received : kcp.recv len = some (result, written, kcp')) :
    kcp' = kcp ∨ ∃ ispeek, kcp' = { kcp with cb := recvMoved kcp.cb ispeek } := by
  have cases := ikcpRecv_cases kcp.cb (BitVec.ofNat 32 len).toInt
  unfold recv at received
  rcases outcome : ikcpRecv kcp.cb (BitVec.ofNat 32 len).toInt with ⟨code, bytes, block⟩
  rw [outcome] at cases received
  dsimp only at received
  split at received
  · cases received
  · obtain ⟨_, _, equal⟩ := Option.map_eq_some_iff.1 received
    cases equal
    obtain moved | ⟨_, _, moved⟩ := cases
    · cases moved
      exact .inl rfl
    · cases moved
      exact .inr ⟨_, rfl⟩

/-- `Kcp::send` never reaches its `unreachable!()`. -/
theorem send_isSome (kcp : Kcp) (data : Bytes) : (kcp.send data).isSome := by
  unfold send
  split
  · rfl
  · dsimp only
    rw [Option.isSome_map]
    obtain code | code | code := ikcpSend_code kcp.cb data (BitVec.ofNat 32 data.length).toInt <;>
      rw [code] <;> rfl

/-- The errors of `Kcp::input`: `NotFound`, or `InvalidData` for at least one header. -/
theorem input_error {packet : Bytes} {error : ErrorKind}
    (refused : kcp.input packet = some (.error error, kcp')) :
    error = .notFound ∨ error = .invalidData ∧ ikcpOverhead ≤ packet.length := by
  obtain ⟨result, _⟩ := input_eq refused
  by_cases short : (BitVec.ofNat 32 packet.length).toInt < ikcpOverhead
  · rw [ikcpInput, if_pos short] at result
    exact .inl (by simpa [inputResult] using result.symm)
  · have length : ikcpOverhead ≤ packet.length := by
      have positive : ikcpOverhead ≤ (BitVec.ofNat 32 packet.length).toNat := by
        have value := BitVec.toInt_eq_toNat_cond (BitVec.ofNat 32 packet.length)
        split at value <;> omega
      rw [BitVec.toNat_ofNat] at positive
      exact positive.trans (Nat.mod_le _ _)
    obtain code | code | code | code := ikcpInput_code kcp.cb packet <;> rw [code] at result <;>
      simp [inputResult] at result <;> simp [← result, length]

theorem send_eq {data : Bytes} {result : Except ErrorKind Nat}
    (sent : kcp.send data = some (result, kcp')) :
    (data = [] ∧ kcp' = kcp) ∨ (data ≠ [] ∧
      sendResult (ikcpSend kcp.cb data (BitVec.ofNat 32 data.length).toInt).1 = some result ∧
      kcp' = { kcp with
        cb := (ikcpSend kcp.cb data (BitVec.ofNat 32 data.length).toInt).2 }) := by
  unfold send at sent
  split at sent
  · rename_i empty
    cases sent
    exact .inl ⟨empty, rfl⟩
  · rename_i nonempty
    obtain ⟨outcome, code, equal⟩ := Option.map_eq_some_iff.1 sent
    cases equal
    exact .inr ⟨nonempty, code, rfl⟩

theorem receiver_of_send {data : Bytes} {result : Except ErrorKind Nat}
    (sent : kcp.send data = some (result, kcp')) : kcp'.cb.receiver = kcp.cb.receiver := by
  obtain ⟨_, rfl⟩ | ⟨_, _, rfl⟩ := send_eq sent
  · rfl
  · obtain ⟨queue, count, equal⟩ := ikcpSend_queue kcp.cb data (BitVec.ofNat 32 data.length).toInt
    rw [equal]
    rfl

theorem conv_of_send {data : Bytes} {result : Except ErrorKind Nat}
    (sent : kcp.send data = some (result, kcp')) : kcp'.cb.conv = kcp.cb.conv := by
  obtain ⟨_, rfl⟩ | ⟨_, _, rfl⟩ := send_eq sent
  · rfl
  · obtain ⟨queue, count, equal⟩ := ikcpSend_queue kcp.cb data (BitVec.ofNat 32 data.length).toInt
    rw [equal]

/-- `Kcp::set_mtu` changes nothing, or sets the sizes it is asked for. -/
theorem setMtu_eq {mtu : U32} {result : Except ErrorKind Unit}
    (set : kcp.setMtu mtu = some (result, kcp')) :
    kcp' = kcp ∧ (result = .ok () → kcp.cb.mtu = mtu.toNat) ∨
      50 ≤ mtu.toNat ∧ mtu.toNat < 2 ^ 31 ∧
        kcp' = { kcp with
          cb := { kcp.cb with mtu := mtu.toNat, mss := mtu.toNat - ikcpOverhead } } := by
  unfold setMtu at set
  split at set
  · rename_i same
    cases set
    exact .inl ⟨rfl, fun _ => same⟩
  · unfold ikcpSetmtu at set
    have bound := mtu.isLt
    have value := BitVec.toInt_eq_toNat_cond mtu
    by_cases small : mtu.toInt < 50 ∨ mtu.toInt < ikcpOverhead
    · rw [if_pos small] at set
      simp only [Int.reduceNeg, Int.reduceEq, if_false, if_true, Option.map_some,
        Option.some.injEq, Prod.mk.injEq] at set
      obtain ⟨rfl, rfl⟩ := set
      exact .inl ⟨rfl, nofun⟩
    · rw [if_neg small] at set
      simp only [if_true, Option.map_some, Option.some.injEq, Prod.mk.injEq] at set
      rw [not_or] at small
      have nonnegative : mtu.toInt = mtu.toNat := by
        split at value <;> omega
      refine .inr ⟨by omega, by split at value <;> omega, ?_⟩
      rw [← set.2, nonnegative, Int.toNat_natCast]

/-- `Kcp::set_mtu` succeeds for every size that is a C integer and not too small. -/
theorem setMtu_ok {mtu : U32} (kcp : Kcp) (least : 50 ≤ mtu.toNat) (most : mtu.toNat < 2 ^ 31) :
    ∃ kcp', kcp.setMtu mtu = some (.ok (), kcp') := by
  have value : mtu.toInt = mtu.toNat := by
    have cases := BitVec.toInt_eq_toNat_cond mtu
    split at cases <;> omega
  unfold setMtu ikcpSetmtu
  split
  · exact ⟨_, rfl⟩
  · rw [if_neg (by rw [value]; simp only [ikcpOverhead]; omega)]
    exact ⟨_, rfl⟩

/-- A first message whose size is positive is copied whole, whatever its length. -/
theorem ikcpRecv_of_positive (positive : 0 < ikcpPeeksize kcp.cb) :
    ikcpRecv kcp.cb (BitVec.ofNat 32 kcp.peekSize).toInt =
      (ikcpPeeksize kcp.cb, payloadOf (takeMessage kcp.cb.rcvQueue).1, recvMoved kcp.cb false) := by
  have bounded := ikcpPeeksize_lt kcp.cb
  have size : (BitVec.ofNat 32 kcp.peekSize).toInt = ikcpPeeksize kcp.cb := by
    rw [BitVec.toInt_ofNat', peekSize, Int.toNat_of_nonneg positive.le, Int.bmod_eq_of_le]
    · norm_num
      omega
    · norm_num
      omega
  have occupied : kcp.cb.rcvQueue ≠ [] := by
    intro empty
    simp [ikcpPeeksize, empty] at positive
  have total : (takeMessage kcp.cb.rcvQueue).1.foldl
      (fun total seg => wrap32 (total + seg.data.length)) 0 = ikcpPeeksize kcp.cb := by
    have sum := foldl_message (takeMessage kcp.cb.rcvQueue).1 0
    rw [wrap32_of_lt le_rfl (by decide), Int.zero_add] at sum
    rw [sum, ikcpPeeksize_eq positive.le]
  have fills : ¬ ikcpPeeksize kcp.cb < 0 := by omega
  rw [size]
  unfold ikcpRecv
  dsimp only
  rw [if_neg occupied, if_neg fills, if_neg (by rw [if_neg fills]; omega), total]
  simp [fills]

/-- The size of a message of positive size is its length modulo `2 ^ 32`. -/
theorem peekSize_of_positive (positive : 0 < ikcpPeeksize kcp.cb) :
    kcp.peekSize = kcp.cb.headLength % 2 ^ 32 := by
  have size := ikcpPeeksize_eq positive.le
  unfold peekSize Ikcpcb.headLength
  rw [size] at positive ⊢
  unfold wrap32 at positive ⊢
  rw [Int.bmod_def] at positive ⊢
  split at positive <;> split <;> omega

/-- A message whose size is positive fills the buffer that `Kcp::recv_bytes` makes for it. -/
theorem recv_of_positive (positive : 0 < ikcpPeeksize kcp.cb)
    (short : kcp.cb.headLength < 2 ^ 32) :
    kcp.recv kcp.peekSize = some (.ok kcp.peekSize, payloadOf (takeMessage kcp.cb.rcvQueue).1,
      { kcp with cb := recvMoved kcp.cb false }) := by
  have room : (payloadOf (takeMessage kcp.cb.rcvQueue).1).length = kcp.peekSize := by
    rw [peekSize_of_positive positive, Nat.mod_eq_of_lt short]
    rfl
  have result : recvResult (ikcpPeeksize kcp.cb) = some (.ok kcp.peekSize) := if_pos positive.le
  rw [recv, ikcpRecv_of_positive positive]
  dsimp only
  rw [if_neg (Nat.not_lt.2 room.le), result]
  rfl

/-- A longer one is written past the end of that buffer. -/
theorem recv_of_overrun (positive : 0 < ikcpPeeksize kcp.cb)
    (long : 2 ^ 32 ≤ kcp.cb.headLength) : kcp.recv kcp.peekSize = none := by
  have full : kcp.peekSize < (payloadOf (takeMessage kcp.cb.rcvQueue).1).length := by
    rw [peekSize_of_positive positive]
    exact lt_of_lt_of_le (Nat.mod_lt _ (by decide)) long
  rw [recv, ikcpRecv_of_positive positive]
  exact if_pos full

theorem peekSize_pos (positive : 0 < ikcpPeeksize kcp.cb) : 0 < kcp.peekSize := by
  unfold peekSize
  omega

/-- A message whose size is positive is taken. -/
theorem recvBytes_of_positive (positive : 0 < ikcpPeeksize kcp.cb)
    (short : kcp.cb.headLength < 2 ^ 32) :
    kcp.recvBytes = some (some (payloadOf (takeMessage kcp.cb.rcvQueue).1),
      { kcp with cb := recvMoved kcp.cb false }) := by
  rw [recvBytes, if_pos (peekSize_pos positive), recv_of_positive positive short]
  rfl

theorem recvBytes_of_overrun (positive : 0 < ikcpPeeksize kcp.cb)
    (long : 2 ^ 32 ≤ kcp.cb.headLength) : kcp.recvBytes = none := by
  rw [recvBytes, if_pos (peekSize_pos positive), recv_of_overrun positive long]
  rfl

/-- Nothing is taken without a positive size. -/
theorem recvBytes_of_nonpositive (nonpositive : ikcpPeeksize kcp.cb ≤ 0) :
    kcp.recvBytes = some (none, kcp) := by
  have none : ¬ 0 < kcp.peekSize := by
    unfold peekSize
    omega
  rw [recvBytes, if_neg none]

/-- A frame is taken exactly as the first message of the receive queue. -/
theorem recvBytes_eq {frame : Option Bytes} (received : kcp.recvBytes = some (frame, kcp')) :
    (frame = none ∧ kcp' = kcp) ∨ (kcp.cb.rcvQueue ≠ [] ∧ 0 < ikcpPeeksize kcp.cb ∧
      frame = some (payloadOf (takeMessage kcp.cb.rcvQueue).1) ∧
      kcp' = { kcp with cb := recvMoved kcp.cb false }) := by
  by_cases positive : 0 < ikcpPeeksize kcp.cb
  · by_cases short : kcp.cb.headLength < 2 ^ 32
    · rw [recvBytes_of_positive positive short] at received
      cases received
      refine .inr ⟨?_, positive, rfl, rfl⟩
      intro empty
      simp [ikcpPeeksize, empty] at positive
    · rw [recvBytes_of_overrun positive (Nat.not_lt.1 short)] at received
      cases received
  · rw [recvBytes_of_nonpositive (Int.not_lt.1 positive)] at received
    cases received
    exact .inl ⟨rfl, rfl⟩

/-- `Kcp::recv_bytes` returns unless there is a message and it has `2 ^ 32` bytes or more. -/
theorem recvBytes_isSome_iff (kcp : Kcp) : kcp.recvBytes.isSome ↔
    (0 < ikcpPeeksize kcp.cb → kcp.cb.headLength < 2 ^ 32) := by
  by_cases positive : 0 < ikcpPeeksize kcp.cb
  · by_cases short : kcp.cb.headLength < 2 ^ 32
    · rw [recvBytes_of_positive positive short]
      exact iff_of_true rfl fun _ => short
    · rw [recvBytes_of_overrun positive (Nat.not_lt.1 short)]
      exact iff_of_false nofun fun fits => short (fits positive)
  · rw [recvBytes_of_nonpositive (Int.not_lt.1 positive)]
    exact iff_of_true rfl fun some => absurd some positive

/-! ## The acknowledge head -/

/-- The segment header that `Kcp::write_ack_head` is asked for. -/
def ackHead (kcp : Kcp) (cmdFlags : Byte) (payloadSize : Nat) (now : U32) : Head where
  conv := kcp.cb.conv
  cmd := ikcpCmdAck ||| cmdFlags
  frg := 0
  wnd := BitVec.ofNat 16 kcp.cb.rcvWnd
  ts := now
  sn := kcp.cb.sndNxt32
  una := kcp.cb.rcvNxt32
  len := BitVec.ofNat 32 payloadSize

/-- `written` is one segment header for `payloadSize` bytes: it has the size of a header,
it decodes to the fields asked for, and followed by its payload it is a packet of one
segment, for `ikcp_input` and for `Kcp::read_payload_data`. -/
structure OneHead (kcp : Kcp) (cmdFlags : Byte) (payloadSize : Nat) (now : U32)
    (written : Bytes) : Prop where
  length : written.length = ikcpOverhead
  decoded : (Head.decode written).1 = kcp.ackHead cmdFlags payloadSize now
  segment : ∀ payload : Bytes, payload.length = payloadSize →
    Head.decode (written ++ payload) = (kcp.ackHead cmdFlags payloadSize now, payload)
  payload : ∀ payload : Bytes, payload.length = payloadSize → payload ≠ [] →
    readPayloadData (written ++ payload) = some payload

/-- What is written is a header without payload, followed by four bytes with the size. -/
theorem writeAckHead_eq (kcp : Kcp) (cmdFlags : Byte) (payloadSize : Nat) (now : U32) :
    kcp.writeAckHead cmdFlags payloadSize now =
      { kcp.ackHead cmdFlags payloadSize now with len := 0 }.encode ++
        encode32u (BitVec.ofNat 32 payloadSize) := by
  simp only [writeAckHead, Head.encode, ackHead, List.append_assoc]

/-- `Kcp::write_ack_head` never writes one header: it writes four bytes too many, and the
length it writes where a header has it is zero. -/
theorem writeAckHead_never_one_head (kcp : Kcp) (cmdFlags : Byte) (payloadSize : Nat) (now : U32) :
    ¬ kcp.OneHead cmdFlags payloadSize now (kcp.writeAckHead cmdFlags payloadSize now) ∧
      (kcp.writeAckHead cmdFlags payloadSize now).length = ikcpOverhead + 4 ∧
      Head.decode (kcp.writeAckHead cmdFlags payloadSize now) =
        ({ kcp.ackHead cmdFlags payloadSize now with len := 0 },
          encode32u (BitVec.ofNat 32 payloadSize)) := by
  have length : (kcp.writeAckHead cmdFlags payloadSize now).length = ikcpOverhead + 4 := by
    rw [writeAckHead_eq, List.length_append, Head.length_encode, length_encode32u, ikcpOverhead]
  refine ⟨fun one => ?_, length, ?_⟩
  · have short := one.length
    omega
  · rw [writeAckHead_eq, Head.decode_encode]

/-- The RESET packet of a new block is not one header. -/
theorem writeAckHead_reset_not_one_head :
    ¬ (Kcp.new 1).OneHead 0x08 0 0 ((Kcp.new 1).writeAckHead 0x08 0 0) :=
  fun one => absurd one.length (by decide)

end Kcp
end KcpRs
