import KcpRs.Lib.Word

/-!
# The KCP wire format

`Head` is the fixed 24-byte header that `ikcp_encode_seg` writes and `ikcp_input`
reads, in the byte-wise form that `build.rs` selects (`IWORDS_MUST_ALIGN`). The
crate reads single fields of a packet with its own helpers (`read_conv`, `read_cmd`,
`write_cmd`, `read_payload_data`); they are translated separately and related to the
header codec by theorems.
-/

namespace KcpRs

open Lib

/-- `IUINT32`. -/
abbrev U32 := BitVec 32

/-- `IKCP_OVERHEAD`. -/
def ikcpOverhead : Nat := 24

/-- `IKCP_CMD_PUSH`: push data. -/
def ikcpCmdPush : Byte := 81

/-- `IKCP_CMD_ACK`: acknowledge. -/
def ikcpCmdAck : Byte := 82

/-- `IKCP_CMD_WASK`: window probe (ask). -/
def ikcpCmdWask : Byte := 83

/-- `IKCP_CMD_WINS`: window size (tell). -/
def ikcpCmdWins : Byte := 84

/-- The header of one segment on the wire. -/
structure Head where
  conv : U32
  cmd : Byte
  frg : Byte
  wnd : BitVec 16
  ts : U32
  sn : U32
  una : U32
  len : U32
deriving DecidableEq

namespace Head

/-- The fields in wire order. -/
def encode (head : Head) : Bytes :=
  encode32u head.conv ++ (encode8u head.cmd ++ (encode8u head.frg ++ (encode16u head.wnd ++
    (encode32u head.ts ++ (encode32u head.sn ++ (encode32u head.una ++ encode32u head.len))))))

/-- Read the fields back in wire order. -/
def decode (data : Bytes) : Head × Bytes :=
  let (conv, data) := decode32u data
  let (cmd, data) := decode8u data
  let (frg, data) := decode8u data
  let (wnd, data) := decode16u data
  let (ts, data) := decode32u data
  let (sn, data) := decode32u data
  let (una, data) := decode32u data
  let (len, data) := decode32u data
  ({ conv, cmd, frg, wnd, ts, sn, una, len }, data)

@[simp] theorem length_encode (head : Head) : head.encode.length = 24 := by
  simp [encode]

/-- Decoding an encoded header gives it back and leaves the bytes after it. -/
@[simp] theorem decode_encode (head : Head) (rest : Bytes) :
    decode (head.encode ++ rest) = (head, rest) := by
  simp only [encode, decode, List.append_assoc, decode32u_encode32u, decode16u_encode16u,
    decode8u_encode8u]

end Head

/-- `IKCPSEG`: a queued segment. The C field `len` is the length of `data`; the
header fields have the widths `ikcp_encode_seg` narrows them to. -/
structure Seg where
  conv : U32 := 0
  cmd : Byte := 0
  frg : Byte := 0
  wnd : BitVec 16 := 0
  ts : U32 := 0
  sn : U32 := 0
  una : U32 := 0
  resendts : U32 := 0
  rto : U32 := 0
  fastack : U32 := 0
  xmit : U32 := 0
  data : Bytes := []
deriving DecidableEq

/-- What a segment carries of the message it is a fragment of. -/
structure Payload where
  frg : Byte
  data : Bytes
deriving DecidableEq

namespace Seg

/-- The part of a segment that its receiver delivers. -/
def payload (seg : Seg) : Payload := ⟨seg.frg, seg.data⟩

/-- The header a segment is sent with. -/
def head (seg : Seg) : Head where
  conv := seg.conv
  cmd := seg.cmd
  frg := seg.frg
  wnd := seg.wnd
  ts := seg.ts
  sn := seg.sn
  una := seg.una
  len := BitVec.ofNat 32 seg.data.length

end Seg

/-- The bytes that a list of segments carries. -/
def payloadOf (segs : List Seg) : Bytes := segs.flatMap (·.data)

/-- `ikcp_encode_seg` followed by the copy of the payload. -/
def ikcpEncodeSeg (seg : Seg) : Bytes :=
  seg.head.encode ++ seg.data

/-- A packet is the concatenation of its segments. -/
def encodePacket (segs : List Seg) : Bytes := segs.flatMap ikcpEncodeSeg

/-- A segment is as long as its header and its data. -/
theorem length_ikcpEncodeSeg (seg : Seg) :
    (ikcpEncodeSeg seg).length = ikcpOverhead + seg.data.length := by
  simp [ikcpEncodeSeg, ikcpOverhead]

/-- `Kcp::read_conv`: the conv of a packet of at least one header. -/
def readConv (buf : Bytes) : Option U32 :=
  if ikcpOverhead ≤ buf.length then
    some ((buf.getD 0 0).setWidth 32 ||| (buf.getD 1 0).setWidth 32 <<< 8 |||
      (buf.getD 2 0).setWidth 32 <<< 16 ||| (buf.getD 3 0).setWidth 32 <<< 24)
  else none

/-- `Kcp::read_cmd`, which indexes byte 4 and so panics on a shorter buffer. -/
def readCmd (buf : Bytes) : Option Byte :=
  buf[4]?

/-- `Kcp::write_cmd`: overwrite byte 4. -/
def writeCmd (buf : Bytes) (cmd : Byte) : Bytes :=
  buf.set 4 cmd

/-- The length field that `Kcp::read_payload_data` reads from the header at the
start of `buf`. -/
def readLen (buf : Bytes) : Nat :=
  ((buf.getD 20 0).setWidth 32 ||| (buf.getD 21 0).setWidth 32 <<< 8 |||
    (buf.getD 22 0).setWidth 32 <<< 16 ||| (buf.getD 23 0).setWidth 32 <<< 24 : U32).toNat

/-- The loop of `Kcp::read_payload_data`. Every turn drops a header, so the length
of the buffer bounds the number of turns. -/
def readPayloadLoop : Nat → Bytes → Option Bytes
  | 0, _ => none
  | fuel + 1, buf =>
      if buf.length < ikcpOverhead then none
      else
        let len := readLen buf
        let rest := buf.drop ikcpOverhead
        if 1 ≤ len ∧ len ≤ rest.length then some (rest.take len)
        else readPayloadLoop fuel rest

/-- `Kcp::read_payload_data`: the first payload that fits into the buffer. -/
def readPayloadData (buf : Bytes) : Option Bytes :=
  readPayloadLoop (buf.length + 1) buf

/-! ## Reading packets -/

theorem encodePacket_cons (seg : Seg) (rest : List Seg) :
    encodePacket (seg :: rest) = seg.head.encode ++ (seg.data ++ encodePacket rest) := by
  simp [encodePacket, ikcpEncodeSeg]

theorem ikcpOverhead_le_length_encodePacket (seg : Seg) (rest : List Seg) :
    ikcpOverhead ≤ (encodePacket (seg :: rest)).length := by
  rw [encodePacket_cons]
  simp [ikcpOverhead]

/-- The command of a packet is that of its first segment. -/
@[simp] theorem readCmd_encodePacket (seg : Seg) (rest : List Seg) :
    readCmd (encodePacket (seg :: rest)) = some seg.cmd := by
  rw [encodePacket_cons]
  rfl

theorem getD_encodePacket (seg : Seg) (rest : List Seg) :
    (encodePacket (seg :: rest)).getD 4 0 = seg.cmd := by
  rw [encodePacket_cons]
  rfl

/-- Overwriting the command of a packet changes its first segment. -/
theorem writeCmd_encodePacket (seg : Seg) (rest : List Seg) (cmd : Byte) :
    writeCmd (encodePacket (seg :: rest)) cmd = encodePacket ({ seg with cmd } :: rest) := by
  rw [encodePacket_cons, encodePacket_cons]
  rfl

/-- `Kcp::read_conv` reads what `ikcp_input` decodes first. -/
theorem readConv_eq_decode {buf : Bytes} (whole : ikcpOverhead ≤ buf.length) :
    readConv buf = some (Head.decode buf).1.conv := by
  rw [readConv, if_pos whole]
  match buf, whole with
  | b0 :: b1 :: b2 :: b3 :: rest, _ => exact congrArg some (decode32u_bytes b0 b1 b2 b3 rest).symm
  | [], short | [_], short | [_, _], short | [_, _, _], short => simp [ikcpOverhead] at short

/-- The conv of a packet is that of its first segment. -/
theorem readConv_encodePacket (seg : Seg) (rest : List Seg) :
    readConv (encodePacket (seg :: rest)) = some seg.conv := by
  rw [readConv, if_pos (ikcpOverhead_le_length_encodePacket seg rest), encodePacket_cons]
  exact congrArg some (or_bytes seg.conv)

/-- The length field of the first segment, which has 32 bits. -/
theorem readLen_encodePacket {seg : Seg} (rest : List Seg) (bound : seg.data.length < 2 ^ 32) :
    readLen (encodePacket (seg :: rest)) = seg.data.length := by
  have word : readLen (encodePacket (seg :: rest)) = (BitVec.ofNat 32 seg.data.length).toNat := by
    rw [encodePacket_cons]
    exact congrArg BitVec.toNat (or_bytes (BitVec.ofNat 32 seg.data.length))
  rw [word, BitVec.toNat_ofNat, Nat.mod_eq_of_lt bound]

/-- The payload that is found is that of the first segment that has one. -/
theorem readPayloadLoop_encodePacket {fuel : Nat} {segs : List Seg} (enough : segs.length < fuel)
    (bound : ∀ seg ∈ segs, seg.data.length < 2 ^ 32) :
    readPayloadLoop fuel (encodePacket segs) =
      (segs.find? fun seg => seg.data ≠ []).map Seg.data := by
  induction segs generalizing fuel with
  | nil =>
      cases fuel with
      | zero => simp at enough
      | succ fuel => simp [readPayloadLoop, encodePacket, ikcpOverhead]
  | cons seg rest inductionHypothesis =>
      cases fuel with
      | zero => simp at enough
      | succ fuel =>
          have long := ikcpOverhead_le_length_encodePacket seg rest
          have size := readLen_encodePacket rest (bound seg List.mem_cons_self)
          have remainder : (encodePacket (seg :: rest)).drop ikcpOverhead =
              seg.data ++ encodePacket rest := by
            rw [encodePacket_cons, List.drop_left' (by simp [ikcpOverhead])]
          unfold readPayloadLoop
          rw [if_neg (by omega)]
          dsimp only
          rw [size, remainder]
          cases data : seg.data with
          | nil =>
              have shorter : rest.length < fuel := by simpa using enough
              have later := inductionHypothesis shorter
                fun other member => bound other (List.mem_cons_of_mem _ member)
              simp [data, later]
          | cons byte bytes => simp [data]

theorem length_le_length_encodePacket (segs : List Seg) :
    segs.length ≤ (encodePacket segs).length := by
  induction segs with
  | nil => simp
  | cons seg rest inductionHypothesis =>
      rw [encodePacket_cons]
      simp only [List.length_cons, List.length_append, Head.length_encode]
      omega

theorem readPayloadData_encodePacket {segs : List Seg}
    (bound : ∀ seg ∈ segs, seg.data.length < 2 ^ 32) :
    readPayloadData (encodePacket segs) = (segs.find? fun seg => seg.data ≠ []).map Seg.data :=
  readPayloadLoop_encodePacket (Nat.lt_succ_of_le (length_le_length_encodePacket segs)) bound

/-- A packet has a payload exactly when one of its segments has one. -/
theorem isSome_readPayloadData {segs : List Seg}
    (bound : ∀ seg ∈ segs, seg.data.length < 2 ^ 32) :
    (readPayloadData (encodePacket segs)).isSome ↔ ∃ seg ∈ segs, seg.data ≠ [] := by
  rw [readPayloadData_encodePacket bound]
  simp

end KcpRs
