import KcpRs.Wire.Segment

/-!
# What `read_payload_data` finds

`strictWalk` is the walk of `ikcp_input` over the segments of a packet, as far as lengths go and
up to the first payload. `Kcp::read_payload_data` keeps step with it on every packet that an
encoder has made. Where a length exceeds the bytes that are left the two part: the strict walk
ends, and `read_payload_data` goes on inside the payload.
-/

namespace KcpRs

open Lib

/-- The payload that is found lies inside the buffer. -/
theorem infix_of_readPayloadLoop {fuel : Nat} {buf data : Bytes}
    (found : readPayloadLoop fuel buf = some data) : data <:+: buf := by
  induction fuel generalizing buf with
  | zero => cases found
  | succ fuel inductionHypothesis =>
      unfold readPayloadLoop at found
      dsimp only at found
      split at found
      · cases found
      · split at found
        · cases found
          exact (List.take_prefix _ _).isInfix.trans (List.drop_suffix _ _).isInfix
        · exact (inductionHypothesis found).trans (List.drop_suffix _ _).isInfix

/-- `Kcp::read_payload_data` inverts the encoding of packets: it finds the payload of the first
segment that has one, as a part of the buffer, and nothing exactly when no segment has one. -/
theorem readPayloadData_inverts {segs : List Seg} (bound : ∀ seg ∈ segs, seg.data.length < 2 ^ 32) :
    readPayloadData (encodePacket segs) = (segs.find? fun seg => seg.data ≠ []).map Seg.data ∧
      (readPayloadData (encodePacket segs) = none ↔ ∀ seg ∈ segs, seg.data = []) ∧
      ∀ data, readPayloadData (encodePacket segs) = some data → data <:+: encodePacket segs := by
  refine ⟨readPayloadData_encodePacket bound, ?_, fun data found => infix_of_readPayloadLoop found⟩
  rw [readPayloadData_encodePacket bound]
  simp

/-- Acknowledgements before the first data segment are skipped. -/
theorem readPayloadData_inverts_behind_ack :
    readPayloadData (encodePacket [{ cmd := ikcpCmdAck }, { cmd := ikcpCmdPush, data := [7] }]) =
      some [7] := by
  obtain ⟨found, _⟩ := @readPayloadData_inverts
    [{ cmd := ikcpCmdAck }, { cmd := ikcpCmdPush, data := [7] }] (by decide)
  exact found.trans (by decide)

/-! ## The strict walk -/

/-- How a strict walk of segments ends. -/
inductive StrictWalk where
  /-- Less than a header is left. -/
  | ended
  /-- The first payload. -/
  | payload (data : Bytes)
  /-- A segment whose length exceeds the bytes `rest` behind its header. -/
  | overlong (rest : Bytes)
deriving DecidableEq

/-- The strict walk, of which every turn drops a header. -/
def strictWalkLoop : Nat → Bytes → StrictWalk
  | 0, _ => .ended
  | fuel + 1, buf =>
      if buf.length < ikcpOverhead then .ended
      else
        let len := (Head.decode buf).1.len.toNat
        let rest := (Head.decode buf).2
        if rest.length < len then .overlong rest
        else if len = 0 then strictWalkLoop fuel rest
        else .payload (rest.take len)

/-- The strict walk over a buffer, up to the first payload. -/
def strictWalk (buf : Bytes) : StrictWalk := strictWalkLoop (buf.length + 1) buf

/-- The offsets at which the strict walk reads headers. -/
def strictHeads : Nat → Nat → Bytes → List Nat
  | 0, _, _ => []
  | fuel + 1, offset, buf =>
      if buf.length < ikcpOverhead then []
      else
        let len := (Head.decode buf).1.len.toNat
        let rest := (Head.decode buf).2
        if rest.length < len ∨ len ≠ 0 then [offset]
        else offset :: strictHeads fuel (offset + ikcpOverhead) rest

/-- The offsets at which the loop of `Kcp::read_payload_data` reads headers. -/
def readPayloadHeads : Nat → Nat → Bytes → List Nat
  | 0, _, _ => []
  | fuel + 1, offset, buf =>
      if buf.length < ikcpOverhead then []
      else
        let len := readLen buf
        let rest := buf.drop ikcpOverhead
        if 1 ≤ len ∧ len ≤ rest.length then [offset]
        else offset :: readPayloadHeads fuel (offset + ikcpOverhead) rest

/-- `Kcp::read_payload_data` finds nothing and takes only those bytes for a header that the strict
walk takes for one. -/
def Rejects (buf : Bytes) : Prop :=
  readPayloadData buf = none ∧ ∀ offset ∈ readPayloadHeads (buf.length + 1) 0 buf,
    offset ∈ strictHeads (buf.length + 1) 0 buf

instance (buf : Bytes) : Decidable (Rejects buf) := inferInstanceAs (Decidable (_ ∧ _))

/-- `Kcp::read_payload_data` reads the length that `ikcp_input` decodes, and both go on behind the
header. -/
theorem decode_eq {buf : Bytes} (whole : ikcpOverhead ≤ buf.length) :
    (Head.decode buf).1.len.toNat = readLen buf ∧ (Head.decode buf).2 = buf.drop ikcpOverhead := by
  unfold ikcpOverhead at whole
  iterate 24
    rcases buf with _ | ⟨_, buf⟩
    · simp at whole
  exact ⟨congrArg BitVec.toNat (decode32u_bytes _ _ _ _ buf), rfl⟩

/-- The header that starts `index` headers behind the start of `buf` has a length between one and
the number of bytes behind it. -/
def FitsAt (buf : Bytes) (index : Nat) : Prop :=
  ikcpOverhead * (index + 1) ≤ buf.length ∧ 1 ≤ readLen (buf.drop (ikcpOverhead * index)) ∧
    readLen (buf.drop (ikcpOverhead * index)) + ikcpOverhead * (index + 1) ≤ buf.length

instance (buf : Bytes) (index : Nat) : Decidable (FitsAt buf index) :=
  inferInstanceAs (Decidable (_ ∧ _))

theorem fitsAt_zero {buf : Bytes} (whole : ikcpOverhead ≤ buf.length) : FitsAt buf 0 ↔
    1 ≤ readLen buf ∧ readLen buf ≤ (buf.drop ikcpOverhead).length := by
  rw [FitsAt, Nat.mul_zero, List.drop_zero, List.length_drop]
  omega

theorem fitsAt_succ {buf : Bytes} (index : Nat) (whole : ikcpOverhead ≤ buf.length) :
    FitsAt buf (index + 1) ↔ FitsAt (buf.drop ikcpOverhead) index := by
  have position : ikcpOverhead * (index + 1) = ikcpOverhead + ikcpOverhead * index := by ring
  have behind : ikcpOverhead * (index + 1 + 1) = ikcpOverhead + ikcpOverhead * (index + 1) := by ring
  rw [FitsAt, FitsAt, List.drop_drop, List.length_drop, position, behind]
  omega

/-- The loop finds nothing when no length on the grid of headers fits. -/
theorem readPayloadLoop_eq_none_iff {fuel : Nat} {buf : Bytes} (enough : buf.length < fuel) :
    readPayloadLoop fuel buf = none ↔ ∀ index, ¬ FitsAt buf index := by
  induction fuel generalizing buf with
  | zero => cases enough
  | succ fuel inductionHypothesis =>
      unfold readPayloadLoop
      dsimp only
      by_cases short : buf.length < ikcpOverhead
      · rw [if_pos short]
        refine ⟨fun _ index fits => ?_, fun _ => rfl⟩
        have least := fits.1
        rw [Nat.mul_succ] at least
        omega
      · rw [if_neg short]
        have whole := Nat.not_lt.1 short
        have first := fitsAt_zero whole
        split
        · rename_i fits
          exact ⟨(by rintro ⟨⟩), fun none => absurd (first.2 fits) (none 0)⟩
        · rename_i unfit
          have shorter : (buf.drop ikcpOverhead).length < fuel := by
            rw [List.length_drop, ikcpOverhead] at *
            omega
          rw [inductionHypothesis shorter]
          constructor
          · rintro none (_ | index)
            · exact fun fits => unfit (first.1 fits)
            · rw [fitsAt_succ index whole]
              exact none index
          · intro none index
            rw [← fitsAt_succ index whole]
            exact none (index + 1)

/-- Up to an overlong segment `Kcp::read_payload_data` keeps step with the strict walk; from there
it goes on with the bytes behind the header. -/
theorem readPayloadLoop_of_overlong {fuel offset : Nat} {buf rest : Bytes}
    (enough : buf.length < fuel) (meets : strictWalkLoop fuel buf = .overlong rest) :
    ∃ fuel' offset', rest.length < fuel' ∧ readPayloadLoop fuel buf = readPayloadLoop fuel' rest ∧
      readPayloadHeads fuel offset buf =
        strictHeads fuel offset buf ++ readPayloadHeads fuel' offset' rest ∧
      offset < offset' ∧ ∀ head ∈ strictHeads fuel offset buf, head < offset' := by
  induction fuel generalizing buf offset with
  | zero => cases enough
  | succ fuel inductionHypothesis =>
      unfold strictWalkLoop at meets
      dsimp only at meets
      rw [readPayloadLoop, readPayloadHeads, strictHeads]
      dsimp only
      split at meets
      · cases meets
      · rename_i whole
        rw [if_neg whole, if_neg whole, if_neg whole]
        obtain ⟨len, behind⟩ := decode_eq (Nat.not_lt.1 whole)
        have shorter : (buf.drop ikcpOverhead).length < fuel := by
          rw [List.length_drop, ikcpOverhead] at *
          omega
        have positive : offset < offset + ikcpOverhead := Nat.lt_add_of_pos_right (by decide)
        rw [len, behind] at meets ⊢
        split at meets
        · rename_i exceeds
          cases meets
          have unfit : ¬ (1 ≤ readLen buf ∧ readLen buf ≤ (buf.drop ikcpOverhead).length) := by omega
          rw [if_neg unfit, if_neg unfit, if_pos (.inl exceeds)]
          refine ⟨fuel, offset + ikcpOverhead, shorter, rfl, rfl, positive, ?_⟩
          intro head member
          rw [List.mem_singleton.1 member]
          exact positive
        · rename_i inside
          split at meets
          · rename_i empty
            have unfit : ¬ (1 ≤ readLen buf ∧ readLen buf ≤ (buf.drop ikcpOverhead).length) := by omega
            rw [if_neg unfit, if_neg unfit, if_neg (by omega)]
            obtain ⟨fuel', offset', enough', same, heads, later, below⟩ :=
              @inductionHypothesis (offset + ikcpOverhead) _ shorter meets
            refine ⟨fuel', offset', enough', same, by rw [heads, List.cons_append],
              positive.trans later, ?_⟩
            intro head member
            rcases List.mem_cons.1 member with rfl | member
            · exact positive.trans later
            · exact below head member
          · cases meets

/-- No header is read from less than one. -/
theorem readPayloadHeads_of_short {fuel offset : Nat} {buf : Bytes}
    (short : buf.length < ikcpOverhead) : readPayloadHeads fuel offset buf = [] := by
  cases fuel with
  | zero => rfl
  | succ fuel => exact if_pos short

/-- A header is read where there are enough bytes for one. -/
theorem mem_readPayloadHeads {fuel offset : Nat} {buf : Bytes} (enough : buf.length < fuel)
    (whole : ikcpOverhead ≤ buf.length) : offset ∈ readPayloadHeads fuel offset buf := by
  cases fuel with
  | zero => cases enough
  | succ fuel =>
      rw [readPayloadHeads, if_neg (Nat.not_lt.2 whole)]
      dsimp only
      split <;> exact List.mem_cons_self

/-- The bytes behind the header of an overlong segment are read as headers as soon as there are
enough of them, and one of their lengths is believed as soon as it fits. -/
theorem readPayloadData_rejects_iff {buf rest : Bytes} (meets : strictWalk buf = .overlong rest) :
    (Rejects buf ↔ rest.length < ikcpOverhead) ∧
      (readPayloadData buf = none ↔ ∀ index, ¬ FitsAt rest index) := by
  obtain ⟨fuel, offset, enough, same, heads, _, below⟩ :=
    @readPayloadLoop_of_overlong _ 0 _ _ (Nat.lt_succ_self _) meets
  have nothing : readPayloadData buf = none ↔ ∀ index, ¬ FitsAt rest index := by
    rw [readPayloadData, same, readPayloadLoop_eq_none_iff enough]
  refine ⟨?_, nothing⟩
  rw [Rejects, nothing, heads]
  constructor
  · rintro ⟨_, reads⟩
    by_contra whole
    have read := @mem_readPayloadHeads _ offset _ enough (Nat.not_lt.1 whole)
    exact lt_irrefl _ (below _ (reads _ (List.mem_append_right _ read)))
  · intro short
    rw [readPayloadHeads_of_short short, List.append_nil]
    refine ⟨fun index fits => ?_, fun _ member => member⟩
    have least := fits.1
    rw [Nat.mul_succ] at least
    omega

/-- A packet that ends behind the header of an overlong segment is rejected. -/
theorem readPayloadData_rejects_short : Rejects ((List.replicate 20 0 ++ [9, 0, 0, 0, 7]) : Bytes) :=
  (@readPayloadData_rejects_iff _ [7] (by decide)).1.2 (by decide)

/-- A header with the length 1000, and behind it a header with the length one and a byte, which is
returned. -/
theorem readPayloadData_not_rejects : ¬ ∀ buf rest : Bytes, strictWalk buf = .overlong rest →
    readPayloadData buf = none := by
  intro rejects
  have refused := rejects (List.replicate 20 0 ++ [0xe8, 3, 0, 0] ++ List.replicate 20 0 ++ [1, 0, 0, 0, 7])
    (List.replicate 20 0 ++ [1, 0, 0, 0, 7]) (by decide)
  exact absurd refused (by decide)

end KcpRs
