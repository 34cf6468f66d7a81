import KcpRs.Engine.Message
import KcpRs.Engine.Window

/-!
# Everything that was queued

`Written` relates the send queue to the list of all payloads ever queued: the queue is what
has not been numbered yet. A flush numbers payloads in order; `ikcp_send` appends the fragments
of its buffer, or in streaming mode first fills up the last payload of the queue (`Appended`).
-/

namespace KcpRs

open Lib

/-- The payload at a position. -/
def At (payloads : List Payload) (number : Nat) (payload : Payload) : Prop :=
  payloads[number]? = some payload

namespace Ikcpcb

/-- The send queue is what has not been numbered of the payloads ever queued. -/
structure Written (payloads : List Payload) (kcp : Ikcpcb) : Prop where
  most : kcp.sndNxt ≤ payloads.length
  queue : kcp.sndQueue.map Seg.payload = payloads.drop kcp.sndNxt

variable {payloads : List Payload} {kcp kcp' : Ikcpcb}

theorem Written.congr (written : kcp.Written payloads) (queue : kcp'.sndQueue = kcp.sndQueue)
    (next : kcp'.sndNxt = kcp.sndNxt) : kcp'.Written payloads where
  most := next.trans_le written.most
  queue := by
    rw [queue, next]
    exact written.queue

/-- What waits for its number is written. -/
theorem Written.queued (written : kcp.Written payloads) : kcp.Queued (At payloads) := by
  intro index seg member
  have found : (kcp.sndQueue.map Seg.payload)[index]? = some seg.payload := by
    rw [List.getElem?_map, member]
    rfl
  rwa [written.queue, List.getElem?_drop] at found

/-- What is written is numbered or waits for its number. -/
theorem Written.length (written : kcp.Written payloads) :
    payloads.length = kcp.sndNxt + kcp.sndQueue.length := by
  have size := congrArg List.length written.queue
  have most := written.most
  rw [List.length_map, List.length_drop] at size
  omega

/-- What is numbered next. -/
theorem Written.flushTake {newseg : Seg} {rest : List Seg} (written : kcp.Written payloads)
    (queue : kcp.sndQueue = newseg :: rest) (wnd : BitVec 16) :
    (flushTake wnd kcp newseg rest).Written payloads := by
  have size := written.length
  have dropped := written.queue
  rw [queue] at size dropped
  rw [List.map_cons] at dropped
  refine ⟨?_, ?_⟩
  · simp only [KcpRs.flushTake, List.length_cons] at size ⊢
    omega
  · have tail := congrArg List.tail dropped
    rw [List.tail_cons, List.tail_drop] at tail
    exact tail

/-- A flush numbers what waits, in order. -/
theorem Written.ikcpFlush (written : kcp.Written payloads) :
    (ikcpFlush kcp).1.Written payloads := by
  cases updated : kcp.updated with
  | false =>
      rw [KcpRs.ikcpFlush, if_pos updated]
      exact written
  | true =>
      have sender := sender_flushProbed kcp
      simp only [Ikcpcb.sender, Sender.mk.injEq] at sender
      have moved : (flushMoved kcp).Written payloads :=
        flushMove_induct (Written payloads) (fun _ _ _ queue written => written.flushTake queue _) _ _
          (written.congr sender.1 sender.2.2.2.2)
      exact moved.congr (congrArg Sender.sndQueue (sender_ikcpFlush updated))
        (congrArg Sender.sndNxt (sender_ikcpFlush updated))

theorem Written.ikcpUpdate (written : kcp.Written payloads) (current : U32) :
    (ikcpUpdate kcp current).1.Written payloads :=
  ikcpUpdate_induct _ (fun _ _ _ written => ⟨written.most, written.queue⟩)
    (fun _ written => written.ikcpFlush) written current

/-- A flush numbers more segments. -/
theorem sndNxt_le_ikcpFlush (kcp : Ikcpcb) : kcp.sndNxt ≤ (KcpRs.ikcpFlush kcp).1.sndNxt := by
  cases updated : kcp.updated with
  | false => rw [KcpRs.ikcpFlush, if_pos updated]
  | true =>
      have next : (KcpRs.ikcpFlush kcp).1.sndNxt = (flushMoved kcp).sndNxt :=
        congrArg Sender.sndNxt (sender_ikcpFlush updated)
      rw [next]
      refine flushMove_induct (fun block => kcp.sndNxt ≤ block.sndNxt)
        (fun block newseg rest _ least => Nat.le_succ_of_le least) _ _ ?_
      exact (congrArg Sender.sndNxt (sender_flushProbed kcp)).ge

theorem sndNxt_le_ikcpUpdate (kcp : Ikcpcb) (current : U32) :
    kcp.sndNxt ≤ (KcpRs.ikcpUpdate kcp current).1.sndNxt :=
  ikcpUpdate_induct (fun block => kcp.sndNxt ≤ block.sndNxt) (fun _ _ _ least => least)
    (fun block least => least.trans (sndNxt_le_ikcpFlush block)) le_rfl current

/-! ## Queueing a buffer -/

/-- What queueing `len` bytes of `buffer` makes of the payloads ever queued. Nothing that has
been numbered changes; without a payload to fill up the fragments are appended, of which there
are few; and in streaming mode the bytes are. -/
structure Appended (kcp : Ikcpcb) (buffer : Bytes) (len : Nat) (payloads payloads' : List Payload) :
    Prop where
  numbered : payloads'.take kcp.sndNxt = payloads.take kcp.sndNxt
  whole : kcp.stream = false ∨ kcp.sndQueue = [] →
    payloads' = payloads ++ kcp.fragments buffer len ∧ fragmentCount kcp.mss len < ikcpWndRcv
  merged : kcp.stream → len = buffer.length → (∀ payload ∈ payloads, payload.frg = 0) →
    (∀ payload ∈ payloads', payload.frg = 0) ∧ bytesOf payloads' = bytesOf payloads ++ buffer

/-- The bytes of the fragments are those of the buffer. -/
theorem bytesOf_fragments (positive : 0 < kcp.mss) (buffer : Bytes) :
    bytesOf (kcp.fragments buffer buffer.length) = buffer := by
  rw [fragments, bytesOf_map_payload]
  exact payloadOf_sendFragments _ _ _ _ (le_fragmentCount_mul positive)

/-- The part of `ikcp_send` after the streaming-mode merge. -/
theorem Written.sendRest (written : kcp.Written payloads) (positive : 0 < kcp.mss)
    {buffer : Bytes} {len : Nat} (sent : (sendRest kcp buffer len).1 = 0) :
    (sendRest kcp buffer len).2.Written (payloads ++ kcp.fragments buffer len) ∧
      Appended kcp buffer len payloads (payloads ++ kcp.fragments buffer len) := by
  have most := written.most
  have few : ¬ ikcpWndRcv ≤ fragmentCount kcp.mss len := fun many => by
    rw [KcpRs.sendRest, if_pos many] at sent
    cases sent
  refine ⟨?_, List.take_append_of_le_length most, fun _ => ⟨rfl, Nat.lt_of_not_le few⟩,
    fun stream size plain => ⟨?_, ?_⟩⟩
  · unfold KcpRs.sendRest at sent ⊢
    dsimp only at sent ⊢
    rw [if_neg few]
    refine ⟨?_, ?_⟩
    · simp only [List.length_append]
      omega
    · simp only [List.map_append]
      rw [List.drop_append_of_le_length most, written.queue, fragments]
  · rw [List.forall_mem_append]
    refine ⟨plain, ?_⟩
    rw [fragments, stream]
    exact plain_sendFragments
  · rw [bytesOf_append, size, bytesOf_fragments positive]

/-- Filling up the last payload of the queue. -/
theorem Written.sendExtend {old : Seg} {buffer : Bytes} {len : Nat} (written : kcp.Written payloads)
    (last : kcp.sndQueue.getLast? = some old) : ∃ payloads',
      (sendExtend kcp buffer len).1.Written payloads' ∧
      (∃ queue, (sendExtend kcp buffer len).1 = { kcp with sndQueue := queue }) ∧
      payloads'.take kcp.sndNxt = payloads.take kcp.sndNxt ∧
      (len = buffer.length → (∀ payload ∈ payloads, payload.frg = 0) →
        (∀ payload ∈ payloads', payload.frg = 0) ∧
        (sendExtend kcp buffer len).2.2 = (sendExtend kcp buffer len).2.1.length ∧
        bytesOf payloads' ++ (sendExtend kcp buffer len).2.1 = bytesOf payloads ++ buffer) := by
  unfold KcpRs.sendExtend
  rw [last]
  dsimp only
  split
  · obtain ⟨front, queue⟩ := List.getLast?_eq_some_iff.1 last
    have size := written.length
    have dropped := written.queue
    rw [queue] at size dropped
    rw [List.length_append, List.length_singleton] at size
    have split : payloads = payloads.take kcp.sndNxt ++ (front.map Seg.payload ++ [old.payload]) := by
      conv_lhs => rw [← List.take_append_drop kcp.sndNxt payloads, ← dropped, List.map_append]
      rfl
    have numbered : (payloads.take kcp.sndNxt).length = kcp.sndNxt := by
      rw [List.length_take]
      omega
    -- The payload that takes the place of the last one.
    let filled (extend : Nat) : Payload := ⟨0, old.data ++ buffer.take extend⟩
    refine ⟨payloads.take kcp.sndNxt ++ (front.map Seg.payload ++
      [filled (if len < kcp.mss - old.data.length then len else kcp.mss - old.data.length)]),
      ⟨?_, ?_⟩, ⟨_, rfl⟩, ?_, fun whole plain => ⟨?_, ?_, ?_⟩⟩
    · simp only [List.length_append, numbered]
      omega
    · simp only [queue, List.dropLast_concat, List.map_append]
      rw [List.drop_left' numbered]
      rfl
    · rw [List.take_left' numbered]
    · rw [split, List.forall_mem_append, List.forall_mem_append] at plain
      rw [List.forall_mem_append, List.forall_mem_append]
      exact ⟨plain.1, plain.2.1, by simp [filled]⟩
    · rw [List.length_drop, whole]
    · conv_rhs => rw [split]
      simp only [bytesOf_append, List.append_assoc]
      simp [bytesOf, filled, Seg.payload]
  · exact ⟨payloads, written, ⟨kcp.sndQueue, rfl⟩, rfl, fun whole plain => ⟨plain, whole, rfl⟩⟩

/-- Queueing a buffer that is taken. -/
theorem Written.ikcpSend (written : kcp.Written payloads) (positive : 0 < kcp.mss)
    {buffer : Bytes} {len : Int} (some : 0 < len) (sent : (ikcpSend kcp buffer len).1 = 0) :
    ∃ payloads', (ikcpSend kcp buffer len).2.Written payloads' ∧
      Appended kcp buffer len.toNat payloads payloads' := by
  cases stream : kcp.stream with
  | false =>
      have direct : KcpRs.ikcpSend kcp buffer len = KcpRs.sendRest kcp buffer len.toNat := by
        unfold KcpRs.ikcpSend
        rw [if_neg (by omega), if_neg (by simp [stream])]
      rw [direct] at sent ⊢
      exact ⟨_, written.sendRest positive sent⟩
  | true =>
      cases last : kcp.sndQueue.getLast? with
      | none =>
          have empty : kcp.sndQueue = [] := List.getLast?_eq_none_iff.1 last
          rw [ikcpSend_of_empty empty some] at sent ⊢
          exact ⟨_, written.sendRest positive sent⟩
      | some old =>
          have occupied : ¬ (kcp.stream = false ∨ kcp.sndQueue = []) := by
            rintro (message | empty)
            · simp [stream] at message
            · simp [empty] at last
          obtain ⟨filled, written', ⟨queue, same⟩, numbered, merged⟩ :=
            @Written.sendExtend payloads kcp old buffer len.toNat written last
          unfold KcpRs.ikcpSend at sent ⊢
          rw [if_neg (by omega), if_pos stream] at sent ⊢
          generalize KcpRs.sendExtend kcp buffer len.toNat = extended at sent same written' merged ⊢
          obtain ⟨block, rest, left⟩ := extended
          dsimp only at sent same written' merged ⊢
          split
          · rename_i nothing
            refine ⟨filled, written', numbered, fun alone => absurd alone occupied,
              fun _ whole plain => ?_⟩
            obtain ⟨plain', size, bytes⟩ := merged whole plain
            rw [List.eq_nil_of_length_eq_zero (size.symm.trans nothing), List.append_nil] at bytes
            exact ⟨plain', bytes⟩
          · rename_i more
            rw [if_neg more] at sent
            have positive' : 0 < block.mss := by rwa [same]
            obtain ⟨written'', appended⟩ := written'.sendRest positive' sent
            have next : block.sndNxt = kcp.sndNxt := by rw [same]
            have kept := appended.numbered
            rw [next] at kept
            refine ⟨_, written'', kept.trans numbered, fun alone => absurd alone occupied,
              fun streaming whole plain => ?_⟩
            obtain ⟨plain', size, bytes⟩ := merged whole plain
            obtain ⟨plain'', bytes'⟩ := appended.merged (by rwa [same]) size plain'
            exact ⟨plain'', by rw [bytes', bytes]⟩

end Ikcpcb
end KcpRs
