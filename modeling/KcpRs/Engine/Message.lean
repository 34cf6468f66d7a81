import KcpRs.Engine.Send
import KcpRs.Engine.Receive
import Mathlib.Data.List.Chain

/-!
# Messages and their fragments

`ikcp_send` cuts a message into fragments that count down to zero, or in streaming mode into
payloads that are all numbered zero; `ikcp_recv` joins payloads up to the next zero. `messages`
is what a sequence of payloads says: `Numbered` sequences count down, so a message that has all
its fragments ends with a zero, and a `Whole` sequence is read independently of what follows.
-/

namespace KcpRs

open Lib

/-- The bytes of a list of payloads. -/
def bytesOf (payloads : List Payload) : Bytes := payloads.flatMap Payload.data

theorem bytesOf_append (first second : List Payload) :
    bytesOf (first ++ second) = bytesOf first ++ bytesOf second := List.flatMap_append

theorem bytesOf_map_payload (segs : List Seg) : bytesOf (segs.map Seg.payload) = payloadOf segs := by
  rw [bytesOf, List.flatMap_map]
  rfl

/-- The messages of a list of payloads when `begun` has been read of the first one. -/
def messagesFrom : Bytes → List Payload → List Bytes
  | _, [] => []
  | begun, payload :: rest =>
      if payload.frg = 0 then (begun ++ payload.data) :: messagesFrom [] rest
      else messagesFrom (begun ++ payload.data) rest

/-- The complete messages of a list of payloads. -/
def messages (payloads : List Payload) : List Bytes := messagesFrom [] payloads

/-- Fragments count down to zero. -/
def Numbered (payloads : List Payload) : Prop :=
  payloads.IsChain fun fragment next => fragment.frg ≠ 0 → next.frg.toNat + 1 = fragment.frg.toNat

/-- The last message is complete. -/
def Whole (payloads : List Payload) : Prop := ∀ payload ∈ payloads.getLast?, payload.frg = 0

@[simp] theorem whole_nil : Whole [] := by
  rintro _ ⟨⟩

/-- Complete messages followed by complete messages. -/
theorem Whole.append {first second : List Payload} (whole : Whole first) (whole' : Whole second) :
    Whole (first ++ second) := by
  intro payload last
  rw [List.getLast?_append, Option.mem_def, Option.or_eq_some_iff] at last
  rcases last with last | ⟨_, last⟩
  · exact whole' payload last
  · exact whole payload last

theorem Whole.drop {payloads : List Payload} (whole : Whole payloads) (count : Nat) :
    Whole (payloads.drop count) := by
  intro payload last
  rw [List.getLast?_drop] at last
  split at last
  · cases last
  · exact whole payload last

theorem Numbered.append {first second : List Payload} (numbered : Numbered first)
    (whole : Whole first) (numbered' : Numbered second) : Numbered (first ++ second) :=
  List.isChain_append.2 ⟨numbered, numbered', fun payload last _ _ several =>
    absurd (whole payload last) several⟩

/-- After a complete message reading starts anew. -/
theorem messagesFrom_append {first : List Payload} (whole : Whole first) (some : first ≠ [])
    (begun : Bytes) (second : List Payload) :
    messagesFrom begun (first ++ second) = messagesFrom begun first ++ messages second := by
  induction first generalizing begun with
  | nil => exact absurd rfl some
  | cons payload rest inductionHypothesis =>
      cases rest with
      | nil =>
          have single : payload.frg = 0 := whole payload rfl
          simp [messagesFrom, single, messages]
      | cons next rest =>
          have rest' : Whole (next :: rest) := fun last member =>
            whole last (by rwa [List.getLast?_cons_cons])
          have step (begun : Bytes) := inductionHypothesis rest' (List.cons_ne_nil _ _) begun
          rw [List.cons_append, messagesFrom, messagesFrom]
          split
          · rw [step, List.cons_append]
          · rw [step]

/-- The messages behind complete messages are read on their own. -/
theorem messages_append {first : List Payload} (whole : Whole first) (second : List Payload) :
    messages (first ++ second) = messages first ++ messages second := by
  by_cases none : first = []
  · rw [none]
    rfl
  · exact messagesFrom_append whole none [] second

/-- A sequence that ends with a complete message says a prefix of what the longer one says. -/
theorem messages_take_prefix {payloads : List Payload} {count : Nat}
    (whole : Whole (payloads.take count)) : messages (payloads.take count) <+: messages payloads := by
  have split := messages_append whole (payloads.drop count)
  rw [List.take_append_drop] at split
  exact ⟨_, split.symm⟩

/-- In streaming mode every payload is a message. -/
theorem messages_of_plain {payloads : List Payload} (plain : ∀ payload ∈ payloads, payload.frg = 0) :
    messages payloads = payloads.map Payload.data := by
  induction payloads with
  | nil => rfl
  | cons payload rest inductionHypothesis =>
      rw [List.forall_mem_cons] at plain
      rw [messages, messagesFrom, if_pos plain.1]
      exact congrArg (payload.data :: ·) (inductionHypothesis plain.2)

/-- Segments of streaming mode are complete messages. -/
theorem whole_of_plain {payloads : List Payload} (plain : ∀ payload ∈ payloads, payload.frg = 0) :
    Whole payloads :=
  fun payload last => plain payload (List.mem_of_getLast? last)

theorem numbered_of_plain {payloads : List Payload}
    (plain : ∀ payload ∈ payloads, payload.frg = 0) : Numbered payloads := by
  induction payloads with
  | nil => exact .nil
  | cons payload rest inductionHypothesis =>
      rw [List.forall_mem_cons] at plain
      exact List.isChain_cons.2 ⟨fun _ _ several => absurd plain.1 several,
        inductionHypothesis plain.2⟩

/-! ## What the receiver takes -/

/-- A message is taken from the front of the queue. -/
theorem takeMessage_begins (segs : List Seg) :
    (takeMessage segs).1.map Seg.payload <+: segs.map Seg.payload := by
  refine ⟨(takeMessage segs).2.map Seg.payload, ?_⟩
  rw [← List.map_append, takeMessage_append]

/-- A message ends where a complete one ends. -/
theorem length_takeMessage_le {segs : List Seg} {first second : List Payload}
    (queued : segs.map Seg.payload <+: first ++ second) (whole : Whole first) (some : first ≠ []) :
    (takeMessage segs).1.length ≤ first.length := by
  induction segs generalizing first with
  | nil => exact Nat.zero_le _
  | cons seg rest inductionHypothesis =>
      cases first with
      | nil => exact absurd rfl some
      | cons payload later =>
          rw [List.map_cons, List.cons_append, List.cons_prefix_cons] at queued
          unfold takeMessage
          split
          · exact Nat.succ_le_succ (Nat.zero_le _)
          · rename_i several
            refine Nat.succ_le_succ (inductionHypothesis queued.2 (fun last member => ?_) ?_)
            · cases later with
              | nil => cases member
              | cons next more =>
                  refine whole last ?_
                  rwa [List.getLast?_cons_cons]
            · rintro rfl
              exact several ((congrArg Payload.frg queued.1).trans (whole payload rfl))

/-- A queue that has as many fragments as its first one says holds the message. -/
theorem whole_takeMessage {segs : List Seg} {seg : Seg} {rest : List Seg}
    (numbered : Numbered (segs.map Seg.payload)) (head : segs = seg :: rest)
    (enough : seg.frg.toNat < segs.length) :
    Whole ((takeMessage segs).1.map Seg.payload) ∧ (takeMessage segs).1 ≠ [] := by
  induction segs generalizing seg rest with
  | nil => cases head
  | cons first later inductionHypothesis =>
      cases head
      unfold takeMessage
      split
      · rename_i single
        refine ⟨fun payload last => ?_, List.cons_ne_nil _ _⟩
        cases last
        exact single
      · rename_i several
        refine ⟨?_, List.cons_ne_nil _ _⟩
        cases later with
        | nil =>
            have zero : first.frg = 0 := BitVec.eq_of_toNat_eq (by simpa using enough)
            exact absurd zero several
        | cons next rest =>
            rw [List.map_cons, Numbered, List.map_cons, List.isChain_cons_cons] at numbered
            have count : next.frg.toNat + 1 = first.frg.toNat := numbered.1 several
            obtain ⟨whole, some⟩ := inductionHypothesis numbered.2 rfl
              (by simp only [List.length_cons] at enough ⊢; omega)
            intro payload last
            refine whole payload ?_
            cases message : (takeMessage (next :: rest)).1 with
            | nil => exact absurd message some
            | cons fragment fragments =>
                simpa only [message, List.map_cons, List.getLast?_cons_cons] using last

/-- A complete message is read as the bytes of its fragments. -/
theorem messages_takeMessage {segs : List Seg} (whole : Whole ((takeMessage segs).1.map Seg.payload))
    (some : (takeMessage segs).1 ≠ []) :
    messages ((takeMessage segs).1.map Seg.payload) = [payloadOf (takeMessage segs).1] := by
  have read (segs : List Seg) (begun : Bytes)
      (whole : Whole ((takeMessage segs).1.map Seg.payload)) (some : (takeMessage segs).1 ≠ []) :
      messagesFrom begun ((takeMessage segs).1.map Seg.payload) =
        [begun ++ payloadOf (takeMessage segs).1] := by
    induction segs generalizing begun with
    | nil => exact absurd rfl some
    | cons seg rest inductionHypothesis =>
        unfold takeMessage at whole ⊢
        by_cases single : seg.frg = 0
        · simp [single, messagesFrom, Seg.payload, payloadOf]
        · rw [if_neg single] at whole ⊢
          rw [List.map_cons] at whole ⊢
          have several : seg.payload.frg ≠ 0 := single
          cases message : (takeMessage rest).1 with
          | nil =>
              rw [message] at whole
              exact absurd (whole seg.payload rfl) several
          | cons fragment fragments =>
              have rest' : Whole ((takeMessage rest).1.map Seg.payload) := by
                intro payload last
                refine whole payload ?_
                rw [message, List.map_cons] at last ⊢
                rwa [List.getLast?_cons_cons]
              have some' : (takeMessage rest).1 ≠ [] := by
                rw [message]
                exact List.cons_ne_nil _ _
              have later := inductionHypothesis (begun ++ seg.payload.data) rest' some'
              rw [message] at later
              rw [messagesFrom, if_neg several, later]
              simp [payloadOf, Seg.payload]
  rw [messages, read segs [] whole some]
  rfl

/-- A message is only taken when it is complete. -/
theorem whole_of_ikcpPeeksize {kcp : Ikcpcb} (counted : kcp.Counted)
    (numbered : Numbered (kcp.rcvQueue.map Seg.payload)) (complete : 0 ≤ ikcpPeeksize kcp) :
    Whole ((takeMessage kcp.rcvQueue).1.map Seg.payload) ∧ (takeMessage kcp.rcvQueue).1 ≠ [] := by
  have count := counted.rcvQueue
  unfold ikcpPeeksize at complete
  split at complete
  · omega
  · rename_i seg rest queue
    refine whole_takeMessage numbered queue ?_
    split at complete
    · rename_i single
      simp [queue, single]
    · split at complete
      · omega
      · omega

/-! ## What the sender cuts -/

/-- The fragments of `len` bytes of a buffer with nothing to append to. -/
def Ikcpcb.fragments (kcp : Ikcpcb) (buffer : Bytes) (len : Nat) : List Payload :=
  (sendFragments kcp.mss kcp.stream (fragmentCount kcp.mss len) buffer len).map Seg.payload

theorem plain_sendFragments {mss count : Nat} {buffer : Bytes} {len : Nat} :
    ∀ payload ∈ (sendFragments mss true count buffer len).map Seg.payload, payload.frg = 0 := by
  induction count generalizing buffer len with
  | zero => simp [sendFragments]
  | succ count inductionHypothesis =>
      rw [sendFragments, List.map_cons, List.forall_mem_cons]
      exact ⟨rfl, inductionHypothesis⟩

/-- Fragments of message mode are one message. -/
theorem sendFragments_message {mss count : Nat} (few : count < 256) (buffer : Bytes) (len : Nat) :
    Numbered ((sendFragments mss false (count + 1) buffer len).map Seg.payload) ∧
      Whole ((sendFragments mss false (count + 1) buffer len).map Seg.payload) ∧
      ∀ begun, messagesFrom begun ((sendFragments mss false (count + 1) buffer len).map Seg.payload) =
        [begun ++ payloadOf (sendFragments mss false (count + 1) buffer len)] := by
  induction count generalizing buffer len with
  | zero =>
      refine ⟨.singleton _, fun payload last => ?_, fun begun => ?_⟩
      · cases last
        rfl
      · simp [sendFragments, messagesFrom, Seg.payload, payloadOf]
  | succ count inductionHypothesis =>
      obtain ⟨numbered, whole, read⟩ := inductionHypothesis (by omega)
        (buffer.drop (if mss < len then mss else len)) (len - if mss < len then mss else len)
      have several : BitVec.ofNat 8 (count + 1) ≠ 0 := fun zero => by
        have same := congrArg BitVec.toNat zero
        rw [BitVec.toNat_ofNat, Nat.mod_eq_of_lt few] at same
        exact Nat.succ_ne_zero _ same
      rw [sendFragments, List.map_cons]
      refine ⟨List.isChain_cons.2 ⟨fun next first _ => ?_, numbered⟩, fun payload last => ?_,
        fun begun => ?_⟩
      · rw [sendFragments, List.map_cons, List.head?_cons, Option.mem_some_iff] at first
        subst first
        simp only [Seg.payload, Bool.false_eq_true, if_false, BitVec.toNat_ofNat]
        omega
      · refine whole payload ?_
        rw [sendFragments, List.map_cons] at last ⊢
        rwa [List.getLast?_cons_cons] at last
      · rw [messagesFrom, if_neg (by simpa [Seg.payload] using several), read]
        simp [payloadOf, Seg.payload]

end KcpRs
