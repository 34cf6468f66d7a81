import KcpRs.Engine.Send
import KcpRs.Engine.Input
import KcpRs.Engine.Flush

/-!
# What every operation of the engine keeps

`EngineStable` is a property of the control block that no operation of a running session
breaks: the setters that only run before the first segment are not among them. What the settings
decide is one, the counters agree with the queues, and what waits is made of data segments of at
most `mss` bytes.
-/

namespace KcpRs

open Lib

/-- A property of the control block that every operation of a session keeps. -/
structure EngineStable (Invariant : Ikcpcb → Prop) : Prop where
  update : ∀ kcp now, Invariant kcp → Invariant (ikcpUpdate kcp now).1
  flush : ∀ kcp, Invariant kcp → Invariant (ikcpFlush kcp).1
  send : ∀ kcp data len, Invariant kcp → Invariant (ikcpSend kcp data len).2
  input : ∀ kcp data, Invariant kcp → Invariant (ikcpInput kcp data).2
  recv : ∀ kcp, Invariant kcp → Invariant (recvMoved kcp false)
  nodelay : ∀ kcp nodelay interval resend nc, Invariant kcp →
    Invariant (ikcpNodelay kcp nodelay interval resend nc)
  conv : ∀ kcp conv, Invariant kcp → Invariant { kcp with conv }

/-- The counters are right whatever is called. -/
theorem engineStable_counted : EngineStable Ikcpcb.Counted where
  update _ now counted := counted.ikcpUpdate now
  flush _ counted := counted.ikcpFlush
  send _ data len counted := counted.ikcpSend data len
  input _ data counted := counted.ikcpInput data
  recv _ counted := counted.recvMoved false
  nodelay _ _ _ _ _ counted := counted.ikcpNodelay _ _ _ _
  conv _ _ counted := ⟨counted.sndQueue, counted.sndBuf, counted.rcvQueue, counted.rcvBuf⟩

/-- What the settings decide, every operation keeps that does not set them. -/
theorem engineStable_of_settings {Invariant : Ikcpcb → Prop}
    (kept : ∀ kcp kcp' : Ikcpcb, kcp'.settings = kcp.settings → Invariant kcp → Invariant kcp')
    (nodelay : ∀ kcp nodelay interval resend nc, Invariant kcp →
      Invariant (ikcpNodelay kcp nodelay interval resend nc)) : EngineStable Invariant where
  update kcp now := kept _ _ (settings_ikcpUpdate kcp now)
  flush kcp := kept _ _ (settings_ikcpFlush kcp)
  input kcp data := kept _ _ (settings_ikcpInput kcp data)
  send kcp data len := by
    obtain ⟨queue, count, equal⟩ := ikcpSend_queue kcp data len
    rw [equal]
    exact kept kcp _ rfl
  recv kcp := by
    obtain ⟨probe, equal⟩ := recvMoved_eq kcp false
    rw [equal]
    exact kept kcp _ rfl
  nodelay := nodelay
  conv kcp _ := kept kcp _ rfl

/-! ## Segments in flight -/

/-- Segments in flight are data segments, and none that waits is larger than `mss`. -/
structure Ikcpcb.Sound (kcp : Ikcpcb) : Prop where
  push : ∀ seg ∈ kcp.sndBuf, seg.cmd = ikcpCmdPush
  sized : ∀ payload ∈ kcp.pending, payload.data.length ≤ kcp.mss

/-- A flush gives out the numbers from `snd_nxt` on. -/
theorem Ikcpcb.Sound.ikcpFlush {kcp : Ikcpcb} (sound : kcp.Sound) : (ikcpFlush kcp).1.Sound := by
  have mss : (KcpRs.ikcpFlush kcp).1.mss = kcp.mss :=
    congrArg Ikcpcb.Settings.mss (settings_ikcpFlush kcp)
  constructor
  · cases updated : kcp.updated with
    | false =>
        rw [KcpRs.ikcpFlush, if_pos updated]
        exact sound.push
    | true =>
        have moved : ∀ seg ∈ (flushMoved kcp).sndBuf, seg.cmd = ikcpCmdPush := by
          refine flushMove_induct
            (fun block => ∀ seg ∈ block.sndBuf, seg.cmd = ikcpCmdPush) ?_ _ _ ?_
          · intro block newseg rest _ holds seg member
            rcases List.mem_append.1 member with earlier | last
            · exact holds seg earlier
            · rw [List.mem_singleton.1 last]
          · have same : (flushProbed kcp).sndBuf = kcp.sndBuf :=
              congrArg Ikcpcb.Sender.sndBuf (sender_flushProbed kcp)
            rw [same]
            exact sound.push
        intro seg member
        rw [sndBuf_ikcpFlush updated] at member
        obtain ⟨old, inside, rfl⟩ := List.mem_map.1 member
        exact (flushVisit_kept _ _ old).2.2.1.trans (moved old inside)
  · rw [pending_ikcpFlush, mss]
    exact sound.sized

/-- The numbers are in order whatever is called. -/
theorem engineStable_sound : EngineStable Ikcpcb.Sound where
  flush _ sound := sound.ikcpFlush
  update kcp now sound := ikcpUpdate_induct _
    (fun _ _ _ holds => ⟨holds.push, holds.sized⟩) (fun _ holds => holds.ikcpFlush) sound now
  send kcp data len sound := by
    have queued : kcp.Sized := fun seg member => sound.sized seg.payload (by
      simp only [Ikcpcb.pending, List.map_append, List.mem_append]
      exact .inr (List.mem_map_of_mem member))
    have queued' := queued.ikcpSend data len
    obtain ⟨queue, count, equal⟩ := ikcpSend_queue kcp data len
    rw [equal] at queued' ⊢
    refine ⟨sound.push, fun payload member => ?_⟩
    obtain ⟨seg, inside, rfl⟩ := List.mem_map.1 member
    rcases List.mem_append.1 inside with buffered | fresh
    · refine sound.sized seg.payload ?_
      simp only [Ikcpcb.pending, List.map_append, List.mem_append]
      exact .inl (List.mem_map_of_mem buffered)
    · exact queued' seg fresh
  input kcp data sound := by
    have mss : (ikcpInput kcp data).2.mss = kcp.mss :=
      congrArg Ikcpcb.Settings.mss (settings_ikcpInput kcp data)
    refine ⟨fun seg member => ?_, fun payload member => ?_⟩
    · have commands := (ikcpInput_sndBuf Seg.cmd (fun _ _ => rfl) kcp data).subset
        (List.mem_map_of_mem member)
      obtain ⟨old, inside, same⟩ := List.mem_map.1 commands
      exact same.symm.trans (sound.push old inside)
    · rw [mss]
      exact sound.sized payload ((pending_ikcpInput kcp data).subset member)
  recv kcp sound := by
    obtain ⟨probe, equal⟩ := recvMoved_eq kcp false
    rw [equal]
    exact ⟨sound.push, sound.sized⟩
  nodelay _ _ _ _ _ sound := ⟨sound.push, sound.sized⟩
  conv _ _ sound := ⟨sound.push, sound.sized⟩

end KcpRs
