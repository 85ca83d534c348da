import RcCarControl.Driver.RingSafety

/-!
# Starts that fail

`xrcc_cam_start_streaming` with its return value and the buffers it gives back.  `vdma_ctrl_configure` finds a slot without
a buffer or an address, resets the VDMA again and returns an error; the caller drops it, starts the receiver and returns 0.
A slot that is left over from an earlier session, with a buffer that is not queued, is not even found.

So the call keeps what it owes to videobuf2 exactly if every slot holds a queued buffer, or it refuses the format while no
buffer is registered (`startsWhole_iff`).
-/

namespace RcCarControl.Driver

open Fpga Lts

variable {n : Nat}

/-! ### The call -/

def einval : Int := 22

/-- What a call of `xrcc_cam_start_streaming` comes back with. -/
structure Started (n : Nat) where
  retVal : Int
  after : Streaming n
  returned : Returned

/-- `xrcc_cam_start_streaming`: the return value of `vdma_ctrl_configure` is not looked at, and no buffer is given back. -/
def Streaming.xrccCamStartStreaming [NeZero n] (s : Streaming n) (fmtIdx : Nat) (bus : BusIn) : Started n where
  retVal := if xrccCamFormats.length ≤ fmtIdx then -einval else 0
  after := s.startStreaming fmtIdx bus
  returned := []

/-- The slot holds a buffer that is queued. -/
structure XrccCamBuf.Queued (slot : XrccCamBuf) : Prop where
  buf : slot.buf ≠ none
  addr : slot.addr ≠ 0
  registered : slot.registered = true

/-- A start that succeeds has programmed the VDMA with all slots, each with a queued buffer, and started it; one for which
there is a slot without a queued buffer fails, leaves the receiver as it was and gives every registered buffer back. -/
structure Streaming.StartsWhole [NeZero n] (s : Streaming n) (fmtIdx : Nat) (bus : BusIn) : Prop where
  success : (s.xrccCamStartStreaming fmtIdx bus).retVal = 0 →
    (s.xrccCamStartStreaming fmtIdx bus).after.vdma.running = true ∧ ∀ i, (s.capture.dev.vectBufs i).Queued ∧
      (s.xrccCamStartStreaming fmtIdx bus).after.vdma.startAddr i = (s.capture.dev.vectBufs i).addr
  failure : ¬ (∀ i, (s.capture.dev.vectBufs i).Queued) → (s.xrccCamStartStreaming fmtIdx bus).retVal < 0 ∧
    (s.xrccCamStartStreaming fmtIdx bus).after.regs.rxEnable = s.regs.rxEnable ∧
    (s.xrccCamStartStreaming fmtIdx bus).after.regs.vdmaFrameInten = s.regs.vdmaFrameInten ∧
    ∀ i vbuf, (s.capture.dev.vectBufs i).registered = true → (s.capture.dev.vectBufs i).buf = some vbuf →
      vbuf ∈ (s.xrccCamStartStreaming fmtIdx bus).returned.map Prod.fst

/-! ### The VDMA -/

theorem vdmaFill_some {dev : XrccCamDev n} (vdma : Vdma n) (is : List (Fin n))
    (h : ∀ i ∈ is, (dev.vectBufs i).buf ≠ none ∧ (dev.vectBufs i).addr ≠ 0) :
    ∃ vdma', vdmaFill dev vdma is = some vdma' := by
  induction is generalizing vdma with
  | nil => exact ⟨vdma, rfl⟩
  | cons j is ih =>
    obtain ⟨hbuf, haddr⟩ := h j List.mem_cons_self
    rw [vdmaFill, if_neg (not_or.2 ⟨hbuf, haddr⟩)]
    exact ih _ fun i hi => h i (List.mem_cons_of_mem j hi)

/-- With a buffer in every slot the VDMA is started. -/
theorem vdmaCtrlConfigure_started [NeZero n] {dev : XrccCamDev n} (vdma : Vdma n) (width height bpp : U32)
    (h : ∀ i, (dev.vectBufs i).buf ≠ none ∧ (dev.vectBufs i).addr ≠ 0) :
    (vdmaCtrlConfigure dev vdma width height bpp).running = true := by
  obtain ⟨vdma', hfill⟩ := vdmaFill_some (vdmaCtrlReset vdma) (List.finRange n) fun i _ => h i
  rw [vdmaCtrlConfigure, hfill]

/-! ### The start -/

section

variable [NeZero n] {s : Streaming n} {fmtIdx : Nat} (bus : BusIn)

theorem startStreaming_refused (h : xrccCamFormats.length ≤ fmtIdx) : s.startStreaming fmtIdx bus = s := by
  unfold Streaming.startStreaming
  rw [List.getElem?_eq_none h]

/-- With a queued buffer in every slot the VDMA runs over their addresses. -/
theorem startStreaming_queued (h : fmtIdx < xrccCamFormats.length) (hall : ∀ i, (s.capture.dev.vectBufs i).Queued) :
    (s.startStreaming fmtIdx bus).vdma.running = true ∧
      ∀ i, (s.startStreaming fmtIdx bus).vdma.startAddr i = (s.capture.dev.vectBufs i).addr := by
  unfold Streaming.startStreaming
  rw [List.getElem?_eq_getElem h]
  have hrun (width height bpp : U32) :=
    vdmaCtrlConfigure_started s.vdma width height bpp fun i => ⟨(hall i).buf, (hall i).addr⟩
  refine ⟨hrun _ _ _, ?_⟩
  intro i
  exact (vdmaCtrlConfigure_programmed s.capture.dev s.vdma _ _ _ (hrun _ _ _) i).2

theorem startsWhole_of_queued (hall : ∀ i, (s.capture.dev.vectBufs i).Queued) : s.StartsWhole fmtIdx bus := by
  constructor
  · intro hret
    have hfmt : fmtIdx < xrccCamFormats.length := by
      by_contra hge
      rw [Streaming.xrccCamStartStreaming, if_pos (Nat.not_lt.1 hge)] at hret
      cases hret
    obtain ⟨hrun, haddr⟩ := startStreaming_queued bus hfmt hall
    exact ⟨hrun, fun i => ⟨hall i, haddr i⟩⟩
  · intro hnot
    exact absurd hall hnot

/-- A format that is refused changes nothing, which is enough if there is no buffer to give back. -/
theorem startsWhole_of_refused (hfmt : xrccCamFormats.length ≤ fmtIdx)
    (hnone : ∀ i, (s.capture.dev.vectBufs i).registered = true → (s.capture.dev.vectBufs i).buf = none) :
    s.StartsWhole fmtIdx bus := by
  have hret : (s.xrccCamStartStreaming fmtIdx bus).retVal = -einval := if_pos hfmt
  have hafter : (s.xrccCamStartStreaming fmtIdx bus).after = s := startStreaming_refused bus hfmt
  constructor
  · intro hzero
    rw [hret] at hzero
    cases hzero
  · intro _
    rw [hret, hafter]
    refine ⟨by decide, rfl, rfl, ?_⟩
    intro i vbuf hregistered hbuf
    rw [hnone i hregistered] at hbuf
    cases hbuf

end

/-- The call keeps its promises exactly if every slot holds a queued buffer, or it refuses the format and there is no
buffer to give back. -/
theorem startsWhole_iff [NeZero n] (s : Streaming n) (fmtIdx : Nat) (bus : BusIn) :
    s.StartsWhole fmtIdx bus ↔ (∀ i, (s.capture.dev.vectBufs i).Queued) ∨
      xrccCamFormats.length ≤ fmtIdx ∧
        ∀ i, (s.capture.dev.vectBufs i).registered = true → (s.capture.dev.vectBufs i).buf = none := by
  constructor
  · intro h
    by_cases hfmt : xrccCamFormats.length ≤ fmtIdx
    · by_cases hall : ∀ i, (s.capture.dev.vectBufs i).Queued
      · exact Or.inl hall
      · right
        obtain ⟨-, -, -, hback⟩ := h.failure hall
        refine ⟨hfmt, ?_⟩
        intro i hregistered
        cases hbuf : (s.capture.dev.vectBufs i).buf with
        | none => rfl
        -- no call of `vb2_buffer_done` is made
        | some vbuf => cases hback i vbuf hregistered hbuf
    · -- with a format the call returns 0, whatever the slots hold
      left
      intro i
      exact ((h.success (if_neg hfmt)).2 i).1
  · rintro (hall | ⟨hfmt, hnone⟩)
    · exact startsWhole_of_queued bus hall
    · exact startsWhole_of_refused bus hfmt hnone

/-- Three buffers are allocated and queued. -/
def threeQueued : List StreamEvent :=
  [.alloc 0x1000, .alloc 0x2000, .alloc 0x3000, .queue 0 0x1000, .queue 1 0x2000, .queue 2 0x3000]

theorem startsWhole_threeQueued :
    ∃ s, exec (Streaming.step namedSlot) (Streaming.probed 3 (Vdma.off 3)) threeQueued = some s ∧
      s.StartsWhole 0 (busIn 0) := by
  obtain ⟨s, hs, hall⟩ : ∃ s, exec (Streaming.step namedSlot) (Streaming.probed 3 (Vdma.off 3)) threeQueued = some s ∧
      ∀ i, (s.capture.dev.vectBufs i).buf ≠ none ∧ (s.capture.dev.vectBufs i).addr ≠ 0 ∧
        (s.capture.dev.vectBufs i).registered = true :=
    exists_exec (by decide)
  exact ⟨s, hs, (startsWhole_iff s 0 (busIn 0)).2 (Or.inl fun i => ⟨(hall i).1, (hall i).2.1, (hall i).2.2⟩)⟩

/-- A session that ends while user space holds the first buffer; then all buffers are replaced and queued. -/
def leftOver : List StreamEvent :=
  threeQueued ++ [.start 0 (busIn 0), .frame, .irq (busIn 1), .stop (busIn 1), .free 0, .free 1, .free 2,
    .alloc 0x4000, .alloc 0x5000, .alloc 0x6000, .queue 3 0x4000, .queue 4 0x5000, .queue 5 0x6000]

/-- The next start returns 0 with the address of the first buffer, which no longer exists, programmed. -/
theorem not_startsWhole_leftOver :
    ∃ s, exec (Streaming.step namedSlot) (Streaming.probed 3 (Vdma.off 3)) leftOver = some s ∧ s.AllQueued ∧
      ¬ s.StartsWhole 0 (busIn 1) := by
  obtain ⟨s, hs, hqueued, hstale⟩ :
      ∃ s, exec (Streaming.step namedSlot) (Streaming.probed 3 (Vdma.off 3)) leftOver = some s ∧
        s.AllQueued ∧ (s.capture.dev.vectBufs 0).registered = false :=
    exists_exec (by decide)
  refine ⟨s, hs, hqueued, ?_⟩
  intro h
  have hregistered := ((h.success rfl).2 0).1.registered
  rw [hstale] at hregistered
  cases hregistered

end RcCarControl.Driver
