import RcCarControl.Driver.StopRace

/-!
# The frame interrupt and its handler

The frame-interrupt logic of `video_ctrl_axi` composed with `xrcc_cam_irq_handler`, clock by clock, from the clock at
which the driver enables the interrupt.  The frame pointer is an input of every clock; the handler may read RX_CTRL at
any clock and write the value back at any later one.

A change of the pointer is lost when it falls between the read and the clearing of the interrupt: the interrupt is
pending already, so the change leaves no trace in it, and the write-back acknowledges both.  A clock is `Caught` when
this does not happen; while all clocks are, a change the handler has not seen keeps the interrupt pending.
-/

namespace RcCarControl.Driver

open Fpga

/-- What the handler does on the bus at a clock. -/
inductive IrqAccess where
  | none
  | read
  | write
deriving DecidableEq

structure IrqEdge where
  vdmaFramePtrI : BitVec 6
  rx : RxStatus
  access : IrqAccess

structure FrameIrq where
  regs : VideoCtrlRegs
  /-- The value of RX_CTRL a running handler has read and not yet written back. -/
  handler : Option U32
  /-- The pointer changed since the handler's latest read, or since the interrupt was enabled. -/
  changed : Bool
  /-- The clocks since the last change of the pointer. -/
  stable : Nat

/-- The state after the clock at which `video_ctrl_inten` writes back `ctrl` with INTEN set. -/
def FrameIrq.enabled (regs : VideoCtrlRegs) (vdmaFramePtrI : BitVec 6) (ctrl : U32) : FrameIrq where
  regs := regs.clock vdmaFramePtrI (some (regAddr videoCtrlRxCtrl, ctrl ||| rxCtrlInten))
  handler := none
  changed := false
  stable := 0

/-- The pointer on the input is not the one of the previous clock. -/
def FrameIrq.Moves (s : FrameIrq) (e : IrqEdge) : Prop := s.regs.vdmaFramePtrI ≠ e.vdmaFramePtrI

instance (s : FrameIrq) (e : IrqEdge) : Decidable (s.Moves e) :=
  inferInstanceAs (Decidable (_ ≠ _))

def FrameIrq.step (s : FrameIrq) (e : IrqEdge) : Option FrameIrq :=
  let clock wr := s.regs.clock e.vdmaFramePtrI wr
  let changed := s.changed || decide (s.Moves e)
  let stable := if s.Moves e then 0 else s.stable + 1
  match e.access, s.handler with
  | .none, handler => some ⟨clock none, handler, changed, stable⟩
  | .read, none =>
    -- the read decode takes the pointer from the input, so it sees a change at this very clock
    some ⟨clock none, some (s.regs.read e.vdmaFramePtrI e.rx (regAddr videoCtrlRxCtrl)), false, stable⟩
  | .write, some rxCtrlReg =>
    some ⟨clock (some (regAddr videoCtrlRxCtrl, rxCtrlReg)), none, changed, stable⟩
  | _, _ => none

/-- With no interrupt pending and the pointer stable for two clocks, the handler has seen every change. -/
def FrameIrq.AllSeen (s : FrameIrq) : Prop :=
  s.regs.vdmaFrameInt = false → 2 ≤ s.stable → s.changed = false

instance (s : FrameIrq) : Decidable s.AllSeen :=
  inferInstanceAs (Decidable (_ → _ → _))

/-- The pointer does not change at this clock, or the handler reads it at this clock, or neither the clear strobe is up
nor a handler is about to raise it. -/
def Caught (s : FrameIrq) (e : IrqEdge) : Prop :=
  s.Moves e → e.access = .read ∨
    s.regs.vdmaFrameIntClear = false ∧ ∀ rxCtrlReg ∈ s.handler, intBit rxCtrlReg = false

instance (s : FrameIrq) (e : IrqEdge) : Decidable (Caught s e) :=
  have : Decidable (∀ rxCtrlReg ∈ s.handler, intBit rxCtrlReg = false) :=
    decidable_of_iff (s.handler.all fun rxCtrlReg => !intBit rxCtrlReg) (by simp [Option.all_eq_true])
  inferInstanceAs (Decidable (_ → _ ∨ _ ∧ _))

/-! ### The interrupt remembers what was not seen -/

/-- INTEN stays set, and a change the handler has not seen keeps the interrupt pending with nobody about to clear it. -/
structure Pending (s : FrameIrq) : Prop where
  inten : s.regs.vdmaFrameInten = true
  held : ∀ rxCtrlReg ∈ s.handler, intenBit rxCtrlReg = true
  pending : s.changed = true → s.regs.vdmaFrameInt = true ∧ s.regs.vdmaFrameIntClear = false ∧
    ∀ rxCtrlReg ∈ s.handler, intBit rxCtrlReg = false

theorem pending_enabled (regs : VideoCtrlRegs) (p : BitVec 6) (ctrl : U32) :
    Pending (.enabled regs p ctrl) := by
  refine ⟨?_, by simp [FrameIrq.enabled], by simp [FrameIrq.enabled]⟩
  simp [FrameIrq.enabled, regAddr_rxCtrl, intenBit, rxCtrlInten]

theorem FrameIrq.step_cases {s t : FrameIrq} {e : IrqEdge} (h : s.step e = some t) :
    (e.access = .none ∧ t = ⟨s.regs.clock e.vdmaFramePtrI none, s.handler, s.changed || decide (s.Moves e),
        if s.Moves e then 0 else s.stable + 1⟩) ∨
    (e.access = .read ∧ s.handler = none ∧
      t = ⟨s.regs.clock e.vdmaFramePtrI none, some (s.regs.rxCtrl e.vdmaFramePtrI), false,
        if s.Moves e then 0 else s.stable + 1⟩) ∨
    (∃ rxCtrlReg, e.access = .write ∧ s.handler = some rxCtrlReg ∧
      t = ⟨s.regs.clock e.vdmaFramePtrI (some (rxCtrlAddr, rxCtrlReg)), none, s.changed || decide (s.Moves e),
        if s.Moves e then 0 else s.stable + 1⟩) := by
  unfold FrameIrq.step at h
  cases ha : e.access with
  | none =>
    simp only [ha, Option.some.injEq] at h
    exact .inl ⟨rfl, h.symm⟩
  | read =>
    cases hh : s.handler with
    | none =>
      simp only [ha, hh, Option.some.injEq] at h
      exact .inr (.inl ⟨rfl, rfl, h.symm⟩)
    | some v => simp [ha, hh] at h
  | write =>
    cases hh : s.handler with
    | none => simp [ha, hh] at h
    | some v =>
      simp only [ha, hh, Option.some.injEq] at h
      exact .inr (.inr ⟨v, rfl, rfl, h.symm⟩)

/-- The interrupt after a clock without the clear strobe: it stays pending, and a change makes it pending. -/
theorem frameInt_of_changed {s : FrameIrq} {e : IrqEdge} (hen : s.regs.vdmaFrameInten = true)
    (hclear : s.regs.vdmaFrameIntClear = false) (h : s.regs.vdmaFrameInt = true ∨ s.Moves e) :
    s.regs.frameInt e.vdmaFramePtrI = true := by
  unfold VideoCtrlRegs.frameInt
  by_cases hm : s.Moves e
  · have hm' : s.regs.vdmaFramePtrI ≠ e.vdmaFramePtrI := hm
    simp [hclear, hm', hen]
  · have hm' : s.regs.vdmaFramePtrI = e.vdmaFramePtrI := not_not.1 hm
    simp [hclear, hm', h.resolve_right hm]

theorem Pending.step {s t : FrameIrq} {e : IrqEdge} (h : Pending s) (hc : Caught s e) (hs : s.step e = some t) :
    Pending t := by
  -- a change still unseen after a clock other than a read was pending before it, or comes with it
  have still : (s.changed || decide (s.Moves e)) = true → e.access ≠ .read →
      s.regs.frameInt e.vdmaFramePtrI = true ∧ ∀ rxCtrlReg ∈ s.handler, intBit rxCtrlReg = false := by
    intro hch hr
    by_cases hm : s.Moves e
    · obtain ⟨hclear, hv⟩ := (hc hm).resolve_left hr
      exact ⟨frameInt_of_changed h.inten hclear (.inr hm), hv⟩
    · have hch' : s.changed = true := by simpa [hm] using hch
      obtain ⟨hint, hclear, hv⟩ := h.pending hch'
      exact ⟨frameInt_of_changed h.inten hclear (.inl hint), hv⟩
  rcases FrameIrq.step_cases hs with ⟨ha, rfl⟩ | ⟨ha, -, rfl⟩ | ⟨v, ha, hv, rfl⟩
  · refine ⟨h.inten, h.held, fun hch => ?_⟩
    obtain ⟨hint, hh⟩ := still hch (by simp [ha])
    exact ⟨hint, rfl, hh⟩
  · refine ⟨h.inten, ?_, by simp⟩
    simpa using h.inten
  · refine ⟨h.held v hv, by simp, fun hch => ?_⟩
    obtain ⟨hint, hh⟩ := still hch (by simp [ha])
    exact ⟨hint, hh v hv, by simp⟩

/-! ### A clock that is not caught -/

/-- A clock without a bus access and without a change of the pointer. -/
def FrameIrq.quiet (s : FrameIrq) (access : IrqAccess) : IrqEdge :=
  ⟨s.regs.vdmaFramePtrI, ⟨0, 0, 0, 0, false, false, 0, false, true, 0⟩, access⟩

theorem FrameIrq.step_quiet_none (s : FrameIrq) : s.step (s.quiet .none) =
    some ⟨s.regs.clock s.regs.vdmaFramePtrI none, s.handler, s.changed, s.stable + 1⟩ := by
  simp [FrameIrq.step, FrameIrq.quiet, FrameIrq.Moves]

theorem FrameIrq.step_quiet_write {s : FrameIrq} {rxCtrlReg : U32} (h : s.handler = some rxCtrlReg) :
    s.step (s.quiet .write) =
      some ⟨s.regs.clock s.regs.vdmaFramePtrI (some (rxCtrlAddr, rxCtrlReg)), none, s.changed, s.stable + 1⟩ := by
  simp [FrameIrq.step, FrameIrq.quiet, FrameIrq.Moves, h, regAddr_rxCtrl]

/-- Without a change of the pointer nothing makes the interrupt pending. -/
theorem frameInt_of_still {r : VideoCtrlRegs} {p : BitVec 6} (hp : r.vdmaFramePtrI = p)
    (hint : r.vdmaFrameInt = false ∨ r.vdmaFrameIntClear = true) : r.frameInt p = false := by
  unfold VideoCtrlRegs.frameInt
  rcases hint with hint | hclear
  · simp [hint, hp]
  · simp [hclear]

/-- An unseen change is gone two clocks later if the interrupt is not pending or about to be cleared. -/
theorem lost_after_idle {s : FrameIrq} (hch : s.changed = true)
    (hint : s.regs.vdmaFrameInt = false ∨ s.regs.vdmaFrameIntClear = true) :
    ∃ es u, Lts.exec FrameIrq.step s es = some u ∧ ¬ u.AllSeen := by
  refine ⟨[s.quiet .none, FrameIrq.quiet _ .none], _,
    Lts.exec_cons s.step_quiet_none (Lts.exec_cons (FrameIrq.step_quiet_none _) rfl), fun hall => ?_⟩
  have h₁ : (s.regs.clock s.regs.vdmaFramePtrI none).vdmaFrameInt = false := by
    rw [VideoCtrlRegs.clock_int]
    exact frameInt_of_still rfl hint
  have h₂ := frameInt_of_still (VideoCtrlRegs.clock_ptr (r := s.regs) s.regs.vdmaFramePtrI none) (.inl h₁)
  have hlost := hall h₂ (by simp only; omega)
  rw [hch] at hlost
  cases hlost

/-- After any other clock the change can be lost. -/
theorem lost_of_not_caught {s t : FrameIrq} {e : IrqEdge} (hc : ¬ Caught s e) (hs : s.step e = some t) :
    ∃ es u, Lts.exec FrameIrq.step t es = some u ∧ ¬ u.AllSeen := by
  obtain ⟨hm, hnot⟩ := Classical.not_imp.1 hc
  obtain ⟨hr, hclear⟩ := not_or.1 hnot
  have hframe : s.regs.vdmaFrameIntClear = true → s.regs.frameInt e.vdmaFramePtrI = false := fun h => by
    simp [VideoCtrlRegs.frameInt, h]
  have hback : s.regs.vdmaFrameIntClear = false → ∃ rxCtrlReg, s.handler = some rxCtrlReg ∧ intBit rxCtrlReg = true := by
    intro h
    by_contra hno
    refine hclear ⟨h, fun v hv => ?_⟩
    by_contra h5
    exact hno ⟨v, hv, by simpa using h5⟩
  rcases FrameIrq.step_cases hs with ⟨-, rfl⟩ | ⟨ha, -⟩ | ⟨v, -, hv, rfl⟩
  · cases hcl : s.regs.vdmaFrameIntClear with
    | true => exact lost_after_idle (by simp [hm]) (.inl (hframe hcl))
    | false =>
      -- the handler writes back at the next clock
      obtain ⟨v, hv, h5⟩ := hback hcl
      obtain ⟨es, u, hu, hlost⟩ := lost_after_idle (s := ⟨(s.regs.clock e.vdmaFramePtrI none).clock _
        (some (rxCtrlAddr, v)), none, s.changed || decide (s.Moves e), (if s.Moves e then 0 else s.stable + 1) + 1⟩)
        (by simp [hm]) (.inr h5)
      exact ⟨FrameIrq.quiet _ .write :: es, u, Lts.exec_cons (FrameIrq.step_quiet_write hv) hu, hlost⟩
  · exact absurd ha hr
  · cases hcl : s.regs.vdmaFrameIntClear with
    | true => exact lost_after_idle (by simp [hm]) (.inl (hframe hcl))
    | false =>
      obtain ⟨v', hv', h5⟩ := hback hcl
      rw [hv] at hv'
      cases hv'
      exact lost_after_idle (by simp [hm]) (.inr h5)

/-! ### Whole runs -/

/-- In a run whose clocks are all caught, no change of the frame pointer is acknowledged without having been seen. -/
theorem all_seen_of_caught (regs : VideoCtrlRegs) (p : BitVec 6) (ctrl : U32) (es : List IrqEdge) (s : FrameIrq)
    (h : Lts.exec FrameIrq.step (.enabled regs p ctrl) es = some s)
    (hc : Lts.StepsMeet FrameIrq.step Caught (.enabled regs p ctrl) es) : s.AllSeen := by
  have hp : Pending s :=
    Lts.exec_invariant (fun _ _ _ => Pending.step) (pending_enabled regs p ctrl) hc h
  intro hint _
  by_contra hch
  have := (hp.pending (by simpa using hch)).1
  rw [hint] at this
  cases this

/-- A clock with the frame pointer `p`. -/
def irqEdge (p : BitVec 6) (access : IrqAccess) : IrqEdge :=
  ⟨p, ⟨0, 0, 0, 0, false, false, 0, false, true, 0⟩, access⟩

/-- One frame: the pointer changes, the handler reads and writes back, and all is quiet until the next change. -/
def oneFrame : List IrqEdge :=
  [irqEdge 3 .none, irqEdge 3 .read, irqEdge 3 .none, irqEdge 3 .write, irqEdge 3 .none, irqEdge 3 .none,
    irqEdge 2 .none]

theorem all_seen_of_caught_oneFrame :
    ∃ s, Lts.exec FrameIrq.step (.enabled streaming 1 0x05) oneFrame = some s ∧ s.AllSeen := by
  obtain ⟨s, hs⟩ := Option.isSome_iff_exists.1
    (show (Lts.exec FrameIrq.step (.enabled streaming 1 0x05) oneFrame).isSome = true by decide)
  exact ⟨s, hs, all_seen_of_caught streaming 1 0x05 oneFrame s hs (by decide)⟩

/-- The pointer changes again between the handler's read and its write-back. -/
def twoFrames : List IrqEdge :=
  [irqEdge 3 .none, irqEdge 3 .read, irqEdge 2 .none, irqEdge 2 .write, irqEdge 2 .none, irqEdge 2 .none]

theorem change_before_write_back_lost :
    ¬ ∀ (regs : VideoCtrlRegs) (p : BitVec 6) (ctrl : U32) (es : List IrqEdge) (s : FrameIrq),
      Lts.exec FrameIrq.step (.enabled regs p ctrl) es = some s → s.AllSeen := by
  intro h
  obtain ⟨s, hs, hlost⟩ : ∃ s, Lts.exec FrameIrq.step (.enabled streaming 1 0x05) twoFrames = some s ∧ ¬ s.AllSeen :=
    Lts.exists_exec (by decide)
  exact hlost (h streaming 1 0x05 twoFrames s hs)

end RcCarControl.Driver
