import RcCarControl.Driver.Ownership

/-!
# The shared interrupt line

The interrupt line is requested with `IRQF_SHARED`, so `xrcc_cam_irq_handler` runs for the interrupts of other devices
too, with whatever RX_CTRL holds then.  It never looks at the interrupt bit: it completes the slot that the frame pointer
names if that is registered, and says that it handled the interrupt.

A run is a sequence of calls of the driver and changes of the frame pointer.  It is `Lawful` exactly if every invocation
is `Genuine`: the bit is set, and a slot that is completed was not completed before under the same frame pointer
(`lawful_iff`).
-/

namespace RcCarControl.Driver

open Lts

variable {n : Nat}

/-! ### The handler on a shared line -/

inductive IrqReturn where
  | none
  | handled
deriving DecidableEq

/-- The return value of `xrcc_cam_irq_handler` and the driver after it: both exits return `IRQ_HANDLED`. -/
def irqReturn [NeZero n] (dev : XrccCamDev n) (rxCtrlReg : U32) : Except Fault (IrqReturn × XrccCamDev n) :=
  (xrccCamIrqHandler dev rxCtrlReg).map fun r => (.handled, r.1)

/-- The `vb2_buffer_done` calls of a call. -/
def Capture.completions [NeZero n] (c : Capture n) : Call → Returned
  | .irq rxCtrlReg => ((xrccCamIrqHandler c.dev rxCtrlReg).toOption.map fun r => r.2.1).getD []
  | .stop => ((xrccCamStopStreaming c.dev).toOption.map fun r => r.2).getD []
  | .alloc _ => []
  | .free _ => []
  | .queue _ _ => []

/-- The frame pointer in the value of RX_CTRL is the one that the VDMA has. -/
def Call.Shows (framePtr : BitVec 6) : Call → Prop
  | .irq rxCtrlReg => rxCtrlReg.extractLsb' wrPtrShift 6 = framePtr
  | _ => True

instance (framePtr : BitVec 6) : (e : Call) → Decidable (e.Shows framePtr)
  | .irq _ => inferInstanceAs (Decidable (_ = _))
  | .alloc _ => isTrue trivial
  | .free _ => isTrue trivial
  | .queue _ _ => isTrue trivial
  | .stop => isTrue trivial

/-! ### Runs -/

inductive LineEvent where
  | framePtr (ptr : BitVec 6)
  | call (e : Call)
deriving DecidableEq

/-- The driver and the frame pointer. -/
structure Watched (n : Nat) where
  capture : Capture n
  framePtr : BitVec 6
  /-- The slots that were completed since the frame pointer changed. -/
  completed : Fin n → Bool

def Watched.probed (n : Nat) (framePtr : BitVec 6) : Watched n := ⟨Capture.probed n, framePtr, fun _ => false⟩

namespace Watched

variable [NeZero n] (w : Watched n)

/-- The slot that a call completes. -/
def completes (e : Call) (i : Fin n) : Bool :=
  match e with
  | .irq rxCtrlReg => decide (i = irqIdx rxCtrlReg) && !(w.capture.completions e).isEmpty
  | _ => false

def step : LineEvent → Option (Watched n)
  | .framePtr ptr =>
    some { w with framePtr := ptr, completed := fun i => w.completed i && decide (ptr = w.framePtr) }
  | .call e =>
    if e.Shows w.framePtr then
      (w.capture.step e).map fun c => { w with capture := c, completed := fun i => w.completed i || w.completes e i }
    else none

/-- A buffer is completed only by an invocation of the handler with the interrupt bit set, and not twice under one frame
pointer; an invocation without the bit comes back, says that it is not for this device and changes nothing. -/
def Lawful : LineEvent → Prop
  | .framePtr _ => True
  | .call e =>
    (∀ vbuf sequence, (vbuf, .done sequence) ∈ w.capture.completions e →
      ∃ rxCtrlReg, e = .irq rxCtrlReg ∧ rxCtrlReg &&& rxCtrlInt ≠ 0 ∧ w.completed (irqIdx rxCtrlReg) = false) ∧
    ∀ rxCtrlReg, e = .irq rxCtrlReg → rxCtrlReg &&& rxCtrlInt = 0 →
      irqReturn w.capture.dev rxCtrlReg = .ok (.none, w.capture.dev)

/-- An invocation comes with the bit, and when it gets the lock the slot it names is not registered again under the
frame pointer under which it was completed. -/
def Genuine : LineEvent → Prop
  | .call (.irq rxCtrlReg) => rxCtrlReg &&& rxCtrlInt ≠ 0 ∧ (w.capture.dev.queuedLock = false →
      (w.capture.dev.vectBufs (irqIdx rxCtrlReg)).registered = true → w.completed (irqIdx rxCtrlReg) = false)
  | _ => True

instance : (e : LineEvent) → Decidable (w.Genuine e)
  | .framePtr _ => isTrue trivial
  | .call (.irq _) => inferInstanceAs (Decidable (_ ∧ (_ → _ → _)))
  | .call (.alloc _) => isTrue trivial
  | .call (.free _) => isTrue trivial
  | .call (.queue _ _) => isTrue trivial
  | .call .stop => isTrue trivial

end Watched

/-! ### What is given back -/

/-- `stop_streaming` gives back no finished frame. -/
theorem stopSlot_error {dev dev' : XrccCamDev n} {i : Fin n} {ds : Returned} (h : stopSlot dev i = .ok (dev', ds)) :
    ∀ d ∈ ds, d.2 = .error := by
  cases hl : dev.queuedLock with
  | true =>
    rw [stopSlot_held hl] at h
    cases h
  | false =>
    by_cases hc : ∃ vbuf, Clears (dev.vectBufs i) vbuf
    · obtain ⟨vbuf, hc⟩ := hc
      rw [stopSlot_clears hl hc] at h
      cases h
      simp
    · rw [stopSlot_skips hl (not_exists.1 hc)] at h
      cases h
      simp

theorem stopSlots_error {dev dev' : XrccCamDev n} {is : List (Fin n)} {ds : Returned}
    (h : stopSlots dev is = .ok (dev', ds)) : ∀ d ∈ ds, d.2 = .error := by
  induction is generalizing dev dev' ds with
  | nil =>
    cases h
    simp
  | cons i is ih =>
    cases hfirst : stopSlot dev i with
    | error f => simp [stopSlots, hfirst, bind, Except.bind] at h
    | ok r =>
      obtain ⟨dev₁, ds₁⟩ := r
      cases hrest : stopSlots dev₁ is with
      | error f => simp [stopSlots, hfirst, hrest, bind, Except.bind] at h
      | ok r =>
        obtain ⟨dev₂, ds₂⟩ := r
        simp only [stopSlots, hfirst, hrest, bind, Except.bind, pure, Except.pure, Except.ok.injEq, Prod.mk.injEq] at h
        obtain ⟨-, rfl⟩ := h
        intro d hd
        rcases List.mem_append.1 hd with hd | hd
        · exact stopSlot_error hfirst d hd
        · exact ih hrest d hd

section

variable [NeZero n] {c : Capture n}

theorem not_done_stop (vbuf : Nat) (sequence : U32) : (vbuf, .done sequence) ∉ c.completions .stop := by
  intro hmem
  cases hstop : xrccCamStopStreaming c.dev with
  | error f =>
    rw [Capture.completions, hstop] at hmem
    cases hmem
  | ok r =>
    obtain ⟨dev', ds⟩ := r
    rw [Capture.completions, hstop] at hmem
    cases stopSlots_error hstop _ hmem

/-- A handler that does not get the lock does nothing. -/
theorem irq_spins (h : Accounts c) (hl : c.dev.queuedLock = true) (rxCtrlReg : U32) :
    c.completions (.irq rxCtrlReg) = [] ∧ irqReturn c.dev rxCtrlReg = .error .spins := by
  have hheld : xrccCamIrqHandler c.dev rxCtrlReg = .error .spins := irq_held h.videoMem h.vdmaMem hl
  constructor
  · rw [Capture.completions, hheld]
    rfl
  · rw [irqReturn, hheld]
    rfl

/-- One that gets it says that it handled the interrupt. -/
theorem irq_handled (h : Accounts c) (hl : c.dev.queuedLock = false) (rxCtrlReg : U32) :
    ∃ dev', irqReturn c.dev rxCtrlReg = .ok (.handled, dev') := by
  cases hr : (c.dev.vectBufs (irqIdx rxCtrlReg)).registered with
  | false =>
    rw [irqReturn, irq_unregistered h.videoMem h.vdmaMem hl hr]
    exact ⟨_, rfl⟩
  | true =>
    obtain ⟨vbuf, hb, -⟩ := (h.ledger hl).holds _ hr
    rw [irqReturn, irq_registered h.videoMem h.vdmaMem hl hr hb]
    exact ⟨_, rfl⟩

/-- It completes a frame exactly if the slot that the frame pointer names is registered. -/
theorem done_irq_iff (h : Accounts c) (hl : c.dev.queuedLock = false) (rxCtrlReg : U32) :
    (∃ vbuf sequence, (vbuf, .done sequence) ∈ c.completions (.irq rxCtrlReg)) ↔
      (c.dev.vectBufs (irqIdx rxCtrlReg)).registered = true := by
  cases hr : (c.dev.vectBufs (irqIdx rxCtrlReg)).registered with
  | false =>
    rw [Capture.completions, irq_unregistered h.videoMem h.vdmaMem hl hr]
    constructor
    · rintro ⟨vbuf, sequence, hmem⟩
      cases hmem
    · intro hfalse
      cases hfalse
  | true =>
    obtain ⟨vbuf, hb, -⟩ := (h.ledger hl).holds _ hr
    rw [Capture.completions, irq_registered h.videoMem h.vdmaMem hl hr hb]
    exact ⟨fun _ => rfl, fun _ => ⟨vbuf, c.dev.sequence, List.mem_singleton_self _⟩⟩

end

/-! ### Runs -/

namespace Watched

variable [NeZero n]

/-- A step is a change of the pointer or a call. -/
theorem step_accounts {w w' : Watched n} {e : LineEvent} (h : Accounts w.capture) (hs : w.step e = some w') :
    Accounts w'.capture := by
  cases e with
  | framePtr ptr =>
    cases hs
    exact h
  | call e =>
    simp only [step] at hs
    split at hs
    · obtain ⟨c, hc, rfl⟩ := Option.map_eq_some_iff.1 hs
      exact h.step hc
    · cases hs

/-- No invocation returns `IRQ_NONE`: it handles the interrupt, or it never gets the lock. -/
theorem irqReturn_ne_none {c : Capture n} (h : Accounts c) (rxCtrlReg : U32) (dev : XrccCamDev n) :
    irqReturn c.dev rxCtrlReg ≠ .ok (.none, dev) := by
  intro hnone
  cases hl : c.dev.queuedLock with
  | true =>
    rw [(irq_spins h hl rxCtrlReg).2] at hnone
    cases hnone
  | false =>
    obtain ⟨dev', hret⟩ := irq_handled h hl rxCtrlReg
    rw [hret] at hnone
    cases hnone

theorem lawful_irq_iff {w : Watched n} (h : Accounts w.capture) (rxCtrlReg : U32) :
    w.Lawful (.call (.irq rxCtrlReg)) ↔ w.Genuine (.call (.irq rxCtrlReg)) := by
  constructor
  · rintro ⟨hcompleted, hunclaimed⟩
    refine ⟨fun hbit => irqReturn_ne_none h rxCtrlReg _ (hunclaimed rxCtrlReg rfl hbit), fun hl hr => ?_⟩
    obtain ⟨vbuf, sequence, hmem⟩ := (done_irq_iff h hl rxCtrlReg).2 hr
    obtain ⟨_, heq, -, honce⟩ := hcompleted vbuf sequence hmem
    cases heq
    exact honce
  · rintro ⟨hbit, honce⟩
    constructor
    · intro vbuf sequence hmem
      cases hl : w.capture.dev.queuedLock with
      | true =>
        rw [(irq_spins h hl rxCtrlReg).1] at hmem
        cases hmem
      | false => exact ⟨rxCtrlReg, rfl, hbit, honce hl ((done_irq_iff h hl rxCtrlReg).1 ⟨vbuf, sequence, hmem⟩)⟩
    · intro _ heq hzero
      cases heq
      exact absurd hzero hbit

theorem lawful_iff_genuine {w : Watched n} (h : Accounts w.capture) (e : LineEvent) : w.Lawful e ↔ w.Genuine e := by
  cases e with
  | framePtr ptr => exact Iff.rfl
  | call e =>
    cases e with
    | irq rxCtrlReg => exact lawful_irq_iff h rxCtrlReg
    | stop => simp [Lawful, Genuine, not_done_stop]
    | alloc addr => simp [Lawful, Genuine, Capture.completions]
    | free vbuf => simp [Lawful, Genuine, Capture.completions]
    | queue vbuf addr => simp [Lawful, Genuine, Capture.completions]

theorem lawful_run_iff {w : Watched n} (h : Accounts w.capture) (es : List LineEvent) :
    StepsMeet step Lawful w es ↔ StepsMeet step Genuine w es :=
  stepsMeet_congr (fun _ _ _ h hs => step_accounts h hs) (fun _ e h => lawful_iff_genuine h e) h es

/-- From the probe on, a run is lawful exactly if all invocations of the handler are genuine. -/
theorem lawful_iff (framePtr : BitVec 6) (es : List LineEvent) :
    StepsMeet step Lawful (probed n framePtr) es ↔ StepsMeet step Genuine (probed n framePtr) es :=
  lawful_run_iff (accounts_probed n) es

end Watched

/-- A buffer is queued, and the frame pointer goes to its slot. -/
def oneQueued : List LineEvent := [.call (.alloc 0x1000), .call (.queue 0 0x1000), .framePtr 1]

/-- The frame interrupt comes, and then another one when the buffer is queued again and the frame pointer has moved. -/
theorem lawful_oneQueued :
    StepsMeet Watched.step Watched.Lawful (Watched.probed 3 0)
      (oneQueued ++ [.call (.irq 0x01000031), .call (.queue 0 0x1000), .framePtr 3, .framePtr 1, .call (.irq 0x01000031)]) :=
  (Watched.lawful_iff 0 _).2 (by decide)

/-- Another device interrupts while the frame is still being written. -/
theorem not_lawful_otherDevice :
    ¬ StepsMeet Watched.step Watched.Lawful (Watched.probed 3 0) (oneQueued ++ [.call (.irq 0x01000011)]) := by
  rw [Watched.lawful_run_iff (accounts_probed 3)]
  decide

end RcCarControl.Driver
