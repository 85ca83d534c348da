import RcCarControl.Driver.Ownership

/-!
# The interrupt handler against `xrcc_cam_probe`

From the moment `devm_request_irq` succeeds the handler may run between any two steps of the driver: the rest of
`xrcc_cam_probe`, the calls of videobuf2 (the video device is registered already) and `xrcc_cam_cleanup`.  An access
through a null pointer or to registers that are not mapped has no result; `Probing.Safe` says that the handler makes
none.

The handler tests `vdma_ctrl_mem` to see whether `xrcc_cam_probe` is far enough, but `vect_bufs` is allocated only after
the VDMA registers are mapped, and zeroed again without the lock.  Both gaps are the conditions of
`Probing.AfterProbe`.
-/

namespace RcCarControl.Driver

/-- `num_frm_bufs` of `xrcc_cam_probe`. -/
abbrev numFrmBufs : Nat := 3

/-- Where `xrcc_cam_probe` stands. -/
inductive ProbeAt where
  | irqRequested
  | vdmaMapped
  /-- `memset` clears the word `word` of `vect_bufs` next. -/
  | clearing (word : Nat)
  | probed
  /-- `ioremap` of the VDMA registers failed; `probe` returns 0 all the same. -/
  | noVdma
  /-- `devm_kzalloc` failed, `probe` returns `-ENOMEM`. -/
  | noMemory
deriving DecidableEq

/-- Where `xrcc_cam_irq_handler` stands. -/
inductive HandlerAt where
  | idle
  | entered (rxCtrlReg : U32)
  /-- Behind the test of the two pointers. -/
  | checked (rxCtrlReg : U32)
  /-- Behind the debug output of the slot. -/
  | printed (rxCtrlReg : U32)
  | locked (rxCtrlReg : U32)
  /-- The slot was registered and is no longer, its buffer is not given back yet. -/
  | claimed (rxCtrlReg : U32)
  | finished (rxCtrlReg : U32)
  | unlocked (rxCtrlReg : U32)
deriving DecidableEq

/-- The handler holds `queued_lock`. -/
def HandlerAt.holds : HandlerAt → Bool
  | .locked _ | .claimed _ | .finished _ => true
  | _ => false

/-- The handler is about to test the two pointers. -/
def HandlerAt.tests : HandlerAt → Bool
  | .entered _ => true
  | _ => false

/-- The handler is behind the test of the two pointers. -/
def HandlerAt.passed : HandlerAt → Bool
  | .idle | .entered _ => false
  | _ => true

structure Probing where
  dev : XrccCamDev numFrmBufs
  probe : ProbeAt
  handler : HandlerAt
  irqRequested : Bool
  /-- The registers behind `video_ctrl_mem` are mapped; `iounmap` leaves the pointer as it is. -/
  videoMapped : Bool
  /-- `vect_bufs` is not the null pointer. -/
  vectAllocated : Bool

/-- The device when `devm_request_irq` has succeeded.  The video device is registered before, so that a call may have
taken the lock for good. -/
def Probing.requested (queuedLock : Bool) : Probing where
  dev := ⟨fun _ => .empty, queuedLock, 0, 0, true, false⟩
  probe := .irqRequested
  handler := .idle
  irqRequested := true
  videoMapped := true
  vectAllocated := false

inductive ProbeEvent where
  /-- The `ioremap` of the VDMA registers. -/
  | ioremap (ok : Bool)
  /-- The `devm_kzalloc` of `vect_bufs`. -/
  | kzalloc (ok : Bool)
  /-- The next word of the `memset`. -/
  | memset
  /-- An interrupt of the shared line: the handler is entered and reads RX_CTRL. -/
  | irq (rxCtrlReg : U32)
  /-- The next step of the handler. -/
  | handler
  | queue (vbuf : Nat) (addr : U32)
  | start
  /-- One turn of the loop of `xrcc_cam_stop_streaming`. -/
  | stop (i : Fin numFrmBufs)
  /-- `free_irq` in `xrcc_cam_cleanup`, or by the device resources when `probe` failed. -/
  | freeIrq
  | iounmap
deriving DecidableEq

/-- `memset` clears a slot word by word: `buf`, `addr`, `registered`. -/
def clearWord (slot : XrccCamBuf) (word : Nat) : XrccCamBuf :=
  match word with
  | 0 => { slot with buf := none }
  | 1 => { slot with addr := 0 }
  | _ => { slot with registered := false }

/-- The slot and the word in it that the word `word` of the vector is. -/
def slotOf (word : Nat) : Fin numFrmBufs := Fin.ofNat numFrmBufs (word / 3)

/-- The slot that `memset` works on. -/
def ProbeAt.clears : ProbeAt → Option (Fin numFrmBufs)
  | .clearing word => some (slotOf word)
  | _ => none

/-- The next step of `xrcc_cam_irq_handler`. -/
def Probing.handlerStep (s : Probing) : Option Probing :=
  match s.handler with
  | .idle => none
  | .entered rxCtrlReg =>
    if !s.dev.videoCtrlMem || !s.dev.vdmaCtrlMem then some { s with handler := .idle }
    else some { s with handler := .checked rxCtrlReg }
  | .checked rxCtrlReg =>
    if s.vectAllocated then some { s with handler := .printed rxCtrlReg } else none
  | .printed rxCtrlReg =>
    if s.dev.queuedLock then none
    else some { s with
      dev := { s.dev with queuedLock := true, frameCnt := s.dev.frameCnt + 1 }
      handler := .locked rxCtrlReg }
  | .locked rxCtrlReg =>
    let slot := s.dev.vectBufs (irqIdx rxCtrlReg)
    if slot.registered then
      some { s with
        dev := setSlot s.dev (irqIdx rxCtrlReg) { slot with registered := false }
        handler := .claimed rxCtrlReg }
    else some { s with handler := .finished rxCtrlReg }
  | .claimed rxCtrlReg =>
    if (s.dev.vectBufs (irqIdx rxCtrlReg)).buf = none then none
    else some { s with dev := { s.dev with sequence := s.dev.sequence + 1 }, handler := .finished rxCtrlReg }
  | .finished rxCtrlReg => some { s with dev := spinUnlock s.dev, handler := .unlocked rxCtrlReg }
  | .unlocked _ => if s.videoMapped then some { s with handler := .idle } else none

/-- A call of videobuf2.  One that runs into the null pointer `vect_bufs` dies with the lock taken. -/
def Probing.call (s : Probing) (f : XrccCamDev numFrmBufs → Except Fault (XrccCamDev numFrmBufs)) : Option Probing :=
  if s.vectAllocated then (f s.dev).toOption.map fun dev => { s with dev := dev }
  else (spinLock s.dev).toOption.map fun dev => { s with dev := dev }

def Probing.step (s : Probing) : ProbeEvent → Option Probing
  | .ioremap ok =>
    if s.probe = .irqRequested then
      some (if ok then { s with dev := { s.dev with vdmaCtrlMem := true }, probe := .vdmaMapped }
        else { s with probe := .noVdma })
    else none
  | .kzalloc ok =>
    if s.probe = .vdmaMapped then
      some (if ok then
          { s with dev := { s.dev with vectBufs := fun _ => .empty }, vectAllocated := true, probe := .clearing 0 }
        else { s with probe := .noMemory })
    else none
  | .memset =>
    match s.probe with
    | .clearing word =>
      some { s with
        dev := setSlot s.dev (slotOf word) (clearWord (s.dev.vectBufs (slotOf word)) (word % 3))
        probe := if word + 1 < 3 * numFrmBufs then .clearing (word + 1) else .probed }
    | _ => none
  | .irq rxCtrlReg =>
    if s.irqRequested ∧ s.handler = .idle ∧ s.videoMapped then some { s with handler := .entered rxCtrlReg }
    else none
  | .handler => s.handlerStep
  | .queue vbuf addr => s.call fun dev => xrccCamBufferQueue dev vbuf addr
  | .start => some { s with dev := { s.dev with sequence := 0 } }
  | .stop i => s.call fun dev => (stopSlot dev i).map Prod.fst
  | .freeIrq =>
    -- `free_irq` waits for a running handler
    if s.irqRequested ∧ s.handler = .idle ∧ (s.probe = .probed ∨ s.probe = .noVdma ∨ s.probe = .noMemory) then
      some { s with irqRequested := false }
    else none
  | .iounmap =>
    if s.irqRequested = false ∧ (s.probe = .probed ∨ s.probe = .noVdma) then some { s with videoMapped := false }
    else none

/-- The use of `vect_bufs[idx]` for this value of RX_CTRL: the vector exists and has the entry. -/
def Probing.Indexes (s : Probing) (rxCtrlReg : U32) : Prop :=
  s.vectAllocated = true ∧ (videoCtrlGetIdx rxCtrlReg (BitVec.ofNat 32 numFrmBufs)).toNat < numFrmBufs

instance (s : Probing) (rxCtrlReg : U32) : Decidable (s.Indexes rxCtrlReg) :=
  inferInstanceAs (Decidable (_ ∧ _))

/-- What the handler accesses in its next step is there. -/
def Probing.Present (s : Probing) : HandlerAt → Prop
  | .checked rxCtrlReg | .locked rxCtrlReg => s.Indexes rxCtrlReg
  | .claimed rxCtrlReg => s.Indexes rxCtrlReg ∧ (s.dev.vectBufs (irqIdx rxCtrlReg)).buf ≠ none
  | .unlocked _ => s.videoMapped = true
  | _ => True

instance (s : Probing) : (h : HandlerAt) → Decidable (s.Present h)
  | .checked rxCtrlReg => inferInstanceAs (Decidable (s.Indexes rxCtrlReg))
  | .locked rxCtrlReg => inferInstanceAs (Decidable (s.Indexes rxCtrlReg))
  | .claimed rxCtrlReg =>
    inferInstanceAs (Decidable (s.Indexes rxCtrlReg ∧ (s.dev.vectBufs (irqIdx rxCtrlReg)).buf ≠ none))
  | .unlocked _ => inferInstanceAs (Decidable (s.videoMapped = true))
  | .idle => isTrue trivial
  | .entered _ => isTrue trivial
  | .printed _ => isTrue trivial
  | .finished _ => isTrue trivial

def Probing.Safe (s : Probing) : ProbeEvent → Prop
  | .irq _ => s.irqRequested = true → s.videoMapped = true
  | .handler => s.Present s.handler
  | _ => True

instance (s : Probing) (e : ProbeEvent) : Decidable (s.Safe e) :=
  match e with
  | .irq _ => inferInstanceAs (Decidable (s.irqRequested = true → s.videoMapped = true))
  | .handler => inferInstanceAs (Decidable (s.Present s.handler))
  | .ioremap _ | .kzalloc _ | .memset | .queue _ _ | .start | .stop _ | .freeIrq | .iounmap => isTrue trivial

/-- The handler does not test the pointers between the mapping of the VDMA registers and the allocation of `vect_bufs`,
and `memset` meets neither a holder of the lock nor a registered slot. -/
def Probing.AfterProbe (s : Probing) : ProbeEvent → Prop
  | .handler => s.handler.tests = true → s.dev.videoCtrlMem = true → s.dev.vdmaCtrlMem = true → s.vectAllocated = true
  | .memset => ∀ i ∈ s.probe.clears, s.dev.queuedLock = false ∧ (s.dev.vectBufs i).registered = false
  | _ => True

instance (s : Probing) (e : ProbeEvent) : Decidable (s.AfterProbe e) :=
  match e with
  | .handler => inferInstanceAs (Decidable (_ = true → _ = true → _ = true → _ = true))
  | .memset => inferInstanceAs (Decidable (∀ i ∈ s.probe.clears, _ = false ∧ _ = false))
  | .ioremap _ | .kzalloc _ | .irq _ | .queue _ _ | .start | .stop _ | .freeIrq | .iounmap => isTrue trivial

/-! ### What a step does -/

theorem Probing.call_cases {s t : Probing} {f : XrccCamDev numFrmBufs → Except Fault (XrccCamDev numFrmBufs)}
    (h : s.call f = some t) :
    ∃ dev, t = { s with dev := dev } ∧
      (s.vectAllocated = true ∧ f s.dev = .ok dev ∨ s.vectAllocated = false ∧ spinLock s.dev = .ok dev) := by
  have ok {x : Except Fault (XrccCamDev numFrmBufs)} {dev : XrccCamDev numFrmBufs} (hx : x.toOption = some dev) :
      x = .ok dev := by
    cases x with
    | error _ => cases hx
    | ok _ =>
      cases hx
      rfl
  unfold Probing.call at h
  cases ha : s.vectAllocated with
  | true =>
    simp only [ha, if_true, Option.map_eq_some_iff] at h
    obtain ⟨dev, hf, rfl⟩ := h
    exact ⟨dev, rfl, .inl ⟨rfl, ok hf⟩⟩
  | false =>
    simp only [ha, Bool.false_eq_true, if_false, Option.map_eq_some_iff] at h
    obtain ⟨dev, hf, rfl⟩ := h
    exact ⟨dev, rfl, .inr ⟨rfl, ok hf⟩⟩

/-- A handler that nobody interrupts is `xrccCamIrqHandler`. -/
theorem handler_alone {s : Probing} {rxCtrlReg : U32} {dev : XrccCamDev numFrmBufs} {ds : Returned}
    {back : Option U32} (hi : s.irqRequested = true) (hidle : s.handler = .idle) (hm : s.videoMapped = true)
    (ha : s.vectAllocated = true) (hv : s.dev.videoCtrlMem = true) (hd : s.dev.vdmaCtrlMem = true)
    (h : xrccCamIrqHandler s.dev rxCtrlReg = .ok (dev, ds, back)) :
    ∃ k, Lts.exec Probing.step s (.irq rxCtrlReg :: List.replicate k .handler) = some { s with dev := dev } := by
  obtain ⟨hl, hr | ⟨hr, vbuf, hb⟩⟩ := irq_ok_cases hv hd h
  · rw [irq_unregistered hv hd hl hr] at h
    cases h
    refine ⟨6, ?_⟩
    simp [Lts.exec, Probing.step, Probing.handlerStep, List.replicate, hi, hidle, hm, ha, hv, hd, hl, hr, spinUnlock]
  · rw [irq_registered hv hd hl hr hb] at h
    cases h
    refine ⟨7, ?_⟩
    simp [Lts.exec, Probing.step, Probing.handlerStep, List.replicate, hi, hidle, hm, ha, hv, hd, hl, hr, hb, spinUnlock,
      setSlot]

/-- A slot that is registered has a buffer. -/
def Backed (dev : XrccCamDev numFrmBufs) : Prop :=
  ∀ i, (dev.vectBufs i).registered = true → (dev.vectBufs i).buf ≠ none

theorem Backed.setSlot {dev : XrccCamDev numFrmBufs} (h : Backed dev) (i : Fin numFrmBufs) {slot : XrccCamBuf}
    (hs : slot.registered = true → slot.buf ≠ none) : Backed (setSlot dev i slot) := by
  intro j hj
  by_cases hji : j = i
  · subst hji
    rw [setSlot_self] at hj ⊢
    exact hs hj
  · rw [setSlot_ne dev slot hji] at hj ⊢
    exact h j hj

theorem Backed.spinLock {dev dev' : XrccCamDev numFrmBufs} (h : Backed dev) (hl : spinLock dev = .ok dev') :
    Backed dev' ∧ dev.queuedLock = false := by
  cases hq : dev.queuedLock with
  | true =>
    rw [spinLock_held hq] at hl
    cases hl
  | false =>
    rw [spinLock_free hq] at hl
    cases hl
    exact ⟨h, rfl⟩

theorem Backed.queue {dev dev' : XrccCamDev numFrmBufs} (h : Backed dev) {vbuf : Nat} {addr : U32}
    (hc : xrccCamBufferQueue dev vbuf addr = .ok dev') : Backed dev' ∧ dev.queuedLock = false := by
  cases hl : dev.queuedLock with
  | true =>
    rw [queue_held hl] at hc
    cases hc
  | false =>
    cases hf : findSlot dev addr with
    | none =>
      rw [queue_not_found hl hf] at hc
      cases hc
      exact ⟨h, rfl⟩
    | some idx =>
      rw [queue_found hl hf] at hc
      cases hc
      exact ⟨h.setSlot idx (by simp), rfl⟩

theorem Backed.stop {dev dev' : XrccCamDev numFrmBufs} (h : Backed dev) {i : Fin numFrmBufs}
    (hc : (stopSlot dev i).map Prod.fst = .ok dev') : Backed dev' ∧ dev.queuedLock = false := by
  cases hl : dev.queuedLock with
  | true =>
    rw [stopSlot_held hl] at hc
    cases hc
  | false =>
    by_cases hclears : ∃ vbuf, Clears (dev.vectBufs i) vbuf
    · obtain ⟨vbuf, hv⟩ := hclears
      rw [stopSlot_clears hl hv] at hc
      cases hc
      exact ⟨h.setSlot i (by simp [XrccCamBuf.empty]), rfl⟩
    · rw [stopSlot_skips hl (not_exists.1 hclears)] at hc
      cases hc
      exact ⟨h, rfl⟩

/-- While the slot is not registered, clearing a word of it changes nothing that counts. -/
theorem Backed.clearWord {dev : XrccCamDev numFrmBufs} (h : Backed dev) {i : Fin numFrmBufs}
    (hr : (dev.vectBufs i).registered = false) (word : Nat) :
    Backed (Driver.setSlot dev i (clearWord (dev.vectBufs i) word)) := by
  refine h.setSlot i ?_
  intro hw
  unfold Driver.clearWord at hw
  split at hw
  · simp [hr] at hw
  · simp [hr] at hw
  · simp at hw

/-! ### The invariant -/

structure Sound (s : Probing) : Prop where
  mapped : s.irqRequested = true → s.videoMapped = true
  early : s.probe = .irqRequested ∨ s.probe = .vdmaMapped → s.vectAllocated = false
  live : s.handler ≠ .idle → s.irqRequested = true
  allocated : s.handler.passed = true → s.vectAllocated = true
  holding : s.handler.holds = true → s.dev.queuedLock = true
  backed : Backed s.dev
  /-- Nobody takes the buffer away from a handler that is about to give it back. -/
  claimed : ∀ rxCtrlReg, s.handler = .claimed rxCtrlReg → (s.dev.vectBufs (irqIdx rxCtrlReg)).buf ≠ none

theorem sound_requested (queuedLock : Bool) : Sound (.requested queuedLock) where
  mapped := fun _ => rfl
  early := fun _ => rfl
  live := fun h => absurd rfl h
  allocated := by simp [Probing.requested, HandlerAt.passed]
  holding := by simp [Probing.requested, HandlerAt.holds]
  backed := by
    intro i hi
    simp [Probing.requested, XrccCamBuf.empty] at hi
  claimed := by simp [Probing.requested]

/-- What happens under a free lock does not meet the handler in the middle of its work. -/
theorem Sound.withDev {s : Probing} (h : Sound s) {dev : XrccCamDev numFrmBufs} (hb : Backed dev)
    (hl : s.dev.queuedLock = false) : Sound { s with dev := dev } := by
  have hfree : s.handler.holds = false := by
    cases hh : s.handler.holds with
    | false => rfl
    | true =>
      have := h.holding hh
      rw [hl] at this
      cases this
  refine ⟨h.mapped, h.early, h.live, h.allocated, ?_, hb, ?_⟩
  · intro hh
    simp [hfree] at hh
  · intro rxCtrlReg hc
    have hc' : s.handler = .claimed rxCtrlReg := hc
    rw [hc'] at hfree
    cases hfree

theorem Sound.withProbe {s : Probing} (h : Sound s) {probe : ProbeAt}
    (hp : probe ≠ .irqRequested ∧ probe ≠ .vdmaMapped) : Sound { s with probe := probe } := by
  refine ⟨h.mapped, ?_, h.live, h.allocated, h.holding, h.backed, h.claimed⟩
  rintro (he | he)
  · exact absurd he hp.1
  · exact absurd he hp.2

/-- As long as `vect_bufs` is the null pointer, the handler does not get past the test. -/
theorem Sound.not_passed {s : Probing} (h : Sound s) (ha : s.vectAllocated = false) : s.handler.passed = false := by
  cases hh : s.handler.passed with
  | false => rfl
  | true =>
    have := h.allocated hh
    rw [ha] at this
    cases this

theorem Sound.call {s t : Probing} (h : Sound s)
    {f : XrccCamDev numFrmBufs → Except Fault (XrccCamDev numFrmBufs)}
    (keep : ∀ dev, Backed s.dev → f s.dev = .ok dev → Backed dev ∧ s.dev.queuedLock = false)
    (hc : s.call f = some t) : Sound t := by
  obtain ⟨dev, rfl, ⟨-, hf⟩ | ⟨-, hf⟩⟩ := Probing.call_cases hc
  · obtain ⟨hb, hl⟩ := keep dev h.backed hf
    exact h.withDev hb hl
  · obtain ⟨hb, hl⟩ := h.backed.spinLock hf
    exact h.withDev hb hl

theorem Sound.leave {s : Probing} (h : Sound s) : Sound { s with handler := .idle } :=
  ⟨h.mapped, h.early, fun hi => absurd rfl hi, by simp [HandlerAt.passed], by simp [HandlerAt.holds], h.backed, by simp⟩

/-- What the handler has to bring along to its next step. -/
theorem Sound.goOn {s : Probing} (h : Sound s) {dev : XrccCamDev numFrmBufs} {next : HandlerAt}
    (hlive : s.irqRequested = true) (halloc : next.passed = true → s.vectAllocated = true)
    (hhold : next.holds = true → dev.queuedLock = true) (hb : Backed dev)
    (hclaim : ∀ rxCtrlReg, next = .claimed rxCtrlReg → (dev.vectBufs (irqIdx rxCtrlReg)).buf ≠ none) :
    Sound { s with dev := dev, handler := next } :=
  ⟨h.mapped, h.early, fun _ => hlive, halloc, hhold, hb, hclaim⟩

/-- A step of the handler: the test of the pointers is the only way in, and the lock is taken before the slot is
touched. -/
theorem Sound.handlerStep {s t : Probing} (h : Sound s)
    (hp : s.handler.tests = true → s.dev.videoCtrlMem = true → s.dev.vdmaCtrlMem = true → s.vectAllocated = true)
    (hs : s.handlerStep = some t) : Sound t := by
  have hlive : s.handler ≠ .idle → s.irqRequested = true := h.live
  have halloc : s.handler.passed = true → s.vectAllocated = true := h.allocated
  have hhold : s.handler.holds = true → s.dev.queuedLock = true := h.holding
  unfold Probing.handlerStep at hs
  cases hh : s.handler with
  | idle => simp [hh] at hs
  | entered rxCtrlReg =>
    simp only [hh] at hs hp hlive
    split at hs
    · cases hs
      exact h.leave
    · rename_i hm
      cases hs
      simp only [Bool.not_eq_true', Bool.or_eq_true, not_or, Bool.not_eq_false] at hm
      exact h.goOn (hlive (by simp)) (fun _ => hp rfl hm.1 hm.2) (fun hh => by cases hh) h.backed (fun _ hc => by cases hc)
  | checked rxCtrlReg =>
    simp only [hh, Option.ite_none_right_eq_some, Option.some.injEq] at hs hlive
    obtain ⟨ha, rfl⟩ := hs
    exact h.goOn (hlive (by simp)) (fun _ => ha) (fun hh => by cases hh) h.backed (fun _ hc => by cases hc)
  | printed rxCtrlReg =>
    simp only [hh, Option.ite_none_left_eq_some, Option.some.injEq] at hs hlive halloc
    obtain ⟨-, rfl⟩ := hs
    exact h.goOn (hlive (by simp)) (fun _ => halloc rfl) (fun _ => rfl) h.backed (fun _ hc => by cases hc)
  | locked rxCtrlReg =>
    simp only [hh] at hs hlive halloc hhold
    have hl := hhold rfl
    split at hs
    · rename_i hr
      cases hs
      -- the slot was registered, so it has a buffer, and it keeps it
      have hb := h.backed _ hr
      refine h.goOn (hlive (by simp)) (fun _ => halloc rfl) (fun _ => hl) (h.backed.setSlot _ (by simp)) ?_
      intro rxCtrlReg' hc
      cases hc
      simpa using hb
    · cases hs
      exact h.goOn (hlive (by simp)) (fun _ => halloc rfl) (fun _ => hl) h.backed (fun _ hc => by cases hc)
  | claimed rxCtrlReg =>
    simp only [hh, Option.ite_none_left_eq_some, Option.some.injEq] at hs hlive halloc hhold
    obtain ⟨-, rfl⟩ := hs
    exact h.goOn (hlive (by simp)) (fun _ => halloc rfl) (fun _ => hhold rfl) h.backed (fun _ hc => by cases hc)
  | finished rxCtrlReg =>
    simp only [hh, Option.some.injEq] at hs hlive halloc
    subst hs
    exact h.goOn (hlive (by simp)) (fun _ => halloc rfl) (fun hh => by cases hh) h.backed (fun _ hc => by cases hc)
  | unlocked rxCtrlReg =>
    simp only [hh, Option.ite_none_right_eq_some, Option.some.injEq] at hs
    obtain ⟨-, rfl⟩ := hs
    exact h.leave

theorem Sound.step {s t : Probing} {e : ProbeEvent} (h : Sound s) (hp : s.AfterProbe e) (hs : s.step e = some t) :
    Sound t := by
  cases e with
  | ioremap ok =>
    simp only [Probing.step, Option.ite_none_right_eq_some, Option.some.injEq] at hs
    obtain ⟨hprobe, rfl⟩ := hs
    have ha := h.early (.inl hprobe)
    cases ok with
    | true => exact ⟨h.mapped, fun _ => ha, h.live, h.allocated, h.holding, h.backed, h.claimed⟩
    | false => exact h.withProbe (by simp)
  | kzalloc ok =>
    simp only [Probing.step, Option.ite_none_right_eq_some, Option.some.injEq] at hs
    obtain ⟨hprobe, rfl⟩ := hs
    have hnot := h.not_passed (h.early (.inr hprobe))
    cases ok with
    | true =>
      refine ⟨h.mapped, by simp, h.live, fun _ => rfl, h.holding, ?_, ?_⟩
      · intro i hi
        simp [XrccCamBuf.empty] at hi
      · intro rxCtrlReg hc
        have hc' : s.handler = .claimed rxCtrlReg := hc
        simp [hc', HandlerAt.passed] at hnot
    | false => exact h.withProbe (by simp)
  | memset =>
    simp only [Probing.step] at hs
    split at hs
    · rename_i word hprobe
      cases hs
      obtain ⟨hl, hr⟩ := hp (slotOf word) (by simp [hprobe, ProbeAt.clears])
      refine (h.withDev (h.backed.clearWord hr (word % 3)) hl).withProbe ?_
      split <;> simp
    · cases hs
  | irq rxCtrlReg =>
    simp only [Probing.step, Option.ite_none_right_eq_some, Option.some.injEq] at hs
    obtain ⟨⟨hi, -, -⟩, rfl⟩ := hs
    exact h.goOn hi (fun hh => by cases hh) (fun hh => by cases hh) h.backed (fun _ hc => by cases hc)
  | handler => exact h.handlerStep hp hs
  | queue vbuf addr =>
    simp only [Probing.step] at hs
    exact h.call (fun dev hb hf => hb.queue hf) hs
  | start =>
    simp only [Probing.step, Option.some.injEq] at hs
    subst hs
    exact ⟨h.mapped, h.early, h.live, h.allocated, h.holding, h.backed, h.claimed⟩
  | stop i =>
    simp only [Probing.step] at hs
    exact h.call (fun dev hb hf => hb.stop hf) hs
  | freeIrq =>
    simp only [Probing.step, Option.ite_none_right_eq_some, Option.some.injEq] at hs
    obtain ⟨⟨-, hidle, -⟩, rfl⟩ := hs
    refine ⟨?_, h.early, ?_, h.allocated, h.holding, h.backed, h.claimed⟩
    · intro hi
      cases hi
    · intro hi
      exact absurd hidle hi
  | iounmap =>
    simp only [Probing.step, Option.ite_none_right_eq_some, Option.some.injEq] at hs
    obtain ⟨⟨hi, -⟩, rfl⟩ := hs
    refine ⟨?_, h.early, h.live, h.allocated, h.holding, h.backed, h.claimed⟩
    intro hi'
    simp only [hi] at hi'
    cases hi'

/-- Whatever RX_CTRL says, the index is one of the vector. -/
theorem Sound.indexes {s : Probing} (h : Sound s) (hh : s.handler.passed = true) (rxCtrlReg : U32) :
    s.Indexes rxCtrlReg :=
  have hcnts : 0 < (BitVec.ofNat 32 numFrmBufs).toNat := by decide
  ⟨h.allocated hh, videoCtrlGetIdx_lt rxCtrlReg hcnts⟩

theorem Sound.safe {s : Probing} (h : Sound s) (e : ProbeEvent) : s.Safe e := by
  cases e with
  | irq rxCtrlReg => exact h.mapped
  | handler =>
    have hidx : s.handler.passed = true → ∀ rxCtrlReg, s.Indexes rxCtrlReg := h.indexes
    change s.Present s.handler
    cases hh : s.handler with
    | checked rxCtrlReg => exact hidx (by simp [hh, HandlerAt.passed]) rxCtrlReg
    | locked rxCtrlReg => exact hidx (by simp [hh, HandlerAt.passed]) rxCtrlReg
    | claimed rxCtrlReg => exact ⟨hidx (by simp [hh, HandlerAt.passed]) rxCtrlReg, h.claimed rxCtrlReg hh⟩
    | unlocked rxCtrlReg => exact h.mapped (h.live (by simp [hh]))
    | idle => trivial
    | entered _ => trivial
    | printed _ => trivial
    | finished _ => trivial
  | ioremap _ => trivial
  | kzalloc _ => trivial
  | memset => trivial
  | queue _ _ => trivial
  | start => trivial
  | stop _ => trivial
  | freeIrq => trivial
  | iounmap => trivial

/-- However the interrupts fall between the steps of `probe`, the calls of videobuf2 and the removal, the handler only
uses what is there, unless it tests the pointers too early or `memset` hits a buffer that is queued already. -/
theorem handler_safe_after_probe (queuedLock : Bool) (es : List ProbeEvent)
    (h : Lts.StepsMeet Probing.step Probing.AfterProbe (.requested queuedLock) es) :
    Lts.StepsMeet Probing.step Probing.Safe (.requested queuedLock) es :=
  Lts.StepsMeet.of_invariant (fun _ _ _ hs hp ht => Sound.step hs hp ht) (fun _ e hs _ => hs.safe e)
    (sound_requested queuedLock) h

/-- Probed without an interrupt, one frame of a queued buffer, removed. -/
def probedAndRemoved : List ProbeEvent :=
  [.ioremap true, .kzalloc true] ++ List.replicate 9 .memset ++ [.queue 0 0x1000, .start, .irq 0x01000021] ++
    List.replicate 7 .handler ++ [.stop 0, .freeIrq, .iounmap]

theorem handler_safe_after_probe_probedAndRemoved :
    Lts.StepsMeet Probing.step Probing.Safe (.requested false) probedAndRemoved :=
  handler_safe_after_probe false probedAndRemoved (by decide)

/-- A test between the mapping of the VDMA registers and the allocation of the vector lets the handler through to the
null pointer. -/
theorem not_safe_of_early_test {s t : Probing} (hh : s.handler.tests = true) (hv : s.dev.videoCtrlMem = true)
    (hd : s.dev.vdmaCtrlMem = true) (ha : s.vectAllocated = false) (ht : s.step .handler = some t) :
    ¬ t.Safe .handler := by
  cases hs : s.handler with
  | entered rxCtrlReg =>
    simp only [Probing.step, Probing.handlerStep, hs, hv, hd, Bool.not_true, Bool.or_false, Bool.false_eq_true,
      if_false, Option.some.injEq] at ht
    subst ht
    intro hsafe
    have hidx : s.vectAllocated = true := hsafe.1
    rw [ha] at hidx
    cases hidx
  | _ => simp [hs, HandlerAt.tests] at hh

/-- An interrupt of another device on the line while `probe` resets the VDMA. -/
theorem handler_unsafe_in_probe :
    ¬ ∀ es : List ProbeEvent, Lts.StepsMeet Probing.step Probing.Safe (.requested false) es := by
  intro h
  have := h [.ioremap true, .irq 0, .handler, .handler]
  revert this
  decide

end RcCarControl.Driver
