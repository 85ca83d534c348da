import Mathlib.Tactic.IntervalCases
import RcCarControl.Driver.Ownership
import RcCarControl.Driver.Streaming

/-!
# Which buffers the VDMA writes to

The ring is programmed when the streaming starts, and nothing tells the VDMA afterwards which buffers user space holds:
`video_ctrl_set_ptr` is never called, so the read pointer field of RX_CTRL keeps its reset value, which protects no
buffer.  The VDMA keeps off the buffers of user space in the runs in which each buffer is queued again before the ring
comes round to its slot (`keepsOff_of_requeued`).
-/

namespace RcCarControl.Driver

open Fpga Lts

variable {n : Nat}

/-! ### The read pointer -/

/-- The read pointer field of a word for RX_CTRL. -/
def rdPtr (ctrl : U32) : BitVec 6 := ctrl.extractLsb' 16 6

theorem rdPtr_rxCtrl (regs : VideoCtrlRegs) (p : BitVec 6) : rdPtr (regs.rxCtrl p) = regs.vdmaFramePtrO := by
  apply BitVec.eq_of_getLsbD_eq
  intro i hi
  simp only [rdPtr, VideoCtrlRegs.rxCtrl, BitVec.getLsbD_extractLsb', BitVec.getLsbD_append]
  interval_cases i <;> simp

theorem rdPtr_or {ctrl mask : U32} (h : rdPtr mask = 0) : rdPtr (ctrl ||| mask) = rdPtr ctrl := by
  rw [rdPtr] at h ⊢
  rw [BitVec.extractLsb'_or, h]
  exact BitVec.or_zero

theorem rdPtr_and_not {ctrl mask : U32} (h : rdPtr (~~~ mask) = BitVec.allOnes 6) :
    rdPtr (ctrl &&& ~~~ mask) = rdPtr ctrl := by
  rw [rdPtr] at h ⊢
  rw [BitVec.extractLsb'_and, h]
  exact BitVec.and_allOnes

/-- What a program writes to RX_CTRL has the read pointer `q`, provided that what it reads there has. -/
def KeepsRdPtr (q : BitVec 6) : RegProg → Prop
  | .ret => True
  | .read reg next => ∀ value, (regAddr reg = rxCtrlAddr → rdPtr value = q) → KeepsRdPtr q (next value)
  | .write reg value next => (regAddr reg = rxCtrlAddr → rdPtr value = q) ∧ KeepsRdPtr q next

theorem clock_framePtrO (regs : VideoCtrlRegs) (p addr : BitVec 6) (value : U32) :
    (regs.clock p (some (addr, value))).vdmaFramePtrO =
      if addr = rxCtrlAddr then rdPtr value else regs.vdmaFramePtrO := by
  simp only [VideoCtrlRegs.clock, VideoCtrlRegs.write]
  split_ifs with h₁ h₂ h₃ h₄ h₅ <;> simp_all [tpCtrlAddr, tpSizeAddr, rxCtrlAddr, rdPtr]

/-- Such a program keeps the pointer in the register. -/
theorem KeepsRdPtr.run_framePtrO {prog : RegProg} {regs : VideoCtrlRegs} (h : KeepsRdPtr regs.vdmaFramePtrO prog)
    (bus : BusIn) : (prog.run bus regs).vdmaFramePtrO = regs.vdmaFramePtrO := by
  induction prog generalizing regs with
  | ret => rfl
  | read reg next ih =>
    let value := regs.read bus.vdmaFramePtrI bus.rx (regAddr reg)
    have hread : regAddr reg = rxCtrlAddr → rdPtr value = regs.vdmaFramePtrO := fun hreg => by
      simp only [value]
      rw [hreg, VideoCtrlRegs.read_rxCtrl, rdPtr_rxCtrl]
    have hkeep : (regs.clock bus.vdmaFramePtrI none).vdmaFramePtrO = regs.vdmaFramePtrO := rfl
    exact (ih value (by rw [hkeep]; exact h value hread)).trans hkeep
  | write reg value next ih =>
    have hkeep : (regs.clock bus.vdmaFramePtrI (some (regAddr reg, value))).vdmaFramePtrO = regs.vdmaFramePtrO := by
      rw [clock_framePtrO]
      split
      · exact h.1 ‹_›
      · rfl
    exact (ih (by rw [hkeep]; exact h.2)).trans hkeep

section Programs

variable {q : BitVec 6} {next : RegProg} (h : KeepsRdPtr q next)
include h

theorem KeepsRdPtr.setSize (width bpp : U32) : KeepsRdPtr q (videoCtrlSetSize width bpp next) :=
  ⟨fun hreg => absurd hreg (by decide), h⟩

theorem KeepsRdPtr.run : KeepsRdPtr q (videoCtrlRun next) := fun value hv =>
  ⟨fun hreg => by rw [rdPtr_or (by decide), rdPtr_or (by decide), hv hreg], h⟩

theorem KeepsRdPtr.clearErr : KeepsRdPtr q (videoCtrlClearErr next) := ⟨fun hreg => absurd hreg (by decide), h⟩

theorem KeepsRdPtr.inten (intEnable : Bool) : KeepsRdPtr q (videoCtrlInten intEnable next) := by
  intro value hv
  cases intEnable with
  | true => exact ⟨fun hreg => by rw [rdPtr_or (by decide), hv hreg], h⟩
  | false =>
    have hclear (hreg : regAddr videoCtrlRxCtrl = rxCtrlAddr) : rdPtr (value &&& ~~~ rxCtrlInten) = q := by
      rw [rdPtr_and_not (by decide), hv hreg]
    exact ⟨hclear, fun hreg => by rw [rdPtr_or (by decide), hclear hreg], h⟩

theorem KeepsRdPtr.dumpMeas : KeepsRdPtr q (videoCtrlDumpMeas next) := fun _ _ _ _ _ _ => h

theorem KeepsRdPtr.stop : KeepsRdPtr q (videoCtrlStop next) := fun value hv =>
  ⟨fun hreg => by rw [rdPtr_and_not (by decide), hv hreg], h⟩

end Programs

theorem keepsRdPtr_startStreaming (q : BitVec 6) (width bpp : U32) : KeepsRdPtr q (startStreamingProg width bpp) :=
  have hret : KeepsRdPtr q .ret := trivial
  (((hret.dumpMeas.inten true).clearErr).run).setSize width bpp

theorem keepsRdPtr_stopStreaming (q : BitVec 6) : KeepsRdPtr q stopStreamingProg :=
  have hret : KeepsRdPtr q .ret := trivial
  (hret.stop.dumpMeas).inten false

/-! ### What a call does to the slots -/

section Calls

variable [NeZero n] {c c' : Capture n}

/-- Queueing registers a slot for the buffer, or it leaves the slots alone (and the lock taken). -/
theorem queue_slots {vbuf : Nat} {addr : U32} (h : c.step (.queue vbuf addr) = some c') :
    (vbuf, addr) ∈ c.live ∧ c'.live = c.live ∧ c.dev.queuedLock = false ∧
      (c'.dev.vectBufs = c.dev.vectBufs ∨
        ∃ idx, findSlot c.dev addr = some idx ∧ c'.dev = setSlot c.dev idx ⟨some vbuf, addr, true⟩) := by
  obtain ⟨⟨hlive, -⟩, hc⟩ := step_cases h
  cases hl : c.dev.queuedLock with
  | true => simp [Capture.call, queue_held hl, bind, Except.bind] at hc
  | false =>
    cases hf : findSlot c.dev addr with
    | none =>
      simp only [Capture.call, queue_not_found hl hf, bind, Except.bind, pure, Except.pure, Except.ok.injEq] at hc
      subst hc
      exact ⟨hlive, rfl, rfl, Or.inl rfl⟩
    | some idx =>
      rw [call_queue_found hl hf, Except.ok.injEq] at hc
      subst hc
      exact ⟨hlive, rfl, rfl, Or.inr ⟨idx, rfl, rfl⟩⟩

/-- The interrupt handler finds its slot registered and completes the buffer in it, or it leaves the slots alone. -/
theorem irq_slots (hA : Accounts c) {rxCtrlReg : U32} (h : c.step (.irq rxCtrlReg) = some c') :
    c'.live = c.live ∧ c.dev.queuedLock = false ∧
      ((c'.dev.vectBufs = c.dev.vectBufs ∧
          ∃ dev, xrccCamIrqHandler c.dev rxCtrlReg = .ok (dev, [], some rxCtrlReg)) ∨
        ∃ vbuf, (c.dev.vectBufs (irqIdx rxCtrlReg)).registered = true ∧
          (c.dev.vectBufs (irqIdx rxCtrlReg)).buf = some vbuf ∧
          c'.dev.vectBufs = Function.update c.dev.vectBufs (irqIdx rxCtrlReg)
            { c.dev.vectBufs (irqIdx rxCtrlReg) with registered := false } ∧
          ∃ dev, xrccCamIrqHandler c.dev rxCtrlReg = .ok (dev, [(vbuf, .done c.dev.sequence)], some rxCtrlReg)) := by
  obtain ⟨-, hc⟩ := step_cases h
  cases hl : c.dev.queuedLock with
  | true => simp [Capture.call, irq_held hA.videoMem hA.vdmaMem hl, bind, Except.bind] at hc
  | false =>
    cases hr : (c.dev.vectBufs (irqIdx rxCtrlReg)).registered with
    | false =>
      have hirq := irq_unregistered hA.videoMem hA.vdmaMem hl hr
      simp only [Capture.call, hirq, bind, Except.bind, pure, Except.pure, Except.ok.injEq] at hc
      subst hc
      exact ⟨rfl, rfl, Or.inl ⟨rfl, _, hirq⟩⟩
    | true =>
      obtain ⟨vbuf, hb, -⟩ := (hA.ledger hl).holds _ hr
      have hirq := irq_registered hA.videoMem hA.vdmaMem hl hr hb
      simp only [Capture.call, hirq, bind, Except.bind, pure, Except.pure, Except.ok.injEq] at hc
      subst hc
      exact ⟨rfl, rfl, Or.inr ⟨vbuf, rfl, hb, rfl, _, hirq⟩⟩

end Calls

/-! ### The ring and the slots -/

/-- Every registered slot holds a buffer that exists and is not completed. -/
def Uncompleted (slots : Fin n → XrccCamBuf) (live : List (Nat × U32)) (completed : Nat → Bool) : Prop :=
  ∀ i, (slots i).registered = true →
    ∃ b, (slots i).buf = some b ∧ (b, (slots i).addr) ∈ live ∧ completed b = false

/-- The start addresses of the ring are those of the slots, all of them occupied. -/
def Programmed (slots : Fin n → XrccCamBuf) (vdma : Vdma n) : Prop :=
  ∀ i, (slots i).buf ≠ none ∧ vdma.startAddr i = (slots i).addr

/-- What holds in every state of a run: the read pointer protects no buffer, and while the VDMA is running its ring is
that of the slots. -/
structure RingSound (s : Streaming n) : Prop where
  accounts : Accounts s.capture
  framePtrO : s.regs.vdmaFramePtrO = 0
  uncompleted : Uncompleted s.capture.dev.vectBufs s.capture.live s.completed
  ring : s.vdma.running = true → Programmed s.capture.dev.vectBufs s.vdma

section Slots

variable {slots slots' : Fin n → XrccCamBuf} {live live' : List (Nat × U32)} {completed : Nat → Bool} {idx : Fin n}
  {vbuf : Nat} {addr : U32} {vdma : Vdma n}

theorem Uncompleted.live_mono (h : Uncompleted slots live completed) (hl : ∀ b ∈ live, b ∈ live') :
    Uncompleted slots live' completed := by
  intro i hi
  obtain ⟨b, hb, hm, hc⟩ := h i hi
  exact ⟨b, hb, hl _ hm, hc⟩

/-- Slots may be emptied. -/
theorem Uncompleted.kept (h : Uncompleted slots live completed) (hk : ∀ i, slots' i = .empty ∨ slots' i = slots i) :
    Uncompleted slots' live completed := by
  intro i hi
  obtain he | he := hk i
  · rw [he] at hi
    cases hi
  · rw [he] at hi ⊢
    exact h i hi

/-- A buffer that is queued is not completed any more. -/
theorem Uncompleted.requeue (h : Uncompleted slots live completed) (vbuf : Nat) :
    Uncompleted slots live (Function.update completed vbuf false) := by
  intro i hi
  obtain ⟨b, hb, hm, hc⟩ := h i hi
  refine ⟨b, hb, hm, ?_⟩
  by_cases hbv : b = vbuf
  · rw [hbv, Function.update_self]
  · rw [Function.update_of_ne hbv, hc]

theorem Uncompleted.queue (h : Uncompleted slots live completed) (hl : (vbuf, addr) ∈ live) (idx : Fin n) :
    Uncompleted (Function.update slots idx ⟨some vbuf, addr, true⟩) live (Function.update completed vbuf false) := by
  intro i hi
  by_cases hii : i = idx
  · subst hii
    rw [Function.update_self]
    exact ⟨vbuf, rfl, hl, Function.update_self _ _ _⟩
  · rw [Function.update_of_ne hii] at hi ⊢
    exact h.requeue vbuf i hi

/-- A completed buffer is in no other registered slot. -/
theorem Uncompleted.complete (h : Uncompleted slots live completed)
    (hother : ∀ i, i ≠ idx → (slots i).registered = true → (slots i).buf ≠ some vbuf) :
    Uncompleted (Function.update slots idx { slots idx with registered := false }) live
      (fun b => completed b || [vbuf].contains b) := by
  intro i hi
  by_cases hii : i = idx
  · subst hii
    rw [Function.update_self] at hi
    cases hi
  · rw [Function.update_of_ne hii] at hi ⊢
    obtain ⟨b, hb, hm, hc⟩ := h i hi
    have hne : b ≠ vbuf := fun hbv => hother i hii hi (hbv ▸ hb)
    exact ⟨b, hb, hm, by simp [hc, hne]⟩

/-- Without an empty slot a buffer goes back to the slot with its address. -/
theorem Programmed.queue (h : Programmed slots vdma) (hf : (slots idx).buf = none ∨ (slots idx).addr = addr) :
    Programmed (Function.update slots idx ⟨some vbuf, addr, true⟩) vdma := by
  intro i
  obtain ⟨hbuf, haddr⟩ := h i
  by_cases hii : i = idx
  · subst hii
    rw [Function.update_self]
    exact ⟨nofun, haddr.trans (hf.resolve_left hbuf)⟩
  · rw [Function.update_of_ne hii]
    exact h i

theorem Programmed.complete (h : Programmed slots vdma) (idx : Fin n) :
    Programmed (Function.update slots idx { slots idx with registered := false }) vdma := by
  intro i
  by_cases hii : i = idx
  · subst hii
    rw [Function.update_self]
    exact h i
  · rw [Function.update_of_ne hii]
    exact h i

end Slots

theorem vdmaFill_spec (dev : XrccCamDev n) {vdma vdma' : Vdma n} {is : List (Fin n)}
    (h : vdmaFill dev vdma is = some vdma') :
    (∀ i ∈ is, (dev.vectBufs i).buf ≠ none ∧ vdma'.startAddr i = (dev.vectBufs i).addr) ∧
      ∀ i, i ∉ is → vdma'.startAddr i = vdma.startAddr i := by
  induction is generalizing vdma with
  | nil =>
    cases h
    exact ⟨nofun, fun _ _ => rfl⟩
  | cons j is ih =>
    rw [vdmaFill] at h
    split at h
    · cases h
    · rename_i hj
      obtain ⟨hmem, hother⟩ := ih h
      constructor
      · intro i hi
        by_cases his : i ∈ is
        · exact hmem i his
        · obtain rfl : i = j := by simpa [his] using hi
          exact ⟨fun hn => hj (Or.inl hn), (hother i his).trans (Function.update_self _ _ _)⟩
      · intro i hi
        rw [List.mem_cons, not_or] at hi
        exact (hother i hi.2).trans (Function.update_of_ne hi.1 _ _)

/-- A ring that runs was programmed with the slots. -/
theorem vdmaCtrlConfigure_programmed [NeZero n] (dev : XrccCamDev n) (vdma : Vdma n) (width height bpp : U32)
    (h : (vdmaCtrlConfigure dev vdma width height bpp).running = true) :
    Programmed dev.vectBufs (vdmaCtrlConfigure dev vdma width height bpp) := by
  cases hf : vdmaFill dev (vdmaCtrlReset vdma) (List.finRange n) with
  | none =>
    rw [vdmaCtrlConfigure, hf] at h
    cases h
  | some vdma' =>
    intro i
    have hi := (vdmaFill_spec dev hf).1 i (List.mem_finRange i)
    rw [vdmaCtrlConfigure, hf]
    exact hi

namespace RingSound

variable [NeZero n] {s s' : Streaming n} {c : Capture n}

omit [NeZero n] in
theorem probed (vdma : Vdma n) : RingSound (Streaming.probed n vdma) :=
  ⟨accounts_probed n, rfl, nofun, nofun⟩

theorem alloc (h : RingSound s) {addr : U32} (hc : s.capture.step (.alloc addr) = some c) :
    RingSound { s with capture := c } := by
  have hA := h.accounts.step hc
  obtain ⟨-, hcall⟩ := step_cases hc
  cases hcall
  exact ⟨hA, h.framePtrO, h.uncompleted.live_mono fun b hb => List.mem_cons_of_mem _ hb, h.ring⟩

theorem free (h : RingSound s) {vbuf : Nat} (hc : s.capture.step (.free vbuf) = some c) :
    RingSound { s with capture := c } := by
  have hA := h.accounts.step hc
  obtain ⟨hidle, hcall⟩ := step_cases hc
  cases hcall
  -- between sessions no slot is registered
  have hnone (i : Fin n) : (s.capture.dev.vectBufs i).registered = false := h.accounts.idle hidle i
  exact ⟨hA, h.framePtrO, fun i hi => absurd (hnone i) (by rw [hi]; nofun), h.ring⟩

theorem queue (h : RingSound s) {vbuf : Nat} {addr : U32} (hc : s.capture.step (.queue vbuf addr) = some c) :
    RingSound { s with capture := c, completed := Function.update s.completed vbuf false } := by
  have hA := h.accounts.step hc
  obtain ⟨hlive, hlive', -, hslots | ⟨idx, hf, hdev⟩⟩ := queue_slots hc
  · refine ⟨hA, h.framePtrO, ?_, fun hrun => ?_⟩
    · rw [hlive', hslots]
      exact h.uncompleted.requeue vbuf
    · rw [hslots]
      exact h.ring hrun
  · refine ⟨hA, h.framePtrO, ?_, fun hrun => ?_⟩
    · rw [hlive', hdev]
      exact h.uncompleted.queue hlive idx
    · rw [hdev]
      exact (h.ring hrun).queue (findSlot_some hf).1

theorem irqEffects_back (h : RingSound s) (rxCtrlReg : U32) :
    (s.irqEffects rxCtrlReg).2 = none ∨ (s.irqEffects rxCtrlReg).2 = some rxCtrlReg := by
  unfold Streaming.irqEffects
  cases hirq : xrccCamIrqHandler s.capture.dev rxCtrlReg with
  | error f => exact Or.inl rfl
  | ok r => exact Or.inr (irq_writes_back h.accounts.videoMem h.accounts.vdmaMem hirq)

theorem keepsRdPtr_irq (h : RingSound s) (q : BitVec 6) : KeepsRdPtr q s.irqProg := by
  unfold Streaming.irqProg
  simp only [KeepsRdPtr]
  intro value hv
  obtain hback | hback := h.irqEffects_back value
  · rw [hback]
    trivial
  · rw [hback]
    exact ⟨hv, trivial⟩

theorem irq (h : RingSound s) (bus : BusIn) {rxCtrlReg : U32} (hc : s.capture.step (.irq rxCtrlReg) = some c) :
    RingSound { s with
      capture := c
      regs := s.irqProg.run bus s.regs
      completed := fun b => s.completed b || ((s.irqEffects rxCtrlReg).1.map Prod.fst).contains b } := by
  have hA := h.accounts.step hc
  have hptr : (s.irqProg.run bus s.regs).vdmaFramePtrO = 0 :=
    ((h.keepsRdPtr_irq _).run_framePtrO bus).trans h.framePtrO
  obtain ⟨hlive, hl, ⟨hslots, dev, hirq⟩ | ⟨vbuf, hr, hb, hslots, dev, hirq⟩⟩ := irq_slots h.accounts hc
  · refine ⟨hA, hptr, ?_, fun hrun => ?_⟩
    · rw [hlive, hslots, Streaming.irqEffects, hirq]
      simpa using h.uncompleted
    · rw [hslots]
      exact h.ring hrun
  · refine ⟨hA, hptr, ?_, fun hrun => ?_⟩
    · rw [hlive, hslots, Streaming.irqEffects, hirq]
      exact h.uncompleted.complete fun i hi hri hbi =>
        hi ((h.accounts.ledger hl).once i _ vbuf hri hr hbi hb)
    · rw [hslots]
      exact (h.ring hrun).complete _

theorem startStreaming (h : RingSound s) (fmtIdx : Nat) (bus : BusIn) : RingSound (s.startStreaming fmtIdx bus) := by
  unfold Streaming.startStreaming
  cases xrccCamFormats[fmtIdx]? with
  | none => exact h
  | some fmt =>
    have hptr := ((keepsRdPtr_startStreaming s.regs.vdmaFramePtrO fmt.width fmt.depth).run_framePtrO bus).trans
      h.framePtrO
    have hA := h.accounts
    exact ⟨⟨hA.live, hA.ledger, hA.bounds, hA.idle, hA.idle_unlocked, hA.videoMem, hA.vdmaMem⟩, hptr, h.uncompleted,
      vdmaCtrlConfigure_programmed _ _ _ _ _⟩

theorem stop (h : RingSound s) (bus : BusIn) (hc : s.capture.step .stop = some c) :
    RingSound { s with capture := c, vdma := vdmaCtrlReset s.vdma, regs := stopStreamingProg.run bus s.regs } := by
  obtain ⟨-, ds, hc', hS, -⟩ := h.accounts.stop_spec (step_cases hc).2
  have hlive : c.live = s.capture.live := by rw [hc']; rfl
  refine ⟨h.accounts.step hc, ?_, ?_, nofun⟩
  · exact ((keepsRdPtr_stopStreaming _).run_framePtrO bus).trans h.framePtrO
  · rw [hlive]
    exact h.uncompleted.kept hS.kept

/-- One step keeps the ring sound. -/
theorem step {named : BitVec 6 → Option (Fin n)} (h : RingSound s) {e : StreamEvent}
    (hs : s.step named e = some s') : RingSound s' := by
  cases e with
  | alloc addr =>
    obtain ⟨c, hc, rfl⟩ := Option.map_eq_some_iff.1 hs
    exact h.alloc hc
  | free vbuf =>
    obtain ⟨c, hc, rfl⟩ := Option.map_eq_some_iff.1 hs
    exact h.free hc
  | queue vbuf addr =>
    obtain ⟨c, hc, rfl⟩ := Option.map_eq_some_iff.1 hs
    exact h.queue hc
  | start fmtIdx bus =>
    obtain ⟨-, hs⟩ := Option.ite_none_right_eq_some.1 hs
    cases hs
    exact h.startStreaming fmtIdx bus
  | irq bus =>
    obtain ⟨c, hc, rfl⟩ := Option.map_eq_some_iff.1 hs
    exact h.irq bus hc
  | frame =>
    obtain ⟨-, hs⟩ := Option.ite_none_right_eq_some.1 hs
    cases hs
    exact ⟨h.accounts, h.framePtrO, h.uncompleted, h.ring⟩
  | stop bus =>
    obtain ⟨c, hc, rfl⟩ := Option.map_eq_some_iff.1 hs
    exact h.stop bus hc

omit [NeZero n] in
/-- A registered slot keeps its address free of completed buffers. -/
theorem not_completed (h : RingSound s) {i : Fin n} (hr : (s.capture.dev.vectBufs i).registered = true) {b : Nat}
    (hb : (b, (s.capture.dev.vectBufs i).addr) ∈ s.capture.live) : s.completed b = false := by
  obtain ⟨b', -, hm, hc⟩ := h.uncompleted i hr
  have hbb : b = b' := congrArg Prod.fst (h.accounts.live.addr_inj _ hb _ hm rfl)
  rw [hbb, hc]

/-- The read pointer names no slot, so the next frame goes to the place of the VDMA. -/
theorem target_eq {named : BitVec 6 → Option (Fin n)} (hnamed : named 0 = none) (h : RingSound s) :
    s.vdma.target named s.regs.vdmaFramePtrO = s.vdma.next := by
  rw [Vdma.target, h.framePtrO, hnamed, if_neg nofun]

theorem keepsOff {named : BitVec 6 → Option (Fin n)} (hnamed : named 0 = none) (h : RingSound s) {e : StreamEvent}
    (he : s.Requeued e) : s.KeepsOff named e := by
  intro hframe hrun b hb
  rw [h.target_eq hnamed, (h.ring hrun s.vdma.next).2] at hb
  exact h.not_completed (he hframe hrun) hb

end RingSound

/-- In every run, over any number of sessions, in which each frame begins with the slot at the place of the VDMA
registered again, no frame goes into a buffer that was completed and not queued again. -/
theorem keepsOff_of_requeued [NeZero n] {named : BitVec 6 → Option (Fin n)} (hnamed : named 0 = none) (vdma : Vdma n)
    {es : List StreamEvent} (h : StepsMeet (Streaming.step named) Streaming.Requeued (Streaming.probed n vdma) es) :
    StepsMeet (Streaming.step named) (Streaming.KeepsOff named) (Streaming.probed n vdma) es :=
  h.of_invariant (fun _ _ _ hI _ hs => hI.step hs) (fun _ _ hI he => hI.keepsOff hnamed he) (RingSound.probed vdma)

/-- The slot that a read pointer names: its Gray code starts with 1, and 0 names none. -/
def namedSlot [NeZero n] (ptr : BitVec 6) : Option (Fin n) :=
  if ptr = 0 then none
  else some (Fin.ofNat n (videoGray2bin (ptr.setWidth 32) (BitVec.ofNat 32 n)).toNat)

/-- The VDMA after power-up. -/
def Vdma.off (n : Nat) [NeZero n] : Vdma n := ⟨fun _ => 0, 0, 0, 0, false, 0⟩

/-- The inputs of the register file while the write pointer is `ptr`. -/
def busIn (ptr : BitVec 6) : BusIn := ⟨ptr, ⟨0, 0, 0, 0, false, false, 0, false, false, 0⟩⟩

/-- A stream of three buffers; one frame into each of them, with its interrupt. -/
def firstRound : List StreamEvent :=
  [.alloc 0x1000, .alloc 0x2000, .alloc 0x3000, .queue 0 0x1000, .queue 1 0x2000, .queue 2 0x3000, .start 0 (busIn 0),
    .frame, .irq (busIn 1), .frame, .irq (busIn 3), .frame, .irq (busIn 2)]

/-- User space gives the first buffer back in time. -/
theorem keepsOff_firstRound_queue :
    StepsMeet (Streaming.step namedSlot) (Streaming.KeepsOff namedSlot) (Streaming.probed 3 (Vdma.off 3))
      (firstRound ++ [.queue 0 0x1000, .frame]) :=
  keepsOff_of_requeued (by decide) (Vdma.off 3) (by decide)

/-- User space is slow: the second round begins with the first buffer, which it still holds. -/
theorem not_keepsOff_firstRound_frame :
    (exec (Streaming.step namedSlot) (Streaming.probed 3 (Vdma.off 3)) (firstRound ++ [.frame])).isSome ∧
      ¬ StepsMeet (Streaming.step namedSlot) (Streaming.KeepsOff namedSlot) (Streaming.probed 3 (Vdma.off 3))
        (firstRound ++ [.frame]) := by
  refine ⟨by decide, fun h => ?_⟩
  obtain ⟨s, hs, hrun, hcompleted, hlive⟩ :
      ∃ s, exec (Streaming.step namedSlot) (Streaming.probed 3 (Vdma.off 3)) firstRound = some s ∧
        s.vdma.running = true ∧ s.completed 0 = true ∧
          (0, s.vdma.startAddr (s.vdma.target namedSlot s.regs.vdmaFramePtrO)) ∈ s.capture.live :=
    exists_exec (by decide)
  have hkeeps := ((stepsMeet_append.1 h).2 s hs).1 rfl hrun 0 hlive
  rw [hcompleted] at hkeeps
  cases hkeeps

end RcCarControl.Driver
