import RcCarControl.Driver.RingSafety
import RcCarControl.Fpga.VideoCtrlTop

/-!
# A session on the camera core

`xrcc_cam_start_streaming`, `xrcc_cam_stop_streaming` and `xrcc_cam_irq_handler` on the registers of `video_ctrl_top`,
access by access between the clocks of the core.  A handler starts while the interrupt is pending; its accesses and
those of the process come at any edges of the AXI clock.

No access changes the settings of the receiver that `start_streaming` has written, and the test pattern is never
selected, until the receiver is disabled.  So where the instants are regular the video bus carries the numbered frames of
the camera in lines of the length that is programmed into the VDMA (`lines_of_hsize`).
-/

namespace RcCarControl.Driver

open Fpga Lts

/-! ### The accesses -/

/-- The next access of a thread: what it writes, and what it still has to do. -/
def RegProg.access (regs : VideoCtrlRegs) (bus : BusIn) : RegProg → Option (Option (BitVec 6 × U32) × RegProg)
  | .ret => none
  | .read reg next => some (none, next (regs.read bus.vdmaFramePtrI bus.rx (regAddr reg)))
  | .write reg value next => some (some (regAddr reg, value), next)

/-- `xrcc_cam_irq_handler` on the registers. -/
def irqHandlerProg : RegProg := .read videoCtrlRxCtrl fun rxCtrlReg => .write videoCtrlRxCtrl rxCtrlReg .ret

/-- What `start_streaming` does once the receiver is enabled. -/
def enabledProg : RegProg := videoCtrlClearErr <| videoCtrlInten true <| videoCtrlDumpMeas .ret

structure CameraSession where
  core : VideoCtrlTop
  /-- What the process still has to do. -/
  process : RegProg
  /-- What the interrupt handler still has to do. -/
  handler : RegProg

/-- Who does what at an edge of the AXI clock. -/
inductive SessionAccess where
  | none
  | process
  | stop
  | irq
  | handler
deriving DecidableEq

/-- An instant; at an edge of the AXI clock with the inputs of the register file. -/
structure SessionTick where
  pclk : Option CameraIn
  aclk : Option Bool
  axiClk : Option (BusIn × SessionAccess)

namespace CameraSession

variable (s : CameraSession)

/-- The write of an access, and the threads behind it. -/
def access (bus : BusIn) : SessionAccess → Option (Option (BitVec 6 × U32) × RegProg × RegProg)
  | .none => some (none, s.process, s.handler)
  | .process => (s.process.access s.core.regs bus).map fun (wr, process) => (wr, process, s.handler)
  | .stop => if s.process = .ret then some (none, stopStreamingProg, s.handler) else none
  | .irq =>
    if s.core.regs.vdmaFrameInt = true ∧ s.handler = .ret then some (none, s.process, irqHandlerProg) else none
  | .handler => (s.handler.access s.core.regs bus).map fun (wr, handler) => (wr, s.process, handler)

/-- What the core sees of an instant, and the threads behind it. -/
def coreTick (e : SessionTick) : Option (CoreTick × RegProg × RegProg) :=
  match e.axiClk with
  | none => some (⟨e.pclk, e.aclk, none⟩, s.process, s.handler)
  | some (bus, access) =>
    (s.access bus access).map fun (wr, process, handler) =>
      (⟨e.pclk, e.aclk, some (bus.vdmaFramePtrI, wr)⟩, process, handler)

def step (e : SessionTick) : Option CameraSession :=
  (s.coreTick e).bind fun (tick, process, handler) => (s.core.step tick).map fun core => ⟨core, process, handler⟩

/-- The log of the core. -/
def note (e : SessionTick) (g : CoreLog) : CoreLog :=
  match s.coreTick e with
  | none => g
  | some (tick, _) => g.note s.core tick

end CameraSession

/-- `start_streaming` is called while the receiver is off. -/
def CameraSession.entered (core : VideoCtrlTop) (fmt : XrccCamFmt) : CameraSession :=
  ⟨core, startStreamingProg fmt.width fmt.depth, .ret⟩

namespace CameraSession

abbrev Logged := CameraSession × CoreLog

def Logged.step : Logged → SessionTick → Option Logged := withGhost CameraSession.step CameraSession.note

/-- The part with the core. -/
def Logged.core (r : Logged) : VideoCtrlTop.Logged := (r.1.core, r.2)

end CameraSession

/-! ### The settings of the receiver -/

/-- A word for RX_CTRL with RUN and EMB_FMCNT, and without the bit of `pure_bt656`. -/
def EnabledWord (ctrl : U32) : Prop := runBit ctrl = true ∧ ctrl.getLsbD 1 = false ∧ ctrl.getLsbD 6 = true

/-- What a program writes keeps the settings, provided that what it reads in RX_CTRL has them, or it disables the
receiver. -/
def KeepsSettings : RegProg → Prop
  | .ret => True
  | .read reg next => ∀ value, (regAddr reg = rxCtrlAddr → EnabledWord value) → KeepsSettings (next value)
  | .write reg value next =>
    (regAddr reg = rxCtrlAddr → EnabledWord value ∨ runBit value = false) ∧ regAddr reg ≠ tpCtrlAddr ∧
      regAddr reg ≠ rxFifoCtrlAddr ∧ KeepsSettings next

section Words

variable {ctrl mask : U32}

theorem EnabledWord.or (h : EnabledWord ctrl) (hm : mask.getLsbD 1 = false) : EnabledWord (ctrl ||| mask) := by
  obtain ⟨h0, h1, h6⟩ := h
  refine ⟨?_, ?_, ?_⟩
  · show (ctrl ||| mask).getLsbD 0 = true
    rw [BitVec.getLsbD_or, show ctrl.getLsbD 0 = true from h0, Bool.true_or]
  · rw [BitVec.getLsbD_or, h1, hm, Bool.or_self]
  · rw [BitVec.getLsbD_or, h6, Bool.true_or]

theorem EnabledWord.and_not (h : EnabledWord ctrl) (hm : mask.getLsbD 0 = false ∧ mask.getLsbD 6 = false) :
    EnabledWord (ctrl &&& ~~~ mask) := by
  obtain ⟨h0, h1, h6⟩ := h
  refine ⟨?_, ?_, ?_⟩
  · show (ctrl &&& ~~~ mask).getLsbD 0 = true
    rw [BitVec.getLsbD_and, BitVec.getLsbD_not, show ctrl.getLsbD 0 = true from h0, hm.1]
    rfl
  · rw [BitVec.getLsbD_and, h1, Bool.false_and]
  · rw [BitVec.getLsbD_and, BitVec.getLsbD_not, h6, hm.2]
    rfl

end Words

section Programs

variable {next : RegProg} (h : KeepsSettings next)
include h

theorem KeepsSettings.clearErr : KeepsSettings (videoCtrlClearErr next) :=
  ⟨fun hreg => absurd hreg (by decide), by decide, by decide, h⟩

theorem KeepsSettings.inten (intEnable : Bool) : KeepsSettings (videoCtrlInten intEnable next) := by
  intro value hv
  cases intEnable with
  | true => exact ⟨fun hreg => .inl ((hv hreg).or (by decide)), by decide, by decide, h⟩
  | false =>
    have hclear (hreg : regAddr videoCtrlRxCtrl = rxCtrlAddr) : EnabledWord (value &&& ~~~ rxCtrlInten) :=
      (hv hreg).and_not (by decide)
    exact ⟨fun hreg => .inl (hclear hreg), by decide, by decide,
      fun hreg => .inl ((hclear hreg).or (by decide)), by decide, by decide, h⟩

theorem KeepsSettings.dumpMeas : KeepsSettings (videoCtrlDumpMeas next) := fun _ _ _ _ _ _ => h

/-- `video_ctrl_stop` disables the receiver. -/
theorem KeepsSettings.stop : KeepsSettings (videoCtrlStop next) := fun value _ =>
  ⟨fun _ => .inr (by simp [runBit, rxCtrlRun]), by decide, by decide, h⟩

end Programs

theorem keepsSettings_enabled : KeepsSettings enabledProg :=
  have hret : KeepsSettings .ret := trivial
  (hret.dumpMeas.inten true).clearErr

theorem keepsSettings_stopStreaming : KeepsSettings stopStreamingProg :=
  have hret : KeepsSettings .ret := trivial
  (hret.stop.dumpMeas).inten false

theorem keepsSettings_irqHandler : KeepsSettings irqHandlerProg := fun value hv =>
  ⟨fun hreg => .inl (hv hreg), by decide, by decide, trivial⟩

/-! ### The registers -/

/-- `video_ctrl_set_size` for lines of `lineLength` bytes. -/
structure Sized (lineLength : U32) (regs : VideoCtrlRegs) : Prop where
  lineLen : regs.dataFifoLineLen = lineLength.setWidth 11
  start : regs.dataFifoStartRead = lineLength.setWidth 11

theorem Sized.clock_none {lineLength : U32} {regs : VideoCtrlRegs} (h : Sized lineLength regs) (p : BitVec 6) :
    Sized lineLength (regs.clock p none) :=
  ⟨h.lineLen, h.start⟩

/-- The receiver is off, and so are its interrupt and the test pattern. -/
structure Off (regs : VideoCtrlRegs) : Prop where
  rxEnable : regs.rxEnable = false
  pureBt656 : regs.pureBt656 = false
  tpEnGen : regs.tpEnGen = false
  inten : regs.vdmaFrameInten = false
  int : regs.vdmaFrameInt = false

/-- The receiver is enabled with the settings of `start_streaming`. -/
structure On (lineLength : U32) (regs : VideoCtrlRegs) : Prop where
  rxEnable : regs.rxEnable = true
  pureBt656 : regs.pureBt656 = false
  embFrameCnt : regs.embFrameCnt = true
  tpEnGen : regs.tpEnGen = false
  sized : Sized lineLength regs

section Registers

variable {lineLength : U32} {regs : VideoCtrlRegs} (p : BitVec 6)

theorem bit1_rxCtrl : (regs.rxCtrl p).getLsbD 1 = regs.pureBt656 := by
  apply (VideoCtrlRegs.getLsbD_append_bit_succ _ _ _).trans
  exact VideoCtrlRegs.getLsbD_append_bit _ _

theorem bit6_rxCtrl : (regs.rxCtrl p).getLsbD 6 = regs.embFrameCnt := by
  unfold VideoCtrlRegs.rxCtrl
  iterate 6 apply (VideoCtrlRegs.getLsbD_append_bit_succ _ _ _).trans
  exact VideoCtrlRegs.getLsbD_append_bit _ _

theorem On.rxCtrl (h : On lineLength regs) : EnabledWord (regs.rxCtrl p) := by
  refine ⟨?_, ?_, ?_⟩
  · rw [VideoCtrlRegs.rxCtrl_run, h.rxEnable]
  · rw [bit1_rxCtrl, h.pureBt656]
  · rw [bit6_rxCtrl, h.embFrameCnt]

/-- A clock without a write. -/
theorem On.clock_none (h : On lineLength regs) : On lineLength (regs.clock p none) :=
  ⟨h.rxEnable, h.pureBt656, h.embFrameCnt, h.tpEnGen, h.sized.clock_none p⟩

theorem Off.clock_none (h : Off regs) : Off (regs.clock p none) := by
  refine ⟨h.rxEnable, h.pureBt656, h.tpEnGen, h.inten, ?_⟩
  show regs.frameInt p = false
  simp [VideoCtrlRegs.frameInt, h.inten, h.int]

/-- A clock with a write that keeps the settings. -/
theorem On.clock_write (h : On lineLength regs) {addr : BitVec 6} {value : U32}
    (hv : addr = rxCtrlAddr → EnabledWord value) (htp : addr ≠ tpCtrlAddr) (hfifo : addr ≠ rxFifoCtrlAddr) :
    On lineLength (regs.clock p (some (addr, value))) := by
  by_cases hctrl : addr = rxCtrlAddr
  · obtain ⟨h0, h1, h6⟩ := hv hctrl
    subst hctrl
    exact ⟨h0, h1, h6, h.tpEnGen, ⟨h.sized.lineLen, h.sized.start⟩⟩
  · simp only [VideoCtrlRegs.clock, VideoCtrlRegs.write, if_neg htp, if_neg hctrl, if_neg hfifo]
    split_ifs <;>
      exact ⟨h.rxEnable, h.pureBt656, h.embFrameCnt, h.tpEnGen, ⟨h.sized.lineLen, h.sized.start⟩⟩

end Registers

/-! ### Where `start_streaming` stands -/

/-- The accesses left before the receiver is enabled. -/
inductive Starting (width bpp : U32) (regs : VideoCtrlRegs) : RegProg → Prop where
  | entered : Starting width bpp regs (startStreamingProg width bpp)
  | sized (h : Sized (width * bpp) regs) : Starting width bpp regs (videoCtrlRun enabledProg)
  | enabling (h : Sized (width * bpp) regs) {ctrl : U32} (hpure : ctrl.getLsbD 1 = false) :
      Starting width bpp regs (.write videoCtrlRxCtrl (ctrl ||| rxCtrlRun ||| rxCtrlEmbFmcnt) enabledProg)

theorem Starting.ne_ret {width bpp : U32} {regs : VideoCtrlRegs} (h : Starting width bpp regs .ret) : False := by
  cases h

/-- `start_streaming` has not enabled the receiver yet, or it has and nobody is about to change the settings. -/
inductive Driven (width bpp : U32) (regs : VideoCtrlRegs) : RegProg → RegProg → Prop where
  | off {process : RegProg} (hregs : Off regs) (hprocess : Starting width bpp regs process) :
      Driven width bpp regs process .ret
  | on {process handler : RegProg} (hregs : On (width * bpp) regs) (hprocess : KeepsSettings process)
      (hhandler : KeepsSettings handler) : Driven width bpp regs process handler

theorem Driven.tpEnGen {width bpp : U32} {regs : VideoCtrlRegs} {process handler : RegProg}
    (h : Driven width bpp regs process handler) : regs.tpEnGen = false := by
  cases h with
  | off hregs => exact hregs.tpEnGen
  | on hregs => exact hregs.tpEnGen

theorem Driven.on_of_enabled {width bpp : U32} {regs : VideoCtrlRegs} {process handler : RegProg}
    (h : Driven width bpp regs process handler) (hen : regs.rxEnable = true) : On (width * bpp) regs := by
  cases h with
  | off hregs => exact absurd (hregs.rxEnable.symm.trans hen) Bool.false_ne_true
  | on hregs => exact hregs

/-- A line length fits into the fields of RX_FIFO_CTRL. -/
def Fits (lineLength : U32) : Prop := lineLength.toNat < 2 ^ 11

instance (lineLength : U32) : Decidable (Fits lineLength) := inferInstanceAs (Decidable (_ < _))

theorem extract_low (lineLength : U32) :
    (lineLength <<< 16 ||| lineLength).extractLsb' 0 11 = lineLength.setWidth 11 := by
  apply BitVec.eq_of_getLsbD_eq
  intro i hi
  have hlow : i < 16 := by omega
  simp [hi, hlow]

theorem extract_high {lineLength : U32} (h : Fits lineLength) :
    (lineLength <<< 16 ||| lineLength).extractLsb' 16 11 = lineLength.setWidth 11 := by
  apply BitVec.eq_of_getLsbD_eq
  intro i hi
  have hhigh : 16 + i < 32 := by omega
  have hnone : lineLength.getLsbD (16 + i) = false :=
    Nat.testBit_lt_two_pow (h.trans_le (Nat.pow_le_pow_right (by omega) (by omega)))
  rw [BitVec.getLsbD_extractLsb', BitVec.getLsbD_or, BitVec.getLsbD_shiftLeft, BitVec.getLsbD_setWidth, hnone]
  simp [hi, hhigh]

section Step

variable {width bpp : U32} {s t : CameraSession} {regs : VideoCtrlRegs} {bus : BusIn}
  {wr : Option (BitVec 6 × U32)} {process handler : RegProg}

/-- The next access of a program that keeps the settings. -/
theorem KeepsSettings.access {lineLength : U32} {prog prog' : RegProg} (h : KeepsSettings prog)
    (hon : On lineLength regs) (ha : prog.access regs bus = some (wr, prog')) :
    KeepsSettings prog' ∧ (On lineLength (regs.clock bus.vdmaFramePtrI wr) ∨
      (regs.clock bus.vdmaFramePtrI wr).rxEnable = false) := by
  cases prog with
  | ret => cases ha
  | read reg next =>
    cases ha
    refine ⟨h _ fun hreg => ?_, .inl (hon.clock_none _)⟩
    rw [hreg, VideoCtrlRegs.read_rxCtrl]
    exact hon.rxCtrl _
  | write reg value next =>
    cases ha
    obtain ⟨hv, htp, hfifo, hnext⟩ := h
    refine ⟨hnext, ?_⟩
    by_cases hoff : regAddr reg = rxCtrlAddr ∧ runBit value = false
    · rw [hoff.1]
      exact .inr hoff.2
    · exact .inl (hon.clock_write _ (fun hreg => (hv hreg).resolve_right fun hrun => hoff ⟨hreg, hrun⟩) htp hfifo)

/-- The next access of `start_streaming`. -/
theorem Starting.access (h : Starting width bpp regs process) (hoff : Off regs) (hfit : Fits (width * bpp))
    {process' : RegProg} (ha : process.access regs bus = some (wr, process')) :
    Driven width bpp (regs.clock bus.vdmaFramePtrI wr) process' .ret := by
  have hint : regs.frameInt bus.vdmaFramePtrI = false := by simp [VideoCtrlRegs.frameInt, hoff.inten, hoff.int]
  cases h with
  | entered =>
    cases ha
    refine .off ⟨hoff.rxEnable, hoff.pureBt656, hoff.tpEnGen, hoff.inten, hint⟩ (.sized ⟨?_, ?_⟩)
    · exact extract_high hfit
    · exact extract_low _
  | sized h =>
    cases ha
    exact .off (hoff.clock_none _) (.enabling (h.clock_none _) ((bit1_rxCtrl _).trans hoff.pureBt656))
  | @enabling h ctrl hpure =>
    cases ha
    refine .on ⟨?_, ?_, ?_, hoff.tpEnGen, ⟨h.lineLen, h.start⟩⟩ keepsSettings_enabled trivial
    · show (ctrl ||| rxCtrlRun ||| rxCtrlEmbFmcnt).getLsbD 0 = true
      simp [rxCtrlRun]
    · show (ctrl ||| rxCtrlRun ||| rxCtrlEmbFmcnt).getLsbD 1 = false
      rw [BitVec.getLsbD_or, BitVec.getLsbD_or, hpure]
      rfl
    · show (ctrl ||| rxCtrlRun ||| rxCtrlEmbFmcnt).getLsbD 6 = true
      simp [rxCtrlEmbFmcnt]

theorem Driven.clock_none (h : Driven width bpp regs process handler) (p : BitVec 6) :
    Driven width bpp (regs.clock p none) process handler := by
  cases h with
  | off hregs hprocess =>
    refine .off (hregs.clock_none p) ?_
    cases hprocess with
    | entered => exact .entered
    | sized h => exact .sized (h.clock_none p)
    | enabling h hpure => exact .enabling (h.clock_none p) hpure
  | on hregs hprocess hhandler => exact .on (hregs.clock_none p) hprocess hhandler

/-- An access leaves the session driven, or it disables the receiver. -/
theorem Driven.access (h : Driven width bpp s.core.regs s.process s.handler) (hfit : Fits (width * bpp))
    {a : SessionAccess} (ha : s.access bus a = some (wr, process, handler)) :
    Driven width bpp (s.core.regs.clock bus.vdmaFramePtrI wr) process handler ∨
      s.core.regs.rxEnable = true ∧ (s.core.regs.clock bus.vdmaFramePtrI wr).rxEnable = false := by
  obtain ⟨core, process₀, handler₀⟩ := s
  cases a with
  | none =>
    cases ha
    exact .inl (h.clock_none _)
  | process =>
    obtain ⟨⟨wr', process'⟩, hnext, heq⟩ := Option.map_eq_some_iff.1 ha
    cases heq
    cases h with
    | off hregs hprocess => exact .inl (hprocess.access hregs hfit hnext)
    | on hregs hprocess hhandler =>
      obtain ⟨hkeeps, hon | hoff⟩ := hprocess.access hregs hnext
      · exact .inl (.on hon hkeeps hhandler)
      · exact .inr ⟨hregs.rxEnable, hoff⟩
  | stop =>
    obtain ⟨hret, heq⟩ := Option.ite_none_right_eq_some.1 ha
    cases heq
    have hret : process₀ = .ret := hret
    cases h with
    | off hregs hprocess =>
      rw [show _ = RegProg.ret from hret] at hprocess
      exact hprocess.ne_ret.elim
    | on hregs hprocess hhandler => exact .inl (.on (hregs.clock_none _) keepsSettings_stopStreaming hhandler)
  | irq =>
    obtain ⟨⟨hint, -⟩, heq⟩ := Option.ite_none_right_eq_some.1 ha
    cases heq
    cases h with
    | off hregs hprocess => exact absurd (hregs.int.symm.trans hint) Bool.false_ne_true
    | on hregs hprocess hhandler => exact .inl (.on (hregs.clock_none _) hprocess keepsSettings_irqHandler)
  | handler =>
    obtain ⟨⟨wr', handler'⟩, hnext, heq⟩ := Option.map_eq_some_iff.1 ha
    cases heq
    cases h with
    | off hregs hprocess => cases hnext
    | on hregs hprocess hhandler =>
      obtain ⟨hkeeps, hon | hoff⟩ := hhandler.access hregs hnext
      · exact .inl (.on hon hprocess hkeeps)
      · exact .inr ⟨hregs.rxEnable, hoff⟩

/-- What the core does at a step. -/
theorem CameraSession.step_cases {e : SessionTick} (h : s.step e = some t) :
    ∃ tick, s.coreTick e = some (tick, t.process, t.handler) ∧ s.core.step tick = some t.core := by
  obtain ⟨⟨tick, process, handler⟩, htick, h⟩ := Option.bind_eq_some_iff.1 h
  obtain ⟨core, hcore, rfl⟩ := Option.map_eq_some_iff.1 h
  exact ⟨tick, htick, hcore⟩

/-- The registers of the core behind a step, which does not disable the receiver. -/
theorem core_regs {core core' : VideoCtrlTop} {tick : CoreTick} (h : core.step tick = some core') :
    core'.regs = core.regsClock tick ∧ (core.regs.rxEnable = true → core'.regs.rxEnable = true) := by
  unfold VideoCtrlTop.step at h
  split_ifs at h with hdis
  cases h
  refine ⟨rfl, fun hen => ?_⟩
  by_contra hoff
  exact hdis ⟨hen, Bool.eq_false_iff.2 hoff⟩

theorem Driven.step (h : Driven width bpp s.core.regs s.process s.handler) (hfit : Fits (width * bpp))
    {e : SessionTick} (ht : s.step e = some t) : Driven width bpp t.core.regs t.process t.handler := by
  obtain ⟨tick, htick, hcore⟩ := CameraSession.step_cases ht
  obtain ⟨hregs, hstays⟩ := core_regs hcore
  obtain ⟨pclk, aclk, axiClk⟩ := e
  cases axiClk with
  | none =>
    simp only [CameraSession.coreTick, Option.some.injEq, Prod.mk.injEq] at htick
    obtain ⟨rfl, hprocess, hhandler⟩ := htick
    rw [hregs, ← hprocess, ← hhandler]
    exact h
  | some x =>
    obtain ⟨bus, a⟩ := x
    obtain ⟨⟨wr, process, handler⟩, ha, heq⟩ := Option.map_eq_some_iff.1 htick
    simp only [Prod.mk.injEq] at heq
    obtain ⟨rfl, rfl, rfl⟩ := heq
    obtain hdriven | ⟨hen, hdis⟩ := h.access hfit ha
    · rw [hregs]
      exact hdriven
    · have hlow : t.core.regs.rxEnable = false := by
        rw [hregs]
        exact hdis
      rw [hstays hen] at hlow
      cases hlow

end Step

/-! ### The video bus -/

/-- The settings of the receiver in a session. -/
def sessionCfg : Bt656Cfg := ⟨false, true⟩

/-- `data_fifo_line_len` and `data_fifo_start` in a session. -/
def sessionFifo (lineLength : U32) : FifoCtrl := ⟨lineLength.setWidth 11, lineLength.setWidth 11⟩

namespace CameraSession

/-- While the receiver is enabled the instants are regular for it. -/
def Regular (lineLength : U32) (r : Logged) (e : SessionTick) : Prop :=
  ∀ x ∈ r.1.coreTick e, r.1.core.regs.rxEnable = true →
    Bt656ToAxiStream.Regular sessionCfg (sessionFifo lineLength) r.core.rx (r.1.core.moduleTick x.1)

instance (lineLength : U32) (r : Logged) (e : SessionTick) : Decidable (Regular lineLength r e) :=
  inferInstanceAs (Decidable (∀ x ∈ r.1.coreTick e, _ → _))

/-- The driver goes on with the receiver, and the bus has nothing but the beats of the receiver. -/
structure Followed (fmt : XrccCamFmt) (r : Logged) : Prop where
  driven : Driven fmt.width fmt.depth r.1.core.regs r.1.process r.1.handler
  bus : r.2.bus = r.1.core.rx.stream.beats.mapIdx fun j beat => ⟨false, j, beat⟩

/-- Besides, the receiver is in its invariant. -/
structure Inv (fmt : XrccCamFmt) (cnts : BitVec 32) (xs : Nat → VideoIn) (r : Logged) : Prop where
  followed : Followed fmt r
  core : VideoCtrlTop.Inv sessionCfg (sessionFifo (fmt.width * fmt.depth)) cnts xs r.core

variable {fmt : XrccCamFmt} {cnts : BitVec 32} {xs : Nat → VideoIn} {r t : Logged} {e : SessionTick}

theorem core_step (h : Logged.step r e = some t) :
    ∃ x, r.1.coreTick e = some x ∧ VideoCtrlTop.Logged.step r.core x.1 = some t.core := by
  obtain ⟨h, hnote⟩ := withGhost_eq_some.1 h
  obtain ⟨tick, htick, hcore⟩ := step_cases h
  refine ⟨_, htick, withGhost_eq_some.2 ⟨hcore, ?_⟩⟩
  show t.2 = CoreLog.note r.1.core tick r.2
  rw [hnote, note, htick]

/-- An enabled receiver has the settings of the session. -/
theorem Followed.received (h : Followed fmt r) {x : CoreTick × RegProg × RegProg} (hx : r.1.coreTick e = some x)
    (hr : Regular (fmt.width * fmt.depth) r e) :
    VideoCtrlTop.Received sessionCfg (sessionFifo (fmt.width * fmt.depth)) r.core x.1 := by
  intro hen
  have hon := h.driven.on_of_enabled hen
  exact ⟨⟨hon.pureBt656, hon.embFrameCnt⟩, ⟨hon.sized.lineLen, hon.sized.start⟩, hr x hx hen⟩

/-- Without the test pattern the beats of the receiver are those of the bus. -/
theorem Followed.bus_step (h : Followed fmt r) (ht : Logged.step r e = some t) :
    t.2.bus = t.1.core.rx.stream.beats.mapIdx fun j beat => ⟨false, j, beat⟩ := by
  obtain ⟨x, -, hcore⟩ := core_step ht
  have hbeats : t.1.core.rx.stream.beats = r.1.core.rx.stream.beats ++ (r.1.core.rxBeat x.1).toList :=
    VideoCtrlTop.clock_rxBeats hcore
  have hlog : t.2 = CoreLog.note r.1.core x.1 r.2 := congrArg Prod.snd (VideoCtrlTop.step_eq hcore)
  have hsel : r.1.core.muxSel = false := h.driven.tpEnGen
  have hmore : t.2.bus = r.2.bus ++
      (r.1.core.rxBeat x.1).toList.map fun b => ⟨false, r.1.core.rx.stream.beats.length, b⟩ := by
    rw [hlog]
    simp [CoreLog.note, hsel]
  rw [hbeats, hmore, h.bus]
  cases r.1.core.rxBeat x.1 with
  | none => simp
  | some beat => exact List.mapIdx_concat.symm

theorem Followed.step (h : Followed fmt r) (hfit : Fits (fmt.width * fmt.depth)) (ht : Logged.step r e = some t) :
    Followed fmt t :=
  ⟨h.driven.step hfit (withGhost_eq_some.1 ht).1, h.bus_step ht⟩

theorem Inv.step (h : Inv fmt cnts xs r) (hfit : Fits (fmt.width * fmt.depth)) (hL : 1 ≤ (fmt.width * fmt.depth).toNat)
    (hr : Regular (fmt.width * fmt.depth) r e) (ht : Logged.step r e = some t) : Inv fmt cnts xs t where
  followed := h.followed.step hfit ht
  core := by
    obtain ⟨x, hx, hcore⟩ := core_step ht
    refine h.core.step rfl ?_ (h.followed.received hx hr) hcore
    show 1 ≤ ((fmt.width * fmt.depth).setWidth 11).toNat
    rw [BitVec.toNat_setWidth, Nat.mod_eq_of_lt hfit]
    exact hL

section Entered

variable {regs : VideoCtrlRegs} (hoff : Off regs) (fmt : XrccCamFmt) (sizeMem : BitVec 2 → BitVec 32)
  (sizeStatus : BitVec 32) (counts : FrameLength) (mem : BitVec 11 → BitVec 8) (dataOut : BitVec 8)
include hoff

theorem followed_entered : Followed fmt (.entered (.off regs sizeMem sizeStatus counts mem dataOut) fmt, .start) :=
  ⟨.off hoff .entered, rfl⟩

theorem inv_entered (xs : Nat → VideoIn) :
    Inv fmt counts.rxFrameCnts xs (.entered (.off regs sizeMem sizeStatus counts mem dataOut) fmt, .start) :=
  ⟨followed_entered hoff fmt sizeMem sizeStatus counts mem dataOut,
    VideoCtrlTop.inv_off regs sizeMem sizeStatus counts mem dataOut xs⟩

end Entered

/-- Both formats have lines that fit. -/
theorem fits_xrccCamFormats :
    ∀ fmt ∈ xrccCamFormats, Fits (fmt.width * fmt.depth) ∧ 1 ≤ (fmt.width * fmt.depth).toNat := by
  decide

end CameraSession

/-- In every session with a format whose lines fit, whatever interrupts come and at whatever clocks the accesses of the
driver fall, up to the one that disables the receiver: the test pattern is not selected, and an enabled receiver has the
settings that `start_streaming` wrote.  If besides the instants were regular for the receiver, and on the pins lines have
two bytes at least and keep clear of the frame starts, every beat of the video bus is the byte of one clock of PCLK, in order
and without a gap, with the number of its frame in the first two bytes and TUSER on the first; and TLAST is up on exactly each
HSIZE-th beat, as the VDMA is programmed. -/
theorem lines_of_hsize {n : Nat} [NeZero n] {dev : XrccCamDev n} {vdma : Vdma n} {fmt : XrccCamFmt}
    (hfit : Fits (fmt.width * fmt.depth)) (hL : 1 ≤ (fmt.width * fmt.depth).toNat)
    (hrun : (vdmaCtrlConfigure dev vdma fmt.width fmt.height fmt.depth).running = true)
    {regs : VideoCtrlRegs} (hoff : Off regs) (sizeMem : BitVec 2 → BitVec 32) (sizeStatus : BitVec 32)
    (counts : FrameLength) (mem : BitVec 11 → BitVec 8) (dataOut : BitVec 8) {es : List SessionTick}
    {t : CameraSession.Logged}
    (h : exec CameraSession.Logged.step (.entered (.off regs sizeMem sizeStatus counts mem dataOut) fmt, .start) es =
      some t) :
    (t.1.core.muxSel = false ∧ ∀ b ∈ t.2.bus, b.muxSel = false) ∧
      (t.1.core.regs.rxEnable = true → On (fmt.width * fmt.depth) t.1.core.regs) ∧
      (StepsMeet CameraSession.Logged.step (CameraSession.Regular (fmt.width * fmt.depth))
          (.entered (.off regs sizeMem sizeStatus counts mem dataOut) fmt, .start) es →
        ∀ xs, Extends xs t.2.rx.status.samples → LongLines xs → QuietStarts xs → (∀ k, (xs k).dataFifoFull = false) →
          ∀ j b, t.2.bus[j]? = some b → ∃ k,
            (captured xs (t.2.rx.status.samples.length - 1))[j]? = some k ∧
              numberedByte counts.rxFrameCnts xs k = some b.beat.tdata ∧ (b.beat.tuser = true ↔ byteNo xs k = 0) ∧
              (b.beat.tlast = true ↔
                (j + 1) % (vdmaCtrlConfigure dev vdma fmt.width fmt.height fmt.depth).hsize.toNat = 0)) := by
  have hfollowed : CameraSession.Followed fmt t :=
    exec_invariant' (fun _ _ _ hf ht => hf.step hfit ht)
      (CameraSession.followed_entered hoff fmt sizeMem sizeStatus counts mem dataOut) h
  refine ⟨⟨hfollowed.driven.tpEnGen, fun b hb => ?_⟩, hfollowed.driven.on_of_enabled, fun hr xs hx hl hq hfull => ?_⟩
  · rw [hfollowed.bus] at hb
    obtain ⟨j, -, rfl⟩ := List.mem_mapIdx.1 hb
    rfl
  · -- at regular instants the receiver is in its invariant besides
    have hinv : CameraSession.Inv fmt counts.rxFrameCnts xs t :=
      exec_invariant (fun _ _ _ hi hr ht => hi.step hfit hL hr ht)
        (CameraSession.inv_entered hoff fmt sizeMem sizeStatus counts mem dataOut xs) hr h
    intro j b hj
    rw [hfollowed.bus, List.getElem?_mapIdx] at hj
    obtain ⟨beat, hbeat, rfl⟩ := Option.map_eq_some_iff.1 hj
    have hlen : (sessionFifo (fmt.width * fmt.depth)).dataFifoLineLen.toNat = (fmt.width * fmt.depth).toNat := by
      show ((fmt.width * fmt.depth).setWidth 11).toNat = _
      rw [BitVec.toNat_setWidth, Nat.mod_eq_of_lt hfit]
    obtain ⟨k, hk, hdata, htuser, htlast⟩ := hinv.core.rx.beat rfl rfl hx hl hq hfull hbeat
    rw [hlen] at htlast
    rw [(vdmaCtrlConfigure_running hrun).1]
    exact ⟨k, hk, hdata, htuser, htlast⟩

/-- An edge of both AXI clocks, with the write pointer of the VDMA. -/
def axiEdge (p : BitVec 6) (access : SessionAccess) : SessionTick := ⟨none, some true, some (busIn p, access)⟩

/-- The accesses of `start_streaming`; two frames, with the interrupt of the VDMA in the first; and `stop_streaming` up to
its last access. -/
def twoFramesSession : List SessionTick :=
  List.replicate 9 (axiEdge 0 .process) ++
    (List.range 24).flatMap (fun k =>
      [axiEdge 1 (if k = 3 then .irq else if k = 4 ∨ k = 6 then .handler else .none),
        ⟨some (VideoCtrlTop.twoFramesCamera k), none, none⟩, axiEdge 1 .none]) ++
    axiEdge 1 .stop :: List.replicate 7 (axiEdge 1 .process)

/-- The receiver samples the strobe of `video_ctrl_clear_err` at the third PCLK. -/
def twoFramesVideo (k : Nat) : VideoIn := { StatusPath.twoFramesVideo k with syncRstSizeErr := k == 2 }

/-- Three buffers in the slots. -/
def threeBuffers : XrccCamDev 3 where
  vectBufs i := ⟨some i, BitVec.ofNat 32 (0x1000 * (i + 1)), true⟩
  queuedLock := false
  sequence := 0
  frameCnt := 0
  videoCtrlMem := true
  vdmaCtrlMem := true

theorem running_threeBuffers (fmt : XrccCamFmt) :
    (vdmaCtrlConfigure threeBuffers (Vdma.off 3) fmt.width fmt.height fmt.depth).running = true := rfl

/-- Before the first session with a format, with a frame counter that stands at 255. -/
def firstSession (fmt : XrccCamFmt) : CameraSession.Logged :=
  (.entered (.off .reset (fun _ => 0) 0 ⟨0, 0, 255⟩ (fun _ => 0) 0) fmt, .start)

/-- With a format of the driver the receiver is enabled, and with lines of three bytes both frames come to the bus. -/
theorem lines_of_hsize_twoFrames :
    (∃ t, exec CameraSession.Logged.step (firstSession ⟨640, 480, 2⟩) (List.replicate 9 (axiEdge 0 .process)) = some t ∧
      t.1.core.muxSel = false ∧ On 1280 t.1.core.regs) ∧
    ∃ t, exec CameraSession.Logged.step (firstSession ⟨3, 1, 1⟩) twoFramesSession = some t ∧
      t.2.bus.map (fun b => b.beat.tdata) = [0, 255, 7, 1, 0, 17] ∧
      ∀ j b, t.2.bus[j]? = some b → ∃ k,
        (captured twoFramesVideo (t.2.rx.status.samples.length - 1))[j]? = some k ∧
          numberedByte 255 twoFramesVideo k = some b.beat.tdata ∧ (b.beat.tuser = true ↔ byteNo twoFramesVideo k = 0) ∧
          (b.beat.tlast = true ↔ (j + 1) % (vdmaCtrlConfigure threeBuffers (Vdma.off 3) 3 1 1).hsize.toNat = 0) := by
  have hoff : Off .reset := ⟨rfl, rfl, rfl, rfl, rfl⟩
  constructor
  · obtain ⟨hfit, hL⟩ := CameraSession.fits_xrccCamFormats ⟨640, 480, 2⟩ List.mem_cons_self
    obtain ⟨t, ht, hen⟩ := @exists_exec _ _ CameraSession.Logged.step (fun t => t.1.core.regs.rxEnable = true) _
      (firstSession ⟨640, 480, 2⟩) (List.replicate 9 (axiEdge 0 .process)) (by decide +kernel)
    obtain ⟨⟨hsel, -⟩, hon, -⟩ := lines_of_hsize hfit hL (running_threeBuffers ⟨640, 480, 2⟩) hoff (fun _ => 0) 0
      ⟨0, 0, 255⟩ (fun _ => 0) 0 ht
    exact ⟨t, ht, hsel, hon hen⟩
  · obtain ⟨t, ht, hbus, hsamples⟩ := @exists_exec _ _ CameraSession.Logged.step
      (fun t => t.2.bus.map (fun b => b.beat.tdata) = [0, 255, 7, 1, 0, 17] ∧
        t.2.rx.status.samples = (List.range 24).map twoFramesVideo) _ (firstSession ⟨3, 1, 1⟩) twoFramesSession
      (by decide +kernel)
    have hx : Extends twoFramesVideo t.2.rx.status.samples := by
      rw [hsamples]
      exact extends_range _ _
    have hr : StepsMeet CameraSession.Logged.step (CameraSession.Regular 3) (firstSession ⟨3, 1, 1⟩) twoFramesSession := by
      decide +kernel
    have hfit : Fits (XrccCamFmt.width ⟨3, 1, 1⟩ * XrccCamFmt.depth ⟨3, 1, 1⟩) := by decide
    obtain ⟨-, -, hlines⟩ := lines_of_hsize hfit (by decide) (running_threeBuffers ⟨3, 1, 1⟩) hoff (fun _ => 0) 0
      ⟨0, 0, 255⟩ (fun _ => 0) 0 ht
    exact ⟨t, ht, hbus, hlines hr twoFramesVideo hx StatusPath.longLines_twoFrames StatusPath.quietStarts_twoFrames
      fun _ => rfl⟩

end RcCarControl.Driver
