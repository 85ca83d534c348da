import RcCarControl.Fpga.SysCtrlTop

/-!
# The pads in `bd_system_wrapper`

`sys_ctrl_top` as `fpga/rtl/system_top.sv` wires it: one clock and reset for both of its sides, and the radio's signals at
the pad inputs.  The name at the first of them, `wm0_rf`, is declared nowhere, so it is a net of its own that nothing
drives.
-/

namespace RcCarControl.Fpga

open Lts

/-- What a net carries: a bit, or nothing drives it. -/
inductive Net where
  | z
  | bit (b : Bool)
deriving DecidableEq

/-- The inputs of a clock cycle: the master of the bus, the video stream, and the radio, which the edge does not see. -/
structure WrapperIn where
  bus : AxiIn 3 Unit
  video : MeasIn
  rf : PwmChannel → Bool

/-- The clock edge for `sys_ctrl_top`. -/
def WrapperIn.tick (i : WrapperIn) : TopTick := ⟨some (true, i.bus), some (true, i.video)⟩

/-- `.pwm0_pad_i(wm0_rf)` and `.pwm1_pad_i(pwm1_rf)`. -/
def padI (rf : PwmChannel → Bool) : PwmChannel → Net
  | .pwm0 => .z
  | .pwm1 => .bit (rf .pwm1)

/-- The pads `pwm0` and `pwm1`. -/
def wrapperPad (s : SysCtrlTop) (rf : PwmChannel → Bool) (c : PwmChannel) : Net := s.padO .bit (padI rf) c

/-! ### Writes to `IOCTRL` -/

/-- The observer of the bus and the last value written to bit 0 of `IOCTRL`. -/
structure IoctrlWatch where
  watch : AxiWatch 3
  muxSel : Bool

abbrev Wrapper := SysCtrlTop × IoctrlWatch

/-- Address and data are accepted. -/
def IoctrlWatch.note (s : SysCtrlTop) (i : WrapperIn) (g : IoctrlWatch) : IoctrlWatch where
  watch := AxiWatch.note s.axi i.bus g.watch
  muxSel :=
    if (i.bus.awvalid && s.axi.awready && i.bus.wvalid && s.axi.wready) = true ∧
        wordAddr i.bus.awaddr = SysCtrl.ioctrlAddr then i.bus.wdata.getLsbD 0
    else g.muxSel

namespace Wrapper

variable (ver : BitVec 32)

def step : Wrapper → WrapperIn → Option Wrapper := withGhost (fun s i => some (s.step ver i.tick)) IoctrlWatch.note

/-- Behind a reset phase, whatever was before. -/
def start (s : SysCtrlTop) (rs : List TopTick) : Wrapper := (s.run ver rs, ⟨.start, false⟩)

def Stable (x : Wrapper) (i : WrapperIn) : Prop := x.2.watch.Stable i.bus

/-- The pads carry what the last value written to `IOCTRL` selects. -/
def PadsRight (x : Wrapper) (i : WrapperIn) : Prop :=
  ∀ c, wrapperPad x.1 i.rf c = .bit (if x.2.muxSel then i.rf c else x.1.pwm.pwmO x.1.axi.regs.pwmIn c)

def Deselected (x : Wrapper) (_ : WrapperIn) : Prop := x.2.muxSel = false

instance (p : PwmChannel → Prop) [∀ c, Decidable (p c)] : Decidable (∀ c, p c) :=
  decidable_of_iff (p .pwm0 ∧ p .pwm1) ⟨fun h c => by cases c; exacts [h.1, h.2], fun h => ⟨h .pwm0, h .pwm1⟩⟩

instance (x : Wrapper) (i : WrapperIn) : Decidable (x.Stable i) := inferInstanceAs (Decidable (AxiWatch.Stable _ _))

instance (x : Wrapper) (i : WrapperIn) : Decidable (x.PadsRight i) := inferInstanceAs (Decidable (∀ _, _))

/-- The register is the last value written, and a latched address is the one that is offered. -/
structure Sync (x : Wrapper) : Prop where
  muxSel : x.1.axi.regs.pwmMuxSel = x.2.muxSel
  axiAwaddr : x.1.axi.awready = true → x.2.watch.offeredAw.map wordAddr = some x.1.axi.axiAwaddr

variable {ver}

theorem sync_start {s : SysCtrlTop} {rs : List TopTick} (h : ResetPhase rs) : (start ver s rs).Sync := by
  obtain ⟨-, hc, -⟩ := @SysCtrlTop.run_reset ver s _ h.1
  have hc := hc (Or.inl h.2.1)
  refine ⟨hc.pwmMuxSel, fun haw => ?_⟩
  rw [start, hc.awready] at haw
  cases haw

/-- The write decode on the selector. -/
theorem pwmMuxSel_write (r : SysCtrlRegs) (wr : Option (BitVec 3 × BitVec 32)) : (r.write wr).pwmMuxSel =
    match wr with
    | some (axiAwaddr, wdata) => if axiAwaddr = SysCtrl.ioctrlAddr then wdata.getLsbD 0 else r.pwmMuxSel
    | none => r.pwmMuxSel := by
  cases wr with
  | none => rfl
  | some w =>
    simp only [SysCtrlRegs.write]
    split_ifs <;> rfl

theorem Sync.step {x y : Wrapper} {i : WrapperIn} (h : x.Sync) (hi : x.Stable i) (hy : step ver x i = some y) :
    y.Sync := by
  obtain ⟨s, g⟩ := x
  obtain ⟨s', g'⟩ := y
  obtain ⟨hs, rfl⟩ := withGhost_eq_some.1 hy
  simp only [Option.some.injEq] at hs
  subst hs
  have haxi : (s.step ver i.tick).axi = s.axi.clock (i.bus.withExt s.meas.out) (sysCtrlAxi ver) := rfl
  constructor
  · simp only [haxi, AxiSlave.clock, sysCtrlAxi, pwmMuxSel_write, IoctrlWatch.note]
    by_cases hw : s.axi.slvRegWren (i.bus.withExt s.meas.out) = true
    · have hall := hw
      simp only [AxiSlave.slvRegWren, AxiIn.withExt, Bool.and_eq_true] at hall
      obtain ⟨⟨⟨hwvalid, hwready⟩, hawvalid⟩, hawready⟩ := hall
      -- the address latched a clock ago is still the one offered
      have haddr : wordAddr i.bus.awaddr = s.axi.axiAwaddr := by
        have hlatch := h.axiAwaddr hawready
        obtain ⟨addr, hoff, hword⟩ := Option.map_eq_some_iff.1 hlatch
        have hstable := (hi.1 (by rw [hoff]; rfl)).2
        rw [hoff, Option.some.injEq] at hstable
        rw [← hstable, hword]
      simp only [hw, if_true, hwvalid, hwready, hawvalid, hawready, haddr, Bool.and_self, true_and]
      split
      · rfl
      · exact h.muxSel
    · have hno : ¬ ((i.bus.awvalid && s.axi.awready && i.bus.wvalid && s.axi.wready) = true) := by
        simp only [AxiSlave.slvRegWren, AxiIn.withExt] at hw
        grind
      rw [if_neg hw, if_neg fun hc => hno hc.1]
      exact h.muxSel
  · intro haw
    simp only [haxi, AxiSlave.clock, AxiIn.withExt, Bool.and_eq_true] at haw
    simp only [haxi, AxiSlave.clock, AxiSlave.latchAw, IoctrlWatch.note, AxiWatch.note, AxiIn.withExt, haw, Bool.and_self,
      if_true, Option.map_some]

/-- The radio's signal is not selected, or it is that of the second channel. -/
theorem Sync.pads_iff_deselected {x : Wrapper} (h : x.Sync) (i : WrapperIn) : x.PadsRight i ↔ x.Deselected i := by
  unfold PadsRight Deselected
  constructor
  · intro hp
    by_contra hm
    rw [Bool.not_eq_false] at hm
    have h0 := hp .pwm0
    simp [wrapperPad, SysCtrlTop.padO, h.muxSel, hm, padI] at h0
  · intro hm c
    simp [wrapperPad, SysCtrlTop.padO, h.muxSel, hm]

/-- In a run behind a reset the pads are right in every cycle exactly if the radio is selected in none. -/
theorem padsRight_iff {s : SysCtrlTop} {rs : List TopTick} (hrs : ResetPhase rs) {is : List WrapperIn}
    (hi : StepsMeet (step ver) Stable (start ver s rs) is) :
    StepsMeet (step ver) PadsRight (start ver s rs) is ↔ StepsMeet (step ver) Deselected (start ver s rs) is := by
  constructor
  · intro h
    exact (hi.and h).of_invariant (fun _ _ _ hx hi => hx.step hi.1) (fun _ i hx hi => (hx.pads_iff_deselected i).1 hi.2)
      (sync_start hrs)
  · intro h
    exact (hi.and h).of_invariant (fun _ _ _ hx hi => hx.step hi.1) (fun _ i hx hi => (hx.pads_iff_deselected i).2 hi.2)
      (sync_start hrs)

/-- A clock at which the master writes `IOCTRL`, or offers nothing, with the radio's signals high. -/
def ioctrlIn (valid : Bool) (wdata : BitVec 32) : WrapperIn where
  bus := {
    awaddr := 4
    awvalid := valid
    wdata := wdata
    wvalid := valid
    bready := true
    araddr := 0
    arvalid := false
    rready := false
    ext := () }
  video := ⟨false, false, false, false⟩
  rf _ := true

open SysCtrlTop in
theorem padsRight_iff_deselect : StepsMeet (step 0x100) PadsRight (start 0x100 (driving false) [resetTick])
      [ioctrlIn true 0, ioctrlIn true 0, ioctrlIn false 0] ↔
    StepsMeet (step 0x100) Deselected (start 0x100 (driving false) [resetTick])
      [ioctrlIn true 0, ioctrlIn true 0, ioctrlIn false 0] :=
  padsRight_iff resetPhase_resetTick (by decide)

/-- With the radio selected nothing drives the first pad. -/
theorem not_padsRight_select : ¬ StepsMeet (step 0x100) PadsRight (start 0x100 (SysCtrlTop.driving false) [SysCtrlTop.resetTick])
    [ioctrlIn true 1, ioctrlIn true 1, ioctrlIn false 0] := by
  decide

end Wrapper

end RcCarControl.Fpga
