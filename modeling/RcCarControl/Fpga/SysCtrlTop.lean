import RcCarControl.Fpga.PwmGen

/-!
# `sys_ctrl_top` and its resets

`fpga/rtl/sys_ctrl/video_meas.sv` and `sys_ctrl_top.sv`: the registers, the PWM generator, the video measurement and the
pads.  Two runs with the same inputs that begin with a reset of both clock domains look the same exactly if the registers
of the PWM, which have no reset, were the same before (`resetErases_iff`).
-/

namespace RcCarControl.Fpga

/-! ### `video_meas` -/

/-- The video bus at an edge of its clock. -/
structure MeasIn where
  tready : Bool
  tvalid : Bool
  tuser : Bool
  tlast : Bool

structure VideoMeasRegs where
  frameCnt : BitVec 8
  frameLen : BitVec 24
  linesCnt : BitVec 12
  pixelCnt : BitVec 12
  videoLinesCntO : BitVec 12
  videoPixelCntO : BitVec 12
  videoFrameLenO : BitVec 24
  tvalidD : Bool
deriving DecidableEq

namespace VideoMeasRegs

/-- One clock edge with `ARESETn` low. -/
def reset : VideoMeasRegs := ⟨0, 0, 0, 0, 0, 0, 0, false⟩

variable (m : VideoMeasRegs)

/-- One clock edge out of reset. -/
def clock (videoMeasEn : Bool) (i : MeasIn) : VideoMeasRegs :=
  let validData := i.tready && i.tvalid
  let sof := validData && i.tuser
  let eol := validData && i.tlast
  let tvalidUpdate := m.tvalidD && !i.tvalid
  let m' : VideoMeasRegs :=
    if videoMeasEn then
      if validData || tvalidUpdate then
        let counted := { m with pixelCnt := m.pixelCnt + 1, frameLen := m.frameLen + 1 }
        let framed :=
          if sof || tvalidUpdate then
            { counted with
              frameCnt := m.frameCnt + 1
              videoFrameLenO := m.frameLen
              frameLen := 0
              pixelCnt := 0
              videoLinesCntO := m.linesCnt
              linesCnt := 0 }
          else counted
        if eol then { framed with linesCnt := m.linesCnt + 1, pixelCnt := 0, videoPixelCntO := m.pixelCnt } else framed
      else m
    else { m with frameCnt := 0, frameLen := 0, pixelCnt := 0, linesCnt := 0 }
  { m' with tvalidD := i.tvalid }

/-- What `sys_ctrl_axi` reads. -/
def out : VideoMeas := ⟨m.frameCnt, m.videoFrameLenO, m.videoLinesCntO, m.videoPixelCntO⟩

end VideoMeasRegs

/-! ### `sys_ctrl_top` -/

structure SysCtrlTop where
  axi : AxiSlave 3 SysCtrlRegs
  pwm : PwmGen
  meas : VideoMeasRegs

/-- The inputs at an instant with an edge of the AXI clock or of the video clock or of both, each with its `ARESETn`. -/
structure TopTick where
  axi : Option (Bool × AxiIn 3 Unit)
  video : Option (Bool × MeasIn)

/-- The signals of the master, with what the other inputs of the slave are. -/
def AxiIn.withExt {n : Nat} {ι : Type} (i : AxiIn n Unit) (ext : ι) : AxiIn n ι := { i with ext := ext }

namespace SysCtrlTop

variable (ver : BitVec 32) (s : SysCtrlTop)

def clockAxi (aresetn : Bool) (i : AxiIn 3 Unit) : AxiSlave 3 SysCtrlRegs :=
  if aresetn then s.axi.clock (i.withExt s.meas.out) (sysCtrlAxi ver)
  else s.axi.reset (i.withExt s.meas.out) (sysCtrlAxi ver)

def step (i : TopTick) : SysCtrlTop where
  axi := i.axi.elim s.axi fun e => s.clockAxi ver e.1 e.2
  pwm := i.axi.elim s.pwm fun e => if e.1 then s.pwm.clock s.axi.regs.pwmIn else .reset
  meas := i.video.elim s.meas fun e => if e.1 then s.meas.clock s.axi.regs.videoMeasEn e.2 else .reset

def run (is : List TopTick) : SysCtrlTop := is.foldl (step ver) s

/-- `pwm0_pad_o` and `pwm1_pad_o` with the pins at `pwm0_pad_i` and `pwm1_pad_i`; what a pin carries is any type. -/
def padO {ω : Type} (ofBool : Bool → ω) (padI : PwmChannel → ω) (c : PwmChannel) : ω :=
  if s.axi.regs.pwmMuxSel then padI c else ofBool (s.pwm.pwmO s.axi.regs.pwmIn c)

/-- The value of a read that is performed at the tick. -/
def readAt (i : TopTick) : Option (BitVec 32) :=
  i.axi.bind fun e => if e.1 && s.axi.slvRegRden (e.2.withExt s.meas.out) then some (s.step ver i).axi.rdata else none

/-- A register is written at the tick. -/
def writesAt (i : TopTick) : Bool := i.axi.any fun e => e.1 && s.axi.slvRegWren (e.2.withExt s.meas.out)

/-- The values of the reads before a register is written. -/
def reads : SysCtrlTop → List TopTick → List (BitVec 32)
  | _, [] => []
  | s, i :: is => (s.readAt ver i).toList ++ if s.writesAt i then [] else reads (s.step ver i) is

end SysCtrlTop

/-- At least one edge of each clock, and all edges in reset. -/
def ResetPhase (is : List TopTick) : Prop :=
  (∀ i ∈ is, (∀ e ∈ i.axi, e.1 = false) ∧ ∀ e ∈ i.video, e.1 = false) ∧
    (∃ i ∈ is, i.axi.isSome = true) ∧ ∃ i ∈ is, i.video.isSome = true

/-- All edges out of reset. -/
def Released (is : List TopTick) : Prop := ∀ i ∈ is, (∀ e ∈ i.axi, e.1 = true) ∧ ∀ e ∈ i.video, e.1 = true

/-- After a reset the two states look the same: the pads, the valid flags and what is read before anything is written. -/
def ResetErases (ver : BitVec 32) (s t : SysCtrlTop) : Prop :=
  ∀ rs is, ResetPhase rs → Released is →
    (∀ (padI : PwmChannel → Bool) c, ((s.run ver rs).run ver is).padO id padI c = ((t.run ver rs).run ver is).padO id padI c) ∧
      ((s.run ver rs).run ver is).axi.bvalid = ((t.run ver rs).run ver is).axi.bvalid ∧
      ((s.run ver rs).run ver is).axi.rvalid = ((t.run ver rs).run ver is).axi.rvalid ∧
      (s.run ver rs).reads ver is = (t.run ver rs).reads ver is

/-! ### After a reset -/

namespace SysCtrlTop

variable {ver : BitVec 32} {s t : SysCtrlTop}

/-- What a reset of the AXI side leaves. -/
structure AxiCleared (s : SysCtrlTop) : Prop where
  awready : s.axi.awready = false
  wready : s.axi.wready = false
  bvalid : s.axi.bvalid = false
  arready : s.axi.arready = false
  rvalid : s.axi.rvalid = false
  pwmMuxSel : s.axi.regs.pwmMuxSel = false
  videoMeasEn : s.axi.regs.videoMeasEn = false
  pwm : s.pwm = .reset

theorem axiCleared_of_reset {i : TopTick} {e : Bool × AxiIn 3 Unit} (hi : i.axi = some e) (he : e.1 = false) :
    (s.step ver i).AxiCleared := by
  obtain ⟨aresetn, bus⟩ := e
  subst he
  constructor <;> simp only [step, hi, Option.elim_some] <;> rfl

theorem AxiCleared.step_none {i : TopTick} (h : s.AxiCleared) (hi : i.axi = none) : (s.step ver i).AxiCleared := by
  have haxi : (s.step ver i).axi = s.axi := by simp [step, hi]
  have hpwm : (s.step ver i).pwm = s.pwm := by simp [step, hi]
  constructor
  · rw [haxi, h.awready]
  · rw [haxi, h.wready]
  · rw [haxi, h.bvalid]
  · rw [haxi, h.arready]
  · rw [haxi, h.rvalid]
  · rw [haxi, h.pwmMuxSel]
  · rw [haxi, h.videoMeasEn]
  · rw [hpwm, h.pwm]

/-- A clock edge in reset leaves the registers of the PWM. -/
theorem pwmIn_step_reset {i : TopTick} (hi : ∀ e ∈ i.axi, e.1 = false) :
    (s.step ver i).axi.regs.pwmIn = s.axi.regs.pwmIn := by
  cases ha : i.axi with
  | none => simp [step, ha]
  | some e =>
    have he : e.1 = false := hi e ha
    simp only [step, ha, Option.elim_some, clockAxi, he]
    rfl

theorem run_cons (i : TopTick) (is : List TopTick) : s.run ver (i :: is) = (s.step ver i).run ver is := rfl

/-- The reset phase: the registers of the PWM stay; behind an edge of a clock its side is cleared. -/
theorem run_reset {rs : List TopTick} (h : ∀ i ∈ rs, (∀ e ∈ i.axi, e.1 = false) ∧ ∀ e ∈ i.video, e.1 = false) :
    (s.run ver rs).axi.regs.pwmIn = s.axi.regs.pwmIn ∧
      ((∃ i ∈ rs, i.axi.isSome = true) ∨ s.AxiCleared → (s.run ver rs).AxiCleared) ∧
      ((∃ i ∈ rs, i.video.isSome = true) ∨ s.meas = .reset → (s.run ver rs).meas = .reset) := by
  induction rs generalizing s with
  | nil => exact ⟨rfl, by simp [run], by simp [run]⟩
  | cons i rs ih =>
    obtain ⟨hi, hrs⟩ := List.forall_mem_cons.1 h
    obtain ⟨hregs, haxi, hmeas⟩ := ih (s := s.step ver i) hrs
    rw [run_cons]
    refine ⟨hregs.trans (pwmIn_step_reset hi.1), fun hax => haxi ?_, fun hv => hmeas ?_⟩
    · cases ha : i.axi with
      | some e => exact Or.inr (axiCleared_of_reset ha (hi.1 e ha))
      | none =>
        rcases hax with ⟨j, hj, hsome⟩ | hc
        · rcases List.mem_cons.1 hj with rfl | hj
          · rw [ha] at hsome
            cases hsome
          · exact Or.inl ⟨j, hj, hsome⟩
        · exact Or.inr (hc.step_none ha)
    · cases hv' : i.video with
      | some e =>
        right
        simp [step, hv', hi.2 e hv']
      | none =>
        rcases hv with ⟨j, hj, hsome⟩ | hc
        · rcases List.mem_cons.1 hj with rfl | hj
          · rw [hv'] at hsome
            cases hsome
          · exact Or.inl ⟨j, hj, hsome⟩
        · right
          simp [step, hv', hc]

end SysCtrlTop

/-! ### Two runs -/

/-- The slaves differ at most in latched addresses and responses that nothing uses. -/
structure AxiSlave.Alike {n : Nat} {ρ : Type} (a b : AxiSlave n ρ) : Prop where
  awready : a.awready = b.awready
  wready : a.wready = b.wready
  bvalid : a.bvalid = b.bvalid
  arready : a.arready = b.arready
  rvalid : a.rvalid = b.rvalid
  axiAwaddr : a.awready = true → a.axiAwaddr = b.axiAwaddr
  axiAraddr : a.arready = true → a.axiAraddr = b.axiAraddr
  regs : a.regs = b.regs

namespace AxiSlave.Alike

variable {n : Nat} {ρ ι : Type} {a b : AxiSlave n ρ} (h : a.Alike b) (i : AxiIn n ι)
include h

theorem wren : a.slvRegWren i = b.slvRegWren i := by
  simp only [slvRegWren, h.awready, h.wready]

theorem rden : a.slvRegRden i = b.slvRegRden i := by
  simp only [slvRegRden, h.arready, h.rvalid]

/-- A write strobe comes with the address that both have latched. -/
theorem strobe : (if a.slvRegWren i then some (a.axiAwaddr, i.wdata) else none) =
    if b.slvRegWren i then some (b.axiAwaddr, i.wdata) else none := by
  rw [← h.wren i]
  split
  · next hw =>
    simp only [slvRegWren, Bool.and_eq_true] at hw
    rw [h.axiAwaddr hw.2]
  · rfl

/-- An edge out of reset keeps them alike. -/
theorem clock (D : Decode n ρ ι) : (a.clock i D).Alike (b.clock i D) where
  awready := by simp only [AxiSlave.clock, h.awready]
  wready := by simp only [AxiSlave.clock, h.wready]
  bvalid := by simp only [AxiSlave.clock, h.wren i, h.bvalid]
  arready := by simp only [AxiSlave.clock, h.arready]
  rvalid := by simp only [AxiSlave.clock, h.rden i, h.rvalid]
  axiAwaddr := by
    intro haw
    simp only [AxiSlave.clock] at haw
    simp only [AxiSlave.clock, latchAw, ← h.awready, haw, if_true]
  axiAraddr := by
    intro har
    simp only [AxiSlave.clock] at har
    simp only [AxiSlave.clock, latchAr, ← h.arready, har, if_true]
  regs := by simp only [AxiSlave.clock, h.regs, h.strobe i]

/-- A read returns the same word. -/
theorem rdata (D : Decode n ρ ι) (hr : a.slvRegRden i = true) : (a.clock i D).rdata = (b.clock i D).rdata := by
  have hr' : b.slvRegRden i = true := (h.rden i).symm.trans hr
  simp only [AxiSlave.clock, hr, hr', if_true, h.regs]
  simp only [slvRegRden, Bool.and_eq_true] at hr
  rw [h.axiAraddr hr.1.2]

end AxiSlave.Alike

namespace SysCtrlTop

variable {ver : BitVec 32} {s t : SysCtrlTop}

structure Alike (s t : SysCtrlTop) : Prop where
  axi : s.axi.Alike t.axi
  pwm : s.pwm = t.pwm
  meas : s.meas = t.meas

theorem Alike.step (h : s.Alike t) {i : TopTick} (hi : ∀ e ∈ i.axi, e.1 = true) :
    (s.step ver i).Alike (t.step ver i) := by
  have hmeas : (s.step ver i).meas = (t.step ver i).meas := by
    simp only [SysCtrlTop.step, h.meas, h.axi.regs]
  refine ⟨?_, ?_, hmeas⟩
  · cases ha : i.axi with
    | none => simpa only [SysCtrlTop.step, ha, Option.elim_none] using h.axi
    | some e =>
      simp only [SysCtrlTop.step, ha, Option.elim_some, clockAxi, hi e ha, if_true, h.meas]
      exact h.axi.clock _ _
  · simp only [SysCtrlTop.step, h.pwm, h.axi.regs]

theorem Alike.run (h : s.Alike t) {is : List TopTick} (hi : Released is) : (s.run ver is).Alike (t.run ver is) := by
  induction is generalizing s t with
  | nil => exact h
  | cons i is ih =>
    obtain ⟨hi, his⟩ := List.forall_mem_cons.1 hi
    rw [run_cons, run_cons]
    exact ih (h.step hi.1) his

theorem Alike.readAt (h : s.Alike t) (i : TopTick) : s.readAt ver i = t.readAt ver i := by
  unfold SysCtrlTop.readAt
  cases ha : i.axi with
  | none => rfl
  | some e =>
    simp only [Option.bind_some, ← h.meas, ← h.axi.rden]
    split
    · next hr =>
      rw [Bool.and_eq_true] at hr
      simp only [SysCtrlTop.step, ha, Option.elim_some, clockAxi, hr.1, if_true, ← h.meas]
      exact congrArg some (h.axi.rdata _ _ hr.2)
    · rfl

theorem Alike.reads (h : s.Alike t) {is : List TopTick} (hi : Released is) : s.reads ver is = t.reads ver is := by
  induction is generalizing s t with
  | nil => rfl
  | cons i is ih =>
    obtain ⟨hi, his⟩ := List.forall_mem_cons.1 hi
    have hw : s.writesAt i = t.writesAt i := by
      simp only [SysCtrlTop.writesAt, h.axi.wren, h.meas]
    rw [SysCtrlTop.reads, SysCtrlTop.reads, h.readAt i, hw, ih (h.step hi.1) his]

theorem Alike.padO (h : s.Alike t) {ω : Type} (ofBool : Bool → ω) (padI : PwmChannel → ω) (c : PwmChannel) :
    s.padO ofBool padI c = t.padO ofBool padI c := by
  simp only [SysCtrlTop.padO, h.axi.regs, h.pwm]

/-- Two cleared states with the same PWM registers are alike. -/
theorem AxiCleared.alike (hs : s.AxiCleared) (ht : t.AxiCleared) (hmeas : s.meas = t.meas)
    (henable : s.axi.regs.pwmEnable = t.axi.regs.pwmEnable) (hperiod : s.axi.regs.pwmPeriod = t.axi.regs.pwmPeriod)
    (h0 : s.axi.regs.pwmActive0 = t.axi.regs.pwmActive0) (h1 : s.axi.regs.pwmActive1 = t.axi.regs.pwmActive1) :
    s.Alike t := by
  refine ⟨?_, hs.pwm.trans ht.pwm.symm, hmeas⟩
  constructor
  · rw [hs.awready, ht.awready]
  · rw [hs.wready, ht.wready]
  · rw [hs.bvalid, ht.bvalid]
  · rw [hs.arready, ht.arready]
  · rw [hs.rvalid, ht.rvalid]
  · intro h
    rw [hs.awready] at h
    cases h
  · intro h
    rw [hs.arready] at h
    cases h
  · have hmux := hs.pwmMuxSel.trans ht.pwmMuxSel.symm
    have hmeasEn := hs.videoMeasEn.trans ht.videoMeasEn.symm
    cases hr : s.axi.regs
    cases hr' : t.axi.regs
    simp_all

/-! ### Reading a register -/

/-- An edge of the AXI clock out of reset at which the master offers to read the word address. -/
def readTick (addr : BitVec 3) : TopTick where
  axi := some (true, {
    awaddr := 0
    awvalid := false
    wdata := 0
    wvalid := false
    bready := false
    araddr := addr ++ 0#2
    arvalid := true
    rready := false
    ext := () })
  video := none

theorem wordAddr_append (addr : BitVec 3) : wordAddr (addr ++ 0#2) = addr := by
  decide +revert

/-- After a reset the second edge returns the register. -/
theorem AxiCleared.reads (h : s.AxiCleared) (addr : BitVec 3) :
    s.reads ver [readTick addr, readTick addr] = [s.axi.regs.read ver s.meas.out addr] := by
  have hno : s.readAt ver (readTick addr) = none := by
    simp [readAt, readTick, AxiIn.withExt, AxiSlave.slvRegRden, h.arready]
  have hw (u : SysCtrlTop) : u.writesAt (readTick addr) = false := by
    simp [writesAt, readTick, AxiIn.withExt, AxiSlave.slvRegWren]
  have hstep : (s.step ver (readTick addr)).readAt ver (readTick addr) = some (s.axi.regs.read ver s.meas.out addr) := by
    simp [readAt, SysCtrlTop.step, clockAxi, readTick, AxiIn.withExt, AxiSlave.clock, AxiSlave.slvRegRden,
      AxiSlave.slvRegWren, AxiSlave.latchAr, h.arready, h.rvalid, wordAddr_append, sysCtrlAxi, SysCtrlRegs.write]
  simp [SysCtrlTop.reads, hno, hw, hstep]

theorem released_readTick (addr : BitVec 3) : Released [readTick addr, readTick addr] := by
  intro i hi
  simp only [List.mem_cons, List.not_mem_nil, or_false, or_self] at hi
  subst hi
  exact ⟨fun e he => by cases he; rfl, fun e he => by cases he⟩

/-! ### What a reset leaves behind -/

/-- One edge of both clocks in reset. -/
def resetTick : TopTick where
  axi := some (false, {
    awaddr := 0
    awvalid := false
    wdata := 0
    wvalid := false
    bready := false
    araddr := 0
    arvalid := false
    rready := false
    ext := () })
  video := some (false, ⟨false, false, false, false⟩)

theorem resetPhase_resetTick : ResetPhase [resetTick] := by
  refine ⟨fun i hi => ?_, ⟨resetTick, List.mem_singleton_self _, rfl⟩, ⟨resetTick, List.mem_singleton_self _, rfl⟩⟩
  rw [List.mem_singleton.1 hi]
  exact ⟨fun e he => by cases he; rfl, fun e he => by cases he; rfl⟩

theorem pwmIn_eq_iff {r r' : SysCtrlRegs} : r.pwmIn = r'.pwmIn ↔ r.pwmEnable = r'.pwmEnable ∧
    r.pwmPeriod = r'.pwmPeriod ∧ r.pwmActive0 = r'.pwmActive0 ∧ r.pwmActive1 = r'.pwmActive1 := by
  simp only [SysCtrlRegs.pwmIn, PwmIn.mk.injEq]
  constructor
  · rintro ⟨he, hp, ha⟩
    exact ⟨he, hp, congrFun ha .pwm0, congrFun ha .pwm1⟩
  · rintro ⟨he, hp, h0, h1⟩
    exact ⟨he, hp, funext fun c => by cases c <;> assumption⟩

/-- The words of the PWM registers determine them. -/
theorem pwmIn_eq_of_read {r r' : SysCtrlRegs} {video video' : VideoMeas}
    (h : ∀ addr, r.read ver video addr = r'.read ver video' addr) : r.pwmIn = r'.pwmIn := by
  have hlow {x y : BitVec 24} (hxy : 0#8 ++ x = 0#8 ++ y) : x = y := (BitVec.append_right_inj 0#8).1 hxy
  have henable : r.pwmEnable = r'.pwmEnable := by
    have hbit := congrArg (fun w => w.getLsbD 0) (h SysCtrl.pwmCtrlStatus)
    revert hbit
    show (BitVec.getLsbD ((0#8 ++ 24#8 ++ 0#7 ++ BitVec.ofBool r.pwmEnable).setWidth 32) 0 =
      BitVec.getLsbD ((0#8 ++ 24#8 ++ 0#7 ++ BitVec.ofBool r'.pwmEnable).setWidth 32) 0) → _
    cases r.pwmEnable <;> cases r'.pwmEnable <;> decide
  exact pwmIn_eq_iff.2 ⟨henable, hlow (h SysCtrl.pwmPeriod), hlow (h SysCtrl.pwmActive0), hlow (h SysCtrl.pwmActive1)⟩

/-- A reset erases the history of the module exactly as far as the registers of the PWM, which it leaves, agree. -/
theorem resetErases_iff (ver : BitVec 32) (s t : SysCtrlTop) :
    ResetErases ver s t ↔ s.axi.regs.pwmEnable = t.axi.regs.pwmEnable ∧ s.axi.regs.pwmPeriod = t.axi.regs.pwmPeriod ∧
      s.axi.regs.pwmActive0 = t.axi.regs.pwmActive0 ∧ s.axi.regs.pwmActive1 = t.axi.regs.pwmActive1 := by
  rw [← pwmIn_eq_iff]
  constructor
  · intro h
    obtain ⟨hs, hcs, -⟩ := @run_reset ver s _ resetPhase_resetTick.1
    obtain ⟨ht, hct, -⟩ := @run_reset ver t _ resetPhase_resetTick.1
    rw [← hs, ← ht]
    have hread (addr : BitVec 3) := (h [resetTick] _ resetPhase_resetTick (released_readTick addr)).2.2.2
    simp only [(hcs (Or.inl resetPhase_resetTick.2.1)).reads, (hct (Or.inl resetPhase_resetTick.2.1)).reads,
      List.cons.injEq, and_true] at hread
    exact pwmIn_eq_of_read hread
  · intro hregs rs is hrs his
    obtain ⟨hs, hcs, hms⟩ := @run_reset ver s _ hrs.1
    obtain ⟨ht, hct, hmt⟩ := @run_reset ver t _ hrs.1
    have hpwm := pwmIn_eq_iff.1 (hs.trans (hregs.trans ht.symm))
    have halike : (s.run ver rs).Alike (t.run ver rs) :=
      (hcs (Or.inl hrs.2.1)).alike (hct (Or.inl hrs.2.1)) ((hms (Or.inl hrs.2.2)).trans (hmt (Or.inl hrs.2.2)).symm)
        hpwm.1 hpwm.2.1 hpwm.2.2.1 hpwm.2.2.2
    have hrun : ((s.run ver rs).run ver is).Alike ((t.run ver rs).run ver is) := halike.run his
    exact ⟨fun padI c => hrun.padO id padI c, hrun.axi.bvalid, hrun.axi.rvalid, halike.reads his⟩

/-- The module with the PWM enabled or not, in the middle of a period. -/
def driving (enable : Bool) : SysCtrlTop where
  axi := ⟨false, false, 0, false, 0, false, 0, false, 0, 0, ⟨false, enable, 830000, 70000, 70000, false⟩⟩
  pwm := ⟨100, 830000, fun _ => 70000⟩
  meas := .reset

/-- A PWM that was driving the car drives it again after the reset. -/
theorem not_resetErases_driving : ¬ ResetErases 0x100 (driving true) (driving false) := by
  intro h
  have hpad := (h [resetTick] [] resetPhase_resetTick (by intro i hi; cases hi)).1 (fun _ => false) .pwm0
  revert hpad
  decide

end SysCtrlTop

end RcCarControl.Fpga
