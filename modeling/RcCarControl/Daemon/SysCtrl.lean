import RcCarControl.Interface.Messages
import RcCarControl.Fpga.PwmGen

/-!
# Drive commands on the PWM registers

`rccSysCtrl` of `sw/daemon/rcc_sys_ctrl.cpp`: what its constructor and `pushDriveData` write to the registers of
`sys_ctrl_axi`, and what `pwm_gen` makes of it.  A function that returns `none` has overflowed an `int` or converted a
value that the target type does not have.
-/

namespace RcCarControl.Daemon

open Interface Fpga

def cSysCtrlClock : Int := 50000000
def cDefaultPwmPeriod : Int := 16600
def cPwmPulseNom : Int := 1400
def cPwmPulseMax : Int := 1800
def cPwmPulseRange : Int := cPwmPulseMax - cPwmPulseNom
def cPwmPulseLimit : Int := 1000

def pwmCtrlStatEnable : U32 := 0x01

/-- The value of an expression of type `int`. -/
def int32 (x : Int) : Option Int := if -2147483648 ≤ x ∧ x ≤ 2147483647 then some x else none

/-- A write to the register with the word address. -/
abbrev RegWrite := BitVec 3 × U32

/-- `mRegs`: `NULL`, or what the mapped registers read. -/
abbrev Mapping := Option (BitVec 3 → U32)

/-! ### `rccSysCtrl` -/

/-- `timeUs * (cSysCtrlClock/1e6)` as a `double`, which is exact, and converted to `uint32_t`. -/
def convertUsToCnt (timeUs : Int) : Option U32 :=
  let cnt := timeUs * (cSysCtrlClock / 1000000)
  if 0 ≤ cnt ∧ cnt < 4294967296 then some (BitVec.ofInt 32 cnt) else none

def pwmSetPeriod (mRegs : Mapping) (period : Int) : Option (List RegWrite) :=
  (convertUsToCnt period).map fun periodCnts => if mRegs.isSome then [(SysCtrl.pwmPeriod, periodCnts)] else []

def pwmSetActive (mRegs : Mapping) (active0 active1 : Int) : Option (List RegWrite) :=
  (convertUsToCnt active0).bind fun active0Cnts =>
    (convertUsToCnt active1).map fun active1Cnts =>
      if mRegs.isSome then [(SysCtrl.pwmActive0, active0Cnts), (SysCtrl.pwmActive1, active1Cnts)] else []

/-- The constructor, with what `open` and `mmap` have made of `mRegs`. -/
def rccSysCtrl (mRegs : Mapping) : Option (List RegWrite) :=
  if mRegs.isSome then pwmSetPeriod mRegs cDefaultPwmPeriod else some []

def pwmRunning : Mapping → Bool
  | none => false
  | some mRegs => mRegs SysCtrl.pwmCtrlStatus &&& pwmCtrlStatEnable != 0

def limitPulse (value : Int) : Int :=
  if value > cPwmPulseLimit then cPwmPulseLimit
  else if value < -cPwmPulseLimit then -cPwmPulseLimit
  else value

/-- `driveTime` and `steerTime`. -/
def pulseTime (value : Int) : Option Int :=
  (int32 (limitPulse value * cPwmPulseRange)).bind fun scaled =>
    (int32 (scaled.tdiv cPwmPulseLimit)).bind fun time => int32 (cPwmPulseNom + time)

def pushDriveData (mRegs : Mapping) (aData : MsgDrvCtrl) : Option (List RegWrite) :=
  if pwmRunning mRegs then
    (pulseTime aData.drive.toInt).bind fun driveTime =>
      (pulseTime aData.steer.toInt).bind fun steerTime => pwmSetActive mRegs driveTime steerTime
  else some []

/-! ### Counts -/

/-- The counts of a command: 1000 is 100 %, and the pulse is 1400 us and up to 400 us more or less. -/
def pulseCnt (value : Int) : Int := 50 * (1400 + (max (-1000) (min value 1000) * 400).tdiv 1000)

theorem limitPulse_eq (value : Int) : limitPulse value = max (-1000) (min value 1000) := by
  unfold limitPulse cPwmPulseLimit
  split_ifs <;> omega

/-- The division rounds towards zero. -/
theorem tdiv_limit (x : Int) : x.tdiv 1000 = if 0 ≤ x then x / 1000 else -(-x / 1000) := by
  split
  · next h => exact Int.tdiv_eq_ediv_of_nonneg h
  · next h => rw [← Int.tdiv_eq_ediv_of_nonneg (by omega), Int.neg_tdiv, Int.neg_neg]

theorem pulseCnt_bounds (value : Int) : 50000 ≤ pulseCnt value ∧ pulseCnt value ≤ 90000 := by
  unfold pulseCnt
  rw [tdiv_limit]
  split_ifs <;> omega

theorem pulseCnt_mono {v w : Int} (h : v ≤ w) : pulseCnt v ≤ pulseCnt w := by
  unfold pulseCnt
  rw [tdiv_limit, tdiv_limit]
  split_ifs <;> omega

theorem int32_eq {x : Int} (h : -2147483648 ≤ x ∧ x ≤ 2147483647) : int32 x = some x := if_pos h

/-- No step of the computation overflows. -/
theorem pulseTime_convert (value : Int) :
    (pulseTime value).bind convertUsToCnt = some (BitVec.ofInt 32 (pulseCnt value)) := by
  have hb := pulseCnt_bounds value
  unfold pulseCnt at hb
  have hscaled : int32 (max (-1000) (min value 1000) * 400) = some (max (-1000) (min value 1000) * 400) :=
    int32_eq (by omega)
  have htime : int32 ((max (-1000) (min value 1000) * 400).tdiv 1000) =
      some ((max (-1000) (min value 1000) * 400).tdiv 1000) := int32_eq (by omega)
  have hsum : int32 (1400 + (max (-1000) (min value 1000) * 400).tdiv 1000) =
      some (1400 + (max (-1000) (min value 1000) * 400).tdiv 1000) := int32_eq (by omega)
  have hrange : cPwmPulseRange = 400 := rfl
  have hrate : cSysCtrlClock / 1000000 = 50 := rfl
  simp only [pulseTime, limitPulse_eq, hrange, cPwmPulseLimit, cPwmPulseNom, hscaled, htime, hsum, Option.bind_some,
    convertUsToCnt, hrate, pulseCnt]
  rw [if_pos (by omega), Int.mul_comm]

/-! ### Commands -/

theorem pwmRunning_read (regs : SysCtrlRegs) (ver : BitVec 32) (video : VideoMeas) :
    pwmRunning (some (regs.read ver video)) = regs.pwmEnable := by
  have hread : regs.read ver video SysCtrl.pwmCtrlStatus =
      (0#8 ++ 24#8 ++ 0#7 ++ BitVec.ofBool regs.pwmEnable).setWidth 32 := rfl
  unfold pwmRunning
  simp only [hread]
  cases regs.pwmEnable <;> decide

/-- The two writes of a drive command. -/
def driveWrites (aData : MsgDrvCtrl) : List RegWrite :=
  [(SysCtrl.pwmActive0, BitVec.ofInt 32 (pulseCnt aData.drive.toInt)),
    (SysCtrl.pwmActive1, BitVec.ofInt 32 (pulseCnt aData.steer.toInt))]

theorem pushDriveData_eq {mRegs : Mapping} (h : pwmRunning mRegs = true) (aData : MsgDrvCtrl) :
    pushDriveData mRegs aData = some (driveWrites aData) := by
  have hsome : mRegs.isSome = true := by
    cases mRegs with
    | none => cases h
    | some mRegs => rfl
  obtain ⟨driveTime, hdrive, hdrive'⟩ := Option.bind_eq_some_iff.1 (pulseTime_convert aData.drive.toInt)
  obtain ⟨steerTime, hsteer, hsteer'⟩ := Option.bind_eq_some_iff.1 (pulseTime_convert aData.steer.toInt)
  simp only [pushDriveData, h, if_true, hdrive, hsteer, Option.bind_some, pwmSetActive, hdrive', hsteer', Option.map_some,
    hsome, driveWrites]

theorem rccSysCtrl_eq (mRegs : BitVec 3 → U32) : rccSysCtrl (some mRegs) = some [(SysCtrl.pwmPeriod, 830000)] := by
  simp [rccSysCtrl, pwmSetPeriod, convertUsToCnt, cDefaultPwmPeriod, cSysCtrlClock]

/-! ### Pulses -/

/-- A write of a drive command, or one to a register that is none of the PWM. -/
def Commands (w : RegWrite) : Prop :=
  (∃ mRegs aData ws, pushDriveData mRegs aData = some ws ∧ w ∈ ws) ∨
    w.1 ∉ [SysCtrl.pwmCtrlStatus, SysCtrl.pwmPeriod, SysCtrl.pwmActive0, SysCtrl.pwmActive1]

/-- The registers clock by clock, when drive commands are all that is written to those of the PWM. -/
def Driven (r : Nat → SysCtrlRegs) : Prop := ∀ t, ∃ wr, r (t + 1) = (r t).write wr ∧ ∀ w ∈ wr, Commands w

/-- The registers of a PWM that runs with counts of commands. -/
structure PwmSet (regs : SysCtrlRegs) : Prop where
  enable : regs.pwmEnable = true
  period : regs.pwmPeriod = 830000
  active0 : regs.pwmActive0.toNat ≤ 90000
  active1 : regs.pwmActive1.toNat ≤ 90000

/-- The register is wide enough for the counts of a command. -/
theorem toNat_pulseCnt (value : Int) :
    (((BitVec.ofInt 32 (pulseCnt value)).extractLsb' 0 24).toNat : Int) = pulseCnt value := by
  have hb := pulseCnt_bounds value
  simp only [BitVec.extractLsb'_toNat, BitVec.toNat_ofInt, Nat.shiftRight_zero]
  omega

theorem pulseCnt_le (value : Int) : ((BitVec.ofInt 32 (pulseCnt value)).extractLsb' 0 24).toNat ≤ 90000 := by
  have hb := pulseCnt_bounds value
  have hcnt := toNat_pulseCnt value
  omega

/-- What a command writes is counts, to one of the two registers. -/
theorem Commands.cases {w : RegWrite} (h : Commands w) :
    (∃ value, w = (SysCtrl.pwmActive0, BitVec.ofInt 32 (pulseCnt value)) ∨
        w = (SysCtrl.pwmActive1, BitVec.ofInt 32 (pulseCnt value))) ∨
      w.1 ∉ [SysCtrl.pwmCtrlStatus, SysCtrl.pwmPeriod, SysCtrl.pwmActive0, SysCtrl.pwmActive1] := by
  rcases h with ⟨mRegs, aData, ws, hws, hw⟩ | h
  · left
    by_cases hrun : pwmRunning mRegs = true
    · rw [pushDriveData_eq hrun, Option.some.injEq] at hws
      rw [← hws, driveWrites, List.mem_cons, List.mem_singleton] at hw
      rcases hw with hw | hw
      · exact ⟨_, Or.inl hw⟩
      · exact ⟨_, Or.inr hw⟩
    · rw [pushDriveData, if_neg hrun, Option.some.injEq] at hws
      rw [← hws] at hw
      cases hw
  · exact Or.inr h

theorem PwmSet.write {regs : SysCtrlRegs} (h : PwmSet regs) {wr : Option RegWrite} (hw : ∀ w ∈ wr, Commands w) :
    PwmSet (regs.write wr) := by
  cases wr with
  | none => exact h
  | some w =>
    rcases (hw w rfl).cases with ⟨value, rfl | rfl⟩ | hne
    · exact ⟨h.enable, h.period, pulseCnt_le value, h.active1⟩
    · exact ⟨h.enable, h.period, h.active0, pulseCnt_le value⟩
    · simp only [List.mem_cons, List.not_mem_nil, or_false, not_or] at hne
      simp only [SysCtrlRegs.write, if_neg hne.1, if_neg hne.2.1, if_neg hne.2.2.1, if_neg hne.2.2.2]
      split_ifs
      · exact ⟨h.enable, h.period, h.active0, h.active1⟩
      · exact ⟨h.enable, h.period, h.active0, h.active1⟩
      · exact h

theorem PwmSet.driven {r : Nat → SysCtrlRegs} (h : PwmSet (r 0)) (hr : Driven r) (t : Nat) : PwmSet (r t) := by
  induction t with
  | zero => exact h
  | succ t ih =>
    obtain ⟨wr, hwr, hw⟩ := hr t
    rw [hwr]
    exact ih.write hw

theorem PwmSet.fed {r : Nat → SysCtrlRegs} (h : ∀ t, PwmSet (r t)) : Fed 830000 fun t => (r t).pwmIn := by
  intro t
  have ht := h t
  have hperiod : (830000 : BitVec 24).toNat = 830000 := rfl
  refine ⟨ht.enable, ht.period, fun c => ?_⟩
  rw [hperiod]
  cases c with
  | pwm0 =>
    have := ht.active0
    simp only [SysCtrlRegs.pwmIn]
    omega
  | pwm1 =>
    have := ht.active1
    simp only [SysCtrlRegs.pwmIn]
    omega

/-- The registers after the two writes of a command, whatever the active times were before. -/
theorem PwmSet.of_command {regs : SysCtrlRegs} (henable : regs.pwmEnable = true) (hperiod : regs.pwmPeriod = 830000)
    (aData : MsgDrvCtrl) : PwmSet ((driveWrites aData).foldl (fun r w => r.write (some w)) regs) :=
  ⟨henable, hperiod, pulseCnt_le _, pulseCnt_le _⟩

/-- With the PWM running every command is written as its counts, which are those of a pulse shorter than the period, and
each period that starts later is one pulse and then low. -/
theorem pushDriveData_pulses {regs : SysCtrlRegs} (henable : regs.pwmEnable = true) (hperiod : regs.pwmPeriod = 830000)
    (ver : BitVec 32) (video : VideoMeas) (aData : MsgDrvCtrl) :
    rccSysCtrl (some (regs.read ver video)) = some [(SysCtrl.pwmPeriod, 830000)] ∧
      pushDriveData (some (regs.read ver video)) aData = some (driveWrites aData) ∧
      (∀ value, 50000 ≤ pulseCnt value ∧ pulseCnt value ≤ 90000) ∧
      (∀ v w, v ≤ w → pulseCnt v ≤ pulseCnt w) ∧
      ∀ r, r 0 = (driveWrites aData).foldl (fun r w => r.write (some w)) regs → Driven r →
        ∀ (s : PwmGen) t, s.Starts (fun t => (r t).pwmIn) t → ∀ c, ∃ hi lo, 0 < hi ∧ 0 < lo ∧
          Pulse (s.out (fun t => (r t).pwmIn) c) t hi lo ∧ s.Starts (fun t => (r t).pwmIn) (t + hi + lo) ∧
            ∀ k, 0 < k → k < hi + lo → ¬ s.Starts (fun t => (r t).pwmIn) (t + k) := by
  have hrun : pwmRunning (some (regs.read ver video)) = true := (pwmRunning_read regs ver video).trans henable
  refine ⟨rccSysCtrl_eq _, pushDriveData_eq hrun aData, pulseCnt_bounds, fun v w => pulseCnt_mono, ?_⟩
  intro r h0 hr s t ht c
  have hset : PwmSet (r 0) := h0 ▸ PwmSet.of_command henable hperiod aData
  exact PwmGen.exists_pulse (PwmSet.fed (hset.driven hr)) ht c

/-- A PWM that runs with the period of the constructor, after a command. -/
def drivenRegs : SysCtrlRegs := ⟨false, true, 830000, 80000, 50000, false⟩

/-- The generator in the last clock of a period. -/
def lastCount : PwmGen := ⟨829999, 830000, fun _ => 0⟩

theorem pushDriveData_pulses_drivenRegs :
    pushDriveData (some (drivenRegs.read 0x100 ⟨0, 0, 0, 0⟩)) ⟨0, 500, -2000⟩ =
        some [(SysCtrl.pwmActive0, 80000), (SysCtrl.pwmActive1, 50000)] ∧
      ∃ hi lo, 0 < hi ∧ 0 < lo ∧ Pulse (lastCount.out (fun _ => drivenRegs.pwmIn) .pwm0) 1 hi lo := by
  obtain ⟨-, hpush, -, -, hpulse⟩ :=
    @pushDriveData_pulses drivenRegs rfl rfl 0x100 ⟨0, 0, 0, 0⟩ ⟨0, 500, -2000⟩
  have hdriven : Driven fun _ => drivenRegs := fun t => ⟨none, rfl, by simp⟩
  obtain ⟨hi, lo, hpos, hpos', hp, -⟩ :=
    hpulse (fun _ => drivenRegs) (by decide) hdriven lastCount 1 ⟨by decide, 0, rfl, by decide⟩ .pwm0
  exact ⟨hpush.trans (by decide), hi, lo, hpos, hpos', hp⟩

end RcCarControl.Daemon
