import RcCarControl.Fpga.SysCtrlAxi

/-!
# `pwm_gen`

The PWM generator of `fpga/rtl/sys_ctrl/pwm_gen.sv` with `CNT_WIDTH` = 24, and what it puts out while it is enabled: from
the moment its counter comes round to 0, one pulse and then low until the counter comes round again (`exists_pulse`),
provided the active time is at least two counts shorter than the period.
-/

namespace RcCarControl.Fpga

inductive PwmChannel where
  | pwm0
  | pwm1
deriving DecidableEq

structure PwmIn where
  enable : Bool
  period : BitVec 24
  active : PwmChannel → BitVec 24

structure PwmGen where
  mainCnt : BitVec 24
  rPeriod : BitVec 24
  rActive : PwmChannel → BitVec 24

namespace PwmGen

/-- One clock edge with `axi_rstn` low. -/
def reset : PwmGen := ⟨0, 0, fun _ => 0⟩

variable (s : PwmGen) (i : PwmIn)

/-- `main_cnt == r_period-1`; the literal makes it 32 bits, so a period of 0 is never over. -/
def overflow : Bool := s.mainCnt.setWidth 32 == s.rPeriod.setWidth 32 - 1#32

/-- One clock edge out of reset.  The registers are loaded while the generator is disabled and in each clock in which the
counter is 0. -/
def clock : PwmGen :=
  if i.enable then
    { mainCnt := if s.overflow then 0 else s.mainCnt + 1
      rPeriod := if s.mainCnt = 0 then i.period else s.rPeriod
      rActive := if s.mainCnt = 0 then i.active else s.rActive }
  else ⟨0, i.period, i.active⟩

/-- `pwm_0_o` and `pwm_1_o`. -/
def pwmO (c : PwmChannel) : Bool := i.enable && decide (s.mainCnt ≤ s.rActive c)

/-! ### Runs -/

variable (inp : Nat → PwmIn)

def run : Nat → PwmGen
  | 0 => s
  | t + 1 => (run t).clock (inp t)

def out (c : PwmChannel) (t : Nat) : Bool := (s.run inp t).pwmO (inp t) c

/-- A period starts at `t`: the counter comes round to 0. -/
def Starts (t : Nat) : Prop := (s.run inp t).mainCnt = 0 ∧ ∃ u, t = u + 1 ∧ (s.run inp u).mainCnt ≠ 0

end PwmGen

/-- From `t` on `hi` clocks high and then `lo` clocks low. -/
def Pulse (out : Nat → Bool) (t hi lo : Nat) : Prop :=
  (∀ k < hi, out (t + k) = true) ∧ ∀ k < lo, out (t + hi + k) = false

/-- The generator is enabled with the given period and with active times that leave two counts of it. -/
def Fed (period : BitVec 24) (inp : Nat → PwmIn) : Prop :=
  ∀ t, (inp t).enable = true ∧ (inp t).period = period ∧ ∀ c, ((inp t).active c).toNat + 2 ≤ period.toNat

/-- The registers of `sys_ctrl_axi` at the inputs of `pwm_gen`. -/
def SysCtrlRegs.pwmIn (r : SysCtrlRegs) : PwmIn where
  enable := r.pwmEnable
  period := r.pwmPeriod
  active c := match c with
    | .pwm0 => r.pwmActive0
    | .pwm1 => r.pwmActive1

namespace PwmGen

variable {s : PwmGen} {inp : Nat → PwmIn} {period : BitVec 24}

theorem overflow_iff : s.overflow = true ↔ s.mainCnt.toNat + 1 = s.rPeriod.toNat := by
  have hcnt := s.mainCnt.isLt
  have hper := s.rPeriod.isLt
  unfold overflow
  rw [beq_iff_eq, ← BitVec.toNat_inj]
  simp only [BitVec.toNat_sub, BitVec.toNat_setWidth, BitVec.toNat_ofNat]
  omega

/-- Between two zeros the counter counts and the registers stay. -/
theorem clock_counting (hp : s.rPeriod = period) {i : PwmIn} (he : i.enable = true) (h0 : 0 < s.mainCnt.toNat)
    (hlt : s.mainCnt.toNat + 1 < period.toNat) :
    (s.clock i).mainCnt.toNat = s.mainCnt.toNat + 1 ∧ (s.clock i).rPeriod = period ∧
      (s.clock i).rActive = s.rActive := by
  have hne : s.mainCnt ≠ 0 := by
    intro h
    rw [h] at h0
    cases h0
  have hno : ¬ s.overflow = true := by
    rw [overflow_iff, hp]
    omega
  have hbound := period.isLt
  unfold clock
  simp only [he, if_true, if_neg hno, if_neg hne]
  refine ⟨?_, hp, trivial⟩
  rw [BitVec.toNat_add]
  exact Nat.mod_eq_of_lt (by simp; omega)

/-- The last count of a period is followed by 0. -/
theorem clock_last (hp : s.rPeriod = period) {i : PwmIn} (he : i.enable = true)
    (hlast : s.mainCnt.toNat + 1 = period.toNat) : (s.clock i).mainCnt = 0 := by
  have hov : s.overflow = true := by
    rw [overflow_iff, hp, hlast]
  unfold clock
  simp only [he, if_true, hov]

/-- At 0 the registers are loaded. -/
theorem clock_zero (h0 : s.mainCnt = 0) {i : PwmIn} (he : i.enable = true) :
    (s.clock i).rPeriod = i.period ∧ (s.clock i).rActive = i.active ∧
      (s.clock i).mainCnt = if s.rPeriod = 1 then 0 else 1 := by
  have hov : s.overflow = true ↔ s.rPeriod = 1 := by
    unfold overflow
    rw [h0, beq_iff_eq, ← BitVec.toNat_inj, ← BitVec.toNat_inj]
    have hper := s.rPeriod.isLt
    simp only [BitVec.toNat_sub, BitVec.toNat_setWidth, BitVec.toNat_ofNat, BitVec.ofNat_eq_ofNat]
    omega
  unfold clock
  simp only [he, if_true, h0]
  refine ⟨trivial, trivial, ?_⟩
  by_cases h : s.rPeriod = 1
  · rw [if_pos h, if_pos (hov.2 h)]
  · rw [if_neg h, if_neg (mt hov.1 h)]
    rfl

/-! ### Periods -/

/-- From a count of 1 on: the counter counts to the end of the period, with the active times loaded before. -/
theorem run_counting {t k : Nat} (h1 : (s.run inp t).mainCnt.toNat = 1) (hp : (s.run inp t).rPeriod = period)
    (he : ∀ j < k, (inp (t + j)).enable = true) (hk : k + 1 < period.toNat) :
    (s.run inp (t + k)).mainCnt.toNat = k + 1 ∧ (s.run inp (t + k)).rPeriod = period ∧
      (s.run inp (t + k)).rActive = (s.run inp t).rActive := by
  induction k with
  | zero => exact ⟨h1, hp, rfl⟩
  | succ k ih =>
    obtain ⟨hc, hp', ha⟩ := ih (fun j hj => he j (by omega)) (by omega)
    obtain ⟨hc', hp'', ha'⟩ := clock_counting hp' (he k (by omega)) (by omega) (by omega)
    exact ⟨hc'.trans (by rw [hc]), hp'', ha'.trans ha⟩

/-- A zero that the period behind it lasts more than one clock is followed by the counts of the period that it loads,
whatever is on the inputs then. -/
theorem run_from_zero {t : Nat} (h0 : (s.run inp t).mainCnt = 0) (hp : (s.run inp t).rPeriod ≠ 1) {k : Nat} (hk : 0 < k)
    (hlt : k < (inp t).period.toNat) (he : ∀ j < k, (inp (t + j)).enable = true) :
    (s.run inp (t + k)).mainCnt.toNat = k ∧ (s.run inp (t + k)).rPeriod = (inp t).period ∧
      (s.run inp (t + k)).rActive = (inp t).active := by
  obtain ⟨hp₁, ha₁, hc₁⟩ := clock_zero h0 (he 0 hk)
  rw [if_neg hp] at hc₁
  obtain ⟨j, rfl⟩ : ∃ j, k = j + 1 := ⟨k - 1, by omega⟩
  have hshift (i : Nat) : t + (i + 1) = t + 1 + i := by omega
  have h1 : (s.run inp (t + 1)).mainCnt.toNat = 1 := congrArg BitVec.toNat hc₁
  obtain ⟨hc, hp', ha⟩ := run_counting h1 hp₁ (fun i hi => hshift i ▸ he (i + 1) (by omega)) hlt
  rw [hshift]
  exact ⟨hc, hp', ha.trans ha₁⟩

/-- The last count of that period is followed by the next zero. -/
theorem run_next_zero {t : Nat} (h0 : (s.run inp t).mainCnt = 0) (hp : (s.run inp t).rPeriod ≠ 1)
    (hlong : 2 ≤ (inp t).period.toNat) (he : ∀ j < (inp t).period.toNat, (inp (t + j)).enable = true) :
    (s.run inp (t + (inp t).period.toNat)).mainCnt = 0 := by
  have hlast : t + (inp t).period.toNat = t + ((inp t).period.toNat - 1) + 1 := by omega
  obtain ⟨hc, hp', -⟩ := run_from_zero h0 hp (k := (inp t).period.toNat - 1) (by omega) (by omega)
    (fun j hj => he j (by omega))
  rw [hlast]
  exact clock_last hp' (he _ (by omega)) (by omega)

/-- The output is high up to the active time. -/
theorem out_eq {t : Nat} (he : (inp t).enable = true) (c : PwmChannel) :
    s.out inp c t = decide ((s.run inp t).mainCnt.toNat ≤ ((s.run inp t).rActive c).toNat) := by
  unfold out pwmO
  simp only [he, Bool.true_and, BitVec.le_def]

/-- A zero that the period behind it lasts more than one clock is followed by a pulse, low counts and a new start. -/
theorem pulse_of_zero (hin : Fed period inp) {t : Nat} (h0 : (s.run inp t).mainCnt = 0)
    (hp : (s.run inp t).rPeriod ≠ 1) (c : PwmChannel) :
    ∃ hi lo, 0 < hi ∧ 0 < lo ∧ Pulse (s.out inp c) t hi lo ∧ s.Starts inp (t + hi + lo) ∧
      ∀ k, 0 < k → k < hi + lo → (s.run inp (t + k)).mainCnt ≠ 0 := by
  obtain ⟨-, hper, hact⟩ := hin t
  have hle := hact c
  have hnext (k : Nat) (hk : 0 < k) (hk' : k < period.toNat) : (s.run inp (t + k)).mainCnt.toNat = k ∧
      (s.run inp (t + k)).rPeriod = period ∧ (s.run inp (t + k)).rActive = (inp t).active := by
    have hcount := run_from_zero h0 hp hk (hper ▸ hk') fun j _ => (hin (t + j)).1
    rwa [hper] at hcount
  refine ⟨((inp t).active c).toNat + 1, period.toNat - (((inp t).active c).toNat + 1), by omega, by omega, ⟨?_, ?_⟩, ?_, ?_⟩
  · intro k hk
    rw [out_eq (hin _).1]
    rcases Nat.eq_zero_or_pos k with rfl | hpos
    · rw [Nat.add_zero, h0]
      simp
    · obtain ⟨hc, -, ha⟩ := hnext k hpos (by omega)
      rw [hc, ha, decide_eq_true_eq]
      omega
  · intro k hk
    rw [out_eq (hin _).1, Nat.add_assoc]
    obtain ⟨hc, -, ha⟩ := hnext (((inp t).active c).toNat + 1 + k) (by omega) (by omega)
    rw [hc, ha, decide_eq_false_iff_not]
    omega
  · obtain ⟨hc, hp', -⟩ := hnext (period.toNat - 1) (by omega) (by omega)
    have hend : t + (((inp t).active c).toNat + 1) + (period.toNat - (((inp t).active c).toNat + 1)) =
        t + (period.toNat - 1) + 1 := by omega
    rw [hend]
    refine ⟨clock_last hp' (hin _).1 (by omega), _, rfl, fun h => ?_⟩
    rw [h] at hc
    simp at hc
    omega
  · intro k hk hk' h
    obtain ⟨hc, -, -⟩ := hnext k hk (by omega)
    rw [h] at hc
    simp at hc
    omega

/-- Whatever state the generator was in, each period that starts is one pulse and then low until the next start. -/
theorem exists_pulse (hin : Fed period inp) {t : Nat} (ht : s.Starts inp t) (c : PwmChannel) :
    ∃ hi lo, 0 < hi ∧ 0 < lo ∧ Pulse (s.out inp c) t hi lo ∧ s.Starts inp (t + hi + lo) ∧
      ∀ k, 0 < k → k < hi + lo → ¬ s.Starts inp (t + k) := by
  by_cases hp : (s.run inp t).rPeriod = 1
  · -- the period that was loaded before lasts one clock: the counter is 0 once more, with the new period
    obtain ⟨he, hper, hact⟩ := hin t
    obtain ⟨hp₁, -, hc₁⟩ := clock_zero ht.1 he
    rw [if_pos hp] at hc₁
    have hne : ((s.run inp t).clock (inp t)).rPeriod ≠ 1 := by
      rw [hp₁, hper]
      intro h
      have hle := hact c
      rw [h] at hle
      simp at hle
    obtain ⟨hi, lo, hpos, hpos', ⟨hhigh, hlow⟩, hstart, hno⟩ := pulse_of_zero (t := t + 1) hin hc₁ hne c
    refine ⟨hi + 1, lo, by omega, hpos', ⟨?_, ?_⟩, ?_, ?_⟩
    · intro k hk
      rcases Nat.eq_zero_or_pos k with rfl | hk0
      · rw [out_eq (hin _).1, Nat.add_zero, ht.1]
        simp
      · have hk₁ : t + k = t + 1 + (k - 1) := by omega
        rw [hk₁]
        exact hhigh (k - 1) (by omega)
    · intro k hk
      have hk₁ : t + (hi + 1) + k = t + 1 + hi + k := by omega
      rw [hk₁]
      exact hlow k hk
    · have hend : t + (hi + 1) + lo = t + 1 + hi + lo := by omega
      rw [hend]
      exact hstart
    · intro k hk hk' hs
      obtain ⟨h0, u, hu, hu0⟩ := hs
      rcases Nat.eq_or_lt_of_le (show 1 ≤ k from hk) with rfl | hk1
      · have htu : t = u := by omega
        exact hu0 (htu ▸ ht.1)
      · refine hno (k - 1) (by omega) (by omega) ?_
        have hk₁ : t + 1 + (k - 1) = t + k := by omega
        rw [hk₁]
        exact h0
  · obtain ⟨hi, lo, hpos, hpos', hpulse, hstart, hno⟩ := pulse_of_zero hin ht.1 hp c
    exact ⟨hi, lo, hpos, hpos', hpulse, hstart, fun k hk hk' hs => hno k hk hk' hs.1⟩

end PwmGen

end RcCarControl.Fpga
