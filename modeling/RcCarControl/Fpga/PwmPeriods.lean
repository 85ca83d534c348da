import RcCarControl.Fpga.PwmGen
import Mathlib.Data.Nat.Periodic

/-!
# The periods of `pwm_gen`

What a period of `fpga/rtl/sys_ctrl/pwm_gen.sv` looks like.  The registers are loaded at the count of 0 and the outputs
compare with `<=`, so a period has the length that was on the input at its first clock, and each output is high from its
start for one clock more than the active time that was there (`period_of_zero`).  With constant inputs the outputs are
periodic, and the active time comes out right exactly if it is not shorter than the period
(`settles_iff`).
-/

namespace RcCarControl.Fpga.PwmGen

variable {s : PwmGen} {inp : Nat → PwmIn}

/-- How long the pulse of a period is whose first clock has the inputs `i`. -/
def pulseLength (i : PwmIn) (c : PwmChannel) : Nat := min ((i.active c).toNat + 1) i.period.toNat

/-! ### One period -/

/-- In a period the output compares the count with the active time of the first clock. -/
theorem out_from_zero {t : Nat} (h0 : (s.run inp t).mainCnt = 0) (hp : (s.run inp t).rPeriod ≠ 1) (c : PwmChannel)
    {k : Nat} (hlt : k < (inp t).period.toNat) (he : ∀ j ≤ k, (inp (t + j)).enable = true) :
    s.out inp c (t + k) = decide (k ≤ ((inp t).active c).toNat) := by
  rw [out_eq (he k le_rfl)]
  rcases Nat.eq_zero_or_pos k with rfl | hk
  · rw [Nat.add_zero, h0]
    simp
  · obtain ⟨hc, -, ha⟩ := run_from_zero h0 hp hk hlt fun j hj => he j (by omega)
    rw [hc, ha]

/-- With periods of at least two clocks the register never holds a period of one again. -/
theorem run_rPeriod_ne_one {t : Nat} (hp : (s.run inp t).rPeriod ≠ 1) (hper : ∀ t, 2 ≤ (inp t).period.toNat) (k : Nat) :
    (s.run inp (t + k)).rPeriod ≠ 1 := by
  induction k with
  | zero => exact hp
  | succ k ih =>
    have hload : (inp (t + k)).period ≠ 1 := by
      intro h
      have hlong := hper (t + k)
      rw [h] at hlong
      exact absurd hlong (by decide)
    change ((s.run inp (t + k)).clock (inp (t + k))).rPeriod ≠ 1
    unfold clock
    split
    · dsimp only
      split
      · exact hload
      · exact ih
    · exact hload

/-- Out of reset, with periods of at least two clocks: a period that is not switched off has the length that is on the
input in its first clock, and each output is one pulse whose length those inputs give. -/
theorem period_of_zero (hper : ∀ t, 2 ≤ (inp t).period.toNat) {t : Nat} (h0 : (reset.run inp t).mainCnt = 0)
    (he : ∀ k < (inp t).period.toNat, (inp (t + k)).enable = true) :
    (∀ k, 0 < k → k < (inp t).period.toNat → (reset.run inp (t + k)).mainCnt ≠ 0) ∧
      (reset.run inp (t + (inp t).period.toNat)).mainCnt = 0 ∧
      ∀ c, Pulse (reset.out inp c) t (pulseLength (inp t) c) ((inp t).period.toNat - pulseLength (inp t) c) := by
  have hstart : (reset.run inp 0).rPeriod ≠ 1 := by
    change (0 : BitVec 24) ≠ 1
    decide
  have hp : (reset.run inp t).rPeriod ≠ 1 := by
    have hkeep := run_rPeriod_ne_one hstart hper t
    rwa [Nat.zero_add] at hkeep
  have hout (c : PwmChannel) {k : Nat} (hk : k < (inp t).period.toNat) :
      reset.out inp c (t + k) = decide (k ≤ ((inp t).active c).toNat) :=
    out_from_zero h0 hp c hk fun j hj => he j (by omega)
  refine ⟨?_, run_next_zero h0 hp (hper t) he, ?_⟩
  · intro k hpos hk h
    obtain ⟨hc, -, -⟩ := run_from_zero h0 hp hpos hk fun j hj => he j (by omega)
    rw [h] at hc
    exact hpos.ne hc
  · intro c
    unfold pulseLength
    constructor
    · intro k hk
      rw [hout c (by omega), decide_eq_true_eq]
      omega
    · intro k hk
      rw [Nat.add_assoc, hout c (by omega), decide_eq_false_iff_not]
      omega

/-- Settings that change after the first clock of a period of three. -/
def rewritten (t : Nat) : PwmIn := ⟨true, if t = 0 then 3 else 5, fun _ => if t = 0 then 1 else 4⟩

theorem period_of_rewritten :
    (∀ k, 0 < k → k < 3 → (reset.run rewritten (0 + k)).mainCnt ≠ 0) ∧ (reset.run rewritten (0 + 3)).mainCnt = 0 ∧
      ∀ c, Pulse (reset.out rewritten c) 0 2 1 :=
  @period_of_zero rewritten (fun t => by unfold rewritten; dsimp only; split <;> decide) 0 rfl fun _ _ => rfl

/-! ### The first zero -/

/-- The number of clocks up to the next count of 0: to the end of the period, or to the end of the counter where the
period was passed already. -/
def untilZero (s : PwmGen) : Nat :=
  if s.mainCnt = 0 then 0
  else if s.mainCnt.toNat < s.rPeriod.toNat then s.rPeriod.toNat - s.mainCnt.toNat
  else 2 ^ 24 - s.mainCnt.toNat

theorem untilZero_eq_zero (s : PwmGen) : s.untilZero = 0 ↔ s.mainCnt = 0 := by
  have hbound := s.mainCnt.isLt
  unfold untilZero
  split_ifs with h0 hlt
  · exact ⟨fun _ => h0, fun _ => rfl⟩
  · exact ⟨fun h => by omega, fun h => absurd h h0⟩
  · exact ⟨fun h => by omega, fun h => absurd h h0⟩

/-- Away from 0 the counter goes on to the next zero, whatever is on the inputs. -/
theorem untilZero_clock {i : PwmIn} (he : i.enable = true) (h0 : s.mainCnt ≠ 0) :
    (s.clock i).untilZero + 1 = s.untilZero := by
  have hpos : 0 < s.mainCnt.toNat := Nat.pos_of_ne_zero fun h => h0 (BitVec.eq_of_toNat_eq h)
  have hbound := s.mainCnt.isLt
  have hzero (n : BitVec 24) : n = 0 ↔ n.toNat = 0 := by
    rw [← BitVec.toNat_inj]
    rfl
  have hclock : s.clock i = { s with mainCnt := if s.overflow then 0 else s.mainCnt + 1 } := by
    unfold clock
    rw [if_pos he, if_neg h0, if_neg h0]
  rw [hclock]
  by_cases hov : s.overflow = true
  · rw [if_pos hov]
    have hlast := overflow_iff.1 hov
    unfold untilZero
    rw [if_pos rfl, if_neg h0, if_pos (by omega)]
    omega
  · rw [if_neg hov]
    have hnot := mt overflow_iff.2 hov
    have hnext : (s.mainCnt + 1).toNat = (s.mainCnt.toNat + 1) % 2 ^ 24 := BitVec.toNat_add _ _
    have hper := s.rPeriod.isLt
    unfold untilZero
    simp only [hzero, hnext]
    split_ifs <;> omega

/-- After that many clocks the counter is 0. -/
theorem run_untilZero (he : ∀ t, (inp t).enable = true) : (s.run inp s.untilZero).mainCnt = 0 := by
  have hcount : ∀ k ≤ s.untilZero, (s.run inp k).untilZero + k = s.untilZero := by
    intro k hk
    induction k with
    | zero => rfl
    | succ k ih =>
      have hrest := ih (by omega)
      have h0 : (s.run inp k).mainCnt ≠ 0 := by
        rw [Ne, ← untilZero_eq_zero]
        omega
      have hstep : (s.run inp (k + 1)).untilZero + 1 = (s.run inp k).untilZero := untilZero_clock (he k) h0
      omega
  have hend := hcount s.untilZero le_rfl
  rw [← untilZero_eq_zero]
  omega

/-! ### Constant inputs -/

/-- The generator is enabled and the inputs do not change. -/
def held (P : BitVec 24) (A : PwmChannel → BitVec 24) (_ : Nat) : PwmIn := ⟨true, P, A⟩

/-- From `t₀` on the output repeats after `P` clocks and is high for `hi` of any `P` clocks in a row. -/
def Steady (out : Nat → Bool) (P hi t₀ : Nat) : Prop :=
  ∀ t, t₀ ≤ t → out (t + P) = out t ∧ ((Finset.Ico t (t + P)).filter fun u => out u = true).card = hi

/-- Counts that repeat from `t₀` on, compared with an active time. -/
theorem steady_of_mod {out : Nat → Bool} {P A t₀ : Nat} (hP : 0 < P)
    (h : ∀ k, out (t₀ + k) = decide (k % P ≤ A)) : Steady out P (min (A + 1) P) t₀ := by
  have hout (t : Nat) (ht : t₀ ≤ t) : out t = decide ((t - t₀) % P ≤ A) := by
    have hk := h (t - t₀)
    rwa [Nat.add_sub_cancel' ht] at hk
  -- the same comparison for all numbers, also those before `t₀`
  let p (u : Nat) : Prop := (u + (P * t₀ - t₀)) % P ≤ A
  have hle : t₀ ≤ P * t₀ := Nat.le_mul_of_pos_left t₀ hP
  have hp (u : Nat) (hu : t₀ ≤ u) : out u = true ↔ p u := by
    have hshift : u + (P * t₀ - t₀) = u - t₀ + P * t₀ := by omega
    rw [hout u hu, decide_eq_true_eq]
    change _ ↔ (u + (P * t₀ - t₀)) % P ≤ A
    rw [hshift, Nat.add_mul_mod_self_left]
  have hper : Function.Periodic p P := by
    intro u
    change ((u + P + (P * t₀ - t₀)) % P ≤ A) = ((u + (P * t₀ - t₀)) % P ≤ A)
    rw [Nat.add_right_comm, Nat.add_mod_right]
  have hcard (t : Nat) (ht : t₀ ≤ t) :
      ((Finset.Ico t (t + P)).filter fun u => out u = true).card = P.count p := by
    rw [← Nat.filter_Ico_card_eq_of_periodic t P p hper]
    congr 1
    apply Finset.filter_congr
    intro u hu
    exact hp u (ht.trans (Finset.mem_Ico.1 hu).1)
  have hfirst : ((Finset.Ico t₀ (t₀ + P)).filter fun u => out u = true) = Finset.Ico t₀ (t₀ + min (A + 1) P) := by
    ext u
    rw [Finset.mem_filter, Finset.mem_Ico, Finset.mem_Ico]
    constructor
    · rintro ⟨⟨hu, hu'⟩, hon⟩
      rw [hout u hu, decide_eq_true_eq, Nat.mod_eq_of_lt (by omega)] at hon
      omega
    · rintro ⟨hu, hu'⟩
      refine ⟨⟨hu, by omega⟩, ?_⟩
      rw [hout u hu, decide_eq_true_eq, Nat.mod_eq_of_lt (by omega)]
      omega
  intro t ht
  constructor
  · have hnext : t + P - t₀ = t - t₀ + P := by omega
    rw [hout t ht, hout (t + P) (by omega), hnext, Nat.add_mod_right]
  · rw [hcard t ht, ← hcard t₀ le_rfl, hfirst, Nat.card_Ico]
    omega

variable {P : BitVec 24} {A : PwmChannel → BitVec 24}

/-- One period after the other. -/
theorem run_held_zero (hP : 2 ≤ P.toNat) {t : Nat} (h0 : (s.run (held P A) t).mainCnt = 0)
    (hp : (s.run (held P A) t).rPeriod ≠ 1) (q : Nat) : (s.run (held P A) (t + P.toNat * q)).mainCnt = 0 := by
  induction q with
  | zero => exact h0
  | succ q ih =>
    have hpq := run_rPeriod_ne_one hp (fun _ => hP) (P.toNat * q)
    have hnext := run_next_zero ih hpq hP fun _ _ => rfl
    rwa [Nat.mul_succ, ← Nat.add_assoc]

theorem out_held (hP : 2 ≤ P.toNat) {t : Nat} (h0 : (s.run (held P A) t).mainCnt = 0)
    (hp : (s.run (held P A) t).rPeriod ≠ 1) (c : PwmChannel) (k : Nat) :
    s.out (held P A) c (t + k) = decide (k % P.toNat ≤ (A c).toNat) := by
  have hstart := run_held_zero hP h0 hp (k / P.toNat)
  have hpq := run_rPeriod_ne_one hp (fun _ => hP) (P.toNat * (k / P.toNat))
  have hout := out_from_zero hstart hpq c (k := k % P.toNat) (Nat.mod_lt _ (by omega)) fun _ _ => rfl
  rwa [Nat.add_assoc, Nat.div_add_mod] at hout

/-- From any state: after the period under way, if not one clock later, the outputs are steady, with one clock more than
the active time. -/
theorem exists_steady (s : PwmGen) (hP : 2 ≤ P.toNat) (c : PwmChannel) :
    ∃ t₀ ≤ s.untilZero + 1, Steady (s.out (held P A) c) P.toNat (min ((A c).toNat + 1) P.toNat) t₀ := by
  have h0 : (s.run (held P A) s.untilZero).mainCnt = 0 := run_untilZero fun _ => rfl
  by_cases hp : (s.run (held P A) s.untilZero).rPeriod = 1
  · obtain ⟨hp₁, -, hc₁⟩ := clock_zero h0 (i := held P A s.untilZero) rfl
    rw [if_pos hp] at hc₁
    have hzero : (s.run (held P A) (s.untilZero + 1)).mainCnt = 0 := hc₁
    have hne : (s.run (held P A) (s.untilZero + 1)).rPeriod ≠ 1 := by
      intro h
      have hone : P = 1 := hp₁.symm.trans h
      rw [hone] at hP
      exact absurd hP (by decide)
    exact ⟨s.untilZero + 1, le_rfl, steady_of_mod (by omega) (out_held hP hzero hne c)⟩
  · exact ⟨s.untilZero, Nat.le_succ _, steady_of_mod (by omega) (out_held hP h0 hp c)⟩

theorem Steady.unique {out : Nat → Bool} {n hi hi' t₀ t₁ : Nat} (h : Steady out n hi t₀) (h' : Steady out n hi' t₁) :
    hi = hi' :=
  (h (max t₀ t₁) (le_max_left _ _)).2.symm.trans (h' (max t₀ t₁) (le_max_right _ _)).2

/-- The active time is what the output shows exactly if it is not shorter than the period. -/
theorem settles_iff (s : PwmGen) (hP : 2 ≤ P.toNat) (c : PwmChannel) :
    (∃ t₀ ≤ s.untilZero + 1, Steady (s.out (held P A) c) P.toNat (min (A c).toNat P.toNat) t₀) ↔
      P.toNat ≤ (A c).toNat := by
  obtain ⟨t₁, ht₁, hsteady⟩ := exists_steady (A := A) s hP c
  constructor
  · rintro ⟨t₀, -, h⟩
    have hsame := h.unique hsteady
    omega
  · intro hle
    have hsame : min (A c).toNat P.toNat = min ((A c).toNat + 1) P.toNat := by omega
    rw [hsame]
    exact ⟨t₁, ht₁, hsteady⟩

theorem settles_iff_nine_of_four :
    (∃ t₀ ≤ reset.untilZero + 1, Steady (reset.out (held 4 fun _ => 9) .pwm0) 4 (min 9 4) t₀) ↔ 4 ≤ 9 :=
  settles_iff reset (by decide) .pwm0

/-- An active time of 0 gives one clock in every period. -/
theorem active_zero_not_low : ¬ ∃ t₀, Steady (reset.out (held 4 fun _ => 0) .pwm0) 4 0 t₀ := by
  rintro ⟨t₀, h⟩
  obtain ⟨t₁, -, hsteady⟩ := exists_steady (P := 4) (A := fun _ => 0) reset (by decide) .pwm0
  exact absurd (h.unique hsteady) (by decide)

end RcCarControl.Fpga.PwmGen
