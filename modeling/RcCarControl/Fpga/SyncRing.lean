import RcCarControl.Fpga.SyncPulse
import Mathlib.Tactic.SplitIfs

/-!
# The round of `sync_pulse`

A pulse takes the registers of `fpga/rtl/sync_pulse.sv` through one round: the hold goes up, `b_sync` and `a_sync` fill one
after the other, the hold goes down, and they empty in the same order.  The ten places of the round are all states of the
synchroniser that a pulse which finds it idle leads to, and each is left with an edge of one of the clocks.

While `b_clk_i` has an edge between any two edges of `a_clk_i`, seven edges of `a_clk_i` behind the one that took the pulse
are enough for the whole round, and the output has been up for the third one of `b_clk_i` (`Round.keep`, `Round.over`).
-/

namespace RcCarControl.Fpga.SyncPulse

/-- The registers at a place of the round; before the round they are at place 0 and after it at place 10. -/
def place (q : Nat) (bPulse : Bool) : SyncPulse where
  aHold := 1 ≤ q && q ≤ 5
  bSync0 := 2 ≤ q && q ≤ 6
  bSync1 := 3 ≤ q && q ≤ 7
  aSync0 := 4 ≤ q && q ≤ 8
  aSync1 := 5 ≤ q && q ≤ 9
  bPulse := bPulse

/-- The places that are left with an edge of `b_clk_i`. -/
def leftByB (q : Nat) : Bool := q == 1 || q == 2 || q == 6 || q == 7

/-- The place after an instant with an edge of `a_clk_i`, of `b_clk_i`, or both. -/
def nextPlace (q : Nat) (aClk bClk : Bool) : Nat :=
  if q = 0 ∨ 10 ≤ q then q
  else if leftByB q then q + bClk.toNat
  else q + aClk.toNat

variable {q : Nat}

theorem idle_eq_place : idle = place 10 false := rfl

/-- Without a new pulse an instant moves the registers by one place at most, and the output is up behind place 2. -/
theorem clock_place (hq : q ≤ 10) {aClk : Option Bool} (ha : aClk ≠ some true) (bPulse bClk : Bool) :
    (place q bPulse).clock aClk bClk = place (nextPlace q aClk.isSome bClk) (if bClk then q == 2 else bPulse) := by
  have hall : ∀ q < 11, ∀ bPulse bClk,
      (place q bPulse).clock none bClk = place (nextPlace q false bClk) (if bClk then q == 2 else bPulse) ∧
        (place q bPulse).clock (some false) bClk = place (nextPlace q true bClk) (if bClk then q == 2 else bPulse) := by
    decide
  obtain ⟨hnone, hlow⟩ := hall q (by omega) bPulse bClk
  rcases aClk with _ | _ | _
  · exact hnone
  · exact hlow
  · exact absurd rfl ha

/-- A pulse that finds the round over begins the next one. -/
theorem clock_place_pulse (bPulse bClk : Bool) :
    (place 10 bPulse).clock (some true) bClk = place 1 (if bClk then false else bPulse) := by
  cases bPulse <;> cases bClk <;> rfl

/-- The place that is reached at least with `n` edges of `a_clk_i` since the pulse, one of `b_clk_i` between any two of
them, and with `seen` one of `b_clk_i` since the last. -/
def leastPlace (n : Nat) (seen : Bool) : Nat :=
  match n with
  | 0 => 1 + seen.toNat
  | 1 => 2 + seen.toNat
  | 2 => 4
  | 3 => 5
  | 4 => 6 + seen.toNat
  | 5 => 7 + seen.toNat
  | 6 => 9
  | _ => 10

theorem nextPlace_le (hq : q ≤ 10) (aClk bClk : Bool) : nextPlace q aClk bClk ≤ 10 := by
  unfold nextPlace
  split_ifs with hend
  · exact hq
  · cases bClk <;> simp only [Bool.toNat_false, Bool.toNat_true] <;> omega
  · cases aClk <;> simp only [Bool.toNat_false, Bool.toNat_true] <;> omega

theorem le_nextPlace (q : Nat) (aClk bClk : Bool) : q ≤ nextPlace q aClk bClk := by
  unfold nextPlace
  split_ifs <;> omega

theorem nextPlace_none (q : Nat) : nextPlace q false false = q := by
  unfold nextPlace
  split_ifs <;> rfl

/-- The first two places are left with `b_clk_i`. -/
theorem nextPlace_first (h : q = 1 ∨ q = 2) (aClk bClk : Bool) : nextPlace q aClk bClk = q + bClk.toNat := by
  rcases h with rfl | rfl <;> rfl

/-- So is place 6. -/
theorem seven_le_nextPlace {aClk bClk : Bool} (h : 7 ≤ nextPlace q aClk bClk) : 7 ≤ q ∨ q = 6 ∧ bClk = true := by
  have hall : ∀ q < 7, ∀ aClk bClk, 7 ≤ nextPlace q aClk bClk → q = 6 ∧ bClk = true := by decide
  obtain hq | hq := Nat.lt_or_ge q 7
  · exact .inr (hall q hq aClk bClk h)
  · exact .inl hq

/-- An edge of `b_clk_i` keeps up with the least place. -/
theorem leastPlace_b {n : Nat} {seen : Bool} (hq : q ≤ 10) (h : leastPlace n seen ≤ q) :
    leastPlace n true ≤ nextPlace q false true := by
  have hall : ∀ n < 8, ∀ seen, ∀ q < 11, leastPlace n seen ≤ q → leastPlace n true ≤ nextPlace q false true := by
    decide
  obtain hn | hn := Nat.lt_or_ge n 8
  · exact hall n hn seen q (by omega) h
  · obtain ⟨n, rfl⟩ := Nat.exists_eq_add_of_le' hn
    exact Nat.le_trans h (le_nextPlace q false true)

/-- An edge of `a_clk_i` with one of `b_clk_i` before it does, too. -/
theorem leastPlace_a {n : Nat} (hq : q ≤ 10) (h : leastPlace n true ≤ q) (bClk : Bool) :
    leastPlace (n + 1) false ≤ nextPlace q true bClk := by
  have hall : ∀ n < 8, ∀ q < 11, leastPlace n true ≤ q → ∀ bClk,
      leastPlace (n + 1) false ≤ nextPlace q true bClk := by
    decide
  obtain hn | hn := Nat.lt_or_ge n 8
  · exact hall n hn q (by omega) h bClk
  · obtain ⟨n, rfl⟩ := Nat.exists_eq_add_of_le' hn
    exact Nat.le_trans h (le_nextPlace q true bClk)

/-! ### A pulse on its way -/

/-- The synchroniser `n` edges of `a_clk_i` and `m` of `b_clk_i` behind its last pulse, with `seen` an edge of `b_clk_i`
behind the last of `a_clk_i`.  The output is up behind the second edge of `b_clk_i`. -/
def Round (s : SyncPulse) (n m : Nat) (seen : Bool) : Prop :=
  ∃ q ≤ 10, s = place q (m == 2) ∧ leastPlace n seen ≤ q ∧ (m < 2 → q = m + 1) ∧ (2 ≤ m → 3 ≤ q) ∧ (7 ≤ q → 3 ≤ m)

variable {s : SyncPulse} {n m : Nat} {seen : Bool}

theorem round_idle : idle.Round 8 3 true :=
  ⟨10, Nat.le_refl 10, idle_eq_place, by decide, by decide, by decide, by decide⟩

theorem Round.bPulse_eq (h : s.Round n m seen) : s.bPulse = (m == 2) := by
  obtain ⟨q, -, rfl, -⟩ := h
  rfl

/-- Eight edges of `a_clk_i` behind a pulse the round is over. -/
theorem Round.over (h : s.Round n m seen) (hn : 8 ≤ n) : s = idle ∧ 3 ≤ m := by
  obtain ⟨q, hq, rfl, hleast, -, -, hlate⟩ := h
  have hten : leastPlace n seen = 10 := by
    obtain ⟨k, rfl⟩ := Nat.exists_eq_add_of_le' hn
    rfl
  obtain rfl : q = 10 := by omega
  have h3 := hlate (by omega)
  have hquiet : (m == 2) = false := by
    rw [beq_eq_false_iff_ne]
    omega
  rw [hquiet]
  exact ⟨idle_eq_place.symm, h3⟩

/-- The next pulse. -/
theorem Round.pulse (h : s.Round n m seen) (hn : 8 ≤ n) (bClk : Bool) : (s.clock (some true) bClk).Round 0 0 false := by
  rw [(h.over hn).1, idle_eq_place, clock_place_pulse, ite_self]
  exact ⟨1, by omega, rfl, by decide, by decide, by decide, by decide⟩

/-- An instant without a pulse. -/
theorem Round.keep (h : s.Round n m seen) {aClk : Option Bool} (ha : aClk ≠ some true)
    (hseen : aClk.isSome = true → seen = true) (bClk : Bool) :
    (s.clock aClk bClk).Round (n + aClk.isSome.toNat) (m + bClk.toNat) (!aClk.isSome && (bClk || seen)) := by
  obtain ⟨q, hq, rfl, hleast, hfirst, hpast, hlate⟩ := h
  have hge := le_nextPlace q aClk.isSome bClk
  have hnext : q = 1 ∨ q = 2 → nextPlace q aClk.isSome bClk = q + bClk.toNat :=
    fun hq' => nextPlace_first hq' _ _
  have hb := Bool.toNat_le bClk
  refine ⟨nextPlace q aClk.isSome bClk, nextPlace_le hq _ _, ?_, ?_, ?_, ?_, ?_⟩
  · rw [clock_place hq ha]
    cases bClk with
    | false => rfl
    | true =>
      have hiff : (q == 2) = (m + 1 == 2) := by
        rw [Bool.eq_iff_iff, beq_iff_eq, beq_iff_eq]
        omega
      exact congrArg _ hiff
  · cases aClk with
    | some _ =>
      rw [hseen rfl] at hleast
      exact leastPlace_a hq hleast bClk
    | none =>
      cases bClk with
      | true => exact leastPlace_b hq hleast
      | false =>
        have hstay : nextPlace q false false = q := nextPlace_none q
        exact Nat.le_trans hleast (Nat.le_of_eq hstay.symm)
  · omega
  · omega
  · intro h7
    rcases seven_le_nextPlace h7 with h7 | ⟨h6, rfl⟩
    · omega
    · rw [Bool.toNat_true]
      omega

end RcCarControl.Fpga.SyncPulse
