import Mathlib.Data.Nat.Bitwise
import Mathlib.Data.Nat.Find
import Mathlib.Data.Nat.Init

/-!
# Reflected Gray code on bit vectors

`Gray.encode` is `b ^ (b >> 1)`; `Gray.decode` rebuilds the number bit by bit from the top.  Decoding undoes encoding
(`decode_encode`), so distinct numbers have distinct codes.  The codes of successive numbers differ in one bit, also
from the largest number to zero (`encode_add_one_ne_iff`, `existsUnique_encode_add_one_ne`), so a word put together from
bits of the two is one of them (`eq_or_eq_of_bits`).  The two top bits of a code tell in which quarter of the range the
number lies (`encode_top`, `encode_second`).
-/

namespace Gray

variable {w : Nat}

def encode (b : BitVec w) : BitVec w := b ^^^ (b >>> 1)

/-- Bit `w - 1 - k` of the decoded number. -/
def decodeBit (g : BitVec w) : Nat → Bool
  | 0 => g.getLsbD (w - 1)
  | k + 1 => g.getLsbD (w - 1 - (k + 1)) ^^ decodeBit g k

def decode (g : BitVec w) : BitVec w :=
  BitVec.ofNat w (Nat.ofBits fun i : Fin w => decodeBit g (w - 1 - i))

theorem getLsbD_encode (b : BitVec w) (i : Nat) : (encode b).getLsbD i = (b.getLsbD i ^^ b.getLsbD (i + 1)) := by
  simp [encode, BitVec.getLsbD_xor, BitVec.getLsbD_ushiftRight, Nat.add_comm 1 i]

theorem decodeBit_encode (b : BitVec w) {k : Nat} (hk : k < w) : decodeBit (encode b) k = b.getLsbD (w - 1 - k) := by
  induction k with
  | zero =>
    have htop : b.getLsbD (w - 1 + 1) = false := BitVec.getLsbD_of_ge _ _ (by omega)
    rw [decodeBit, getLsbD_encode, htop, Bool.xor_false]
    rfl
  | succ k ih =>
    have hnext : w - 1 - (k + 1) + 1 = w - 1 - k := by omega
    rw [decodeBit, ih (by omega), getLsbD_encode, hnext, Bool.xor_assoc, Bool.xor_self, Bool.xor_false]

theorem decode_encode (b : BitVec w) : decode (encode b) = b := by
  apply BitVec.eq_of_getLsbD_eq
  intro i hi
  have hback : w - 1 - (w - 1 - i) = i := by omega
  rw [decode, BitVec.getLsbD_ofNat, Nat.testBit_ofBits_lt _ _ hi, decodeBit_encode b (by omega), hback,
    decide_eq_true hi, Bool.true_and]

theorem encode_injective : Function.Injective (encode (w := w)) := fun a b h => by
  rw [← decode_encode a, h, decode_encode b]

/-! ### One step -/

/-- Adding one carries into bit `i`. -/
def carries (b : BitVec w) (i : Nat) : Bool := decide (∀ j < i, b.getLsbD j = true)

theorem carries_succ (b : BitVec w) (i : Nat) : carries b (i + 1) = (carries b i && b.getLsbD i) := by
  rw [Bool.eq_iff_iff, Bool.and_eq_true, carries, carries, decide_eq_true_iff, decide_eq_true_iff]
  exact Nat.forall_lt_succ_right

theorem getLsbD_add_one (b : BitVec w) {i : Nat} (hi : i < w) :
    (b + 1#w).getLsbD i = (b.getLsbD i ^^ carries b i) := by
  have hw : 0 < w := by omega
  rw [BitVec.getLsbD_add hi]
  cases i with
  | zero => simp [carries, hw]
  | succ i =>
    have hbit : (1#w).getLsbD (i + 1) = false := by simp
    rw [BitVec.carry_succ_one i b hw, hbit, Bool.false_xor, carries]
    simp only [Nat.lt_succ_iff]

/-- The code changes where the carry ends: at the lowest bit that is not set, or at the top. -/
theorem encode_add_one_ne_iff (b : BitVec w) {i : Nat} (hi : i < w) :
    (encode b).getLsbD i ≠ (encode (b + 1#w)).getLsbD i ↔
      carries b i = true ∧ (b.getLsbD i = true → i + 1 = w) := by
  rw [getLsbD_encode, getLsbD_encode, getLsbD_add_one b hi]
  by_cases htop : i + 1 = w
  · have hout (c : BitVec w) : c.getLsbD (i + 1) = false := BitVec.getLsbD_of_ge _ _ (by omega)
    rw [hout, hout]
    cases carries b i <;> cases b.getLsbD i <;> simp [htop]
  · rw [getLsbD_add_one b (by omega), carries_succ]
    cases carries b i <;> cases b.getLsbD i <;> cases b.getLsbD (i + 1) <;> simp [htop]

/-- Successive codes differ in exactly one bit, wherever the number is in its range. -/
theorem existsUnique_encode_add_one_ne (b : BitVec w) (hw : 0 < w) :
    ∃! i, i < w ∧ (encode b).getLsbD i ≠ (encode (b + 1#w)).getLsbD i := by
  have hend : ∃ i, b.getLsbD i = true → i + 1 = w := ⟨w - 1, fun _ => by omega⟩
  have hle : Nat.find hend ≤ w - 1 := Nat.find_min' hend fun _ => by omega
  refine ⟨Nat.find hend, ⟨by omega, ?_⟩, ?_⟩
  · rw [encode_add_one_ne_iff b (by omega), carries, decide_eq_true_iff]
    refine ⟨?_, Nat.find_spec hend⟩
    intro j hj
    exact (Classical.not_imp.1 (Nat.find_min hend hj)).1
  · rintro i ⟨hi, hne⟩
    rw [encode_add_one_ne_iff b hi, carries, decide_eq_true_iff] at hne
    rcases Nat.lt_trichotomy i (Nat.find hend) with hlt | heq | hgt
    · exact absurd hne.2 (Nat.find_min hend hlt)
    · exact heq
    · -- the bit at which the carry ends is below `i`, so it is set and the top one
      have := Nat.find_spec hend (hne.1 _ hgt)
      omega

/-- A word each bit of which comes from one of two words that differ in at most one bit is one of the two. -/
theorem eq_or_eq_of_bits {a b s : BitVec w}
    (hone : ∀ i j, i < w → j < w → a.getLsbD i ≠ b.getLsbD i → a.getLsbD j ≠ b.getLsbD j → i = j)
    (hs : ∀ i < w, s.getLsbD i = a.getLsbD i ∨ s.getLsbD i = b.getLsbD i) : s = a ∨ s = b := by
  by_contra hne
  have differ (c : BitVec w) (h : s ≠ c) : ∃ i < w, s.getLsbD i ≠ c.getLsbD i := by
    by_contra hall
    push Not at hall
    exact h (BitVec.eq_of_getLsbD_eq hall)
  obtain ⟨i, hi, hia⟩ := differ a fun h => hne (Or.inl h)
  obtain ⟨j, hj, hjb⟩ := differ b fun h => hne (Or.inr h)
  have hib : s.getLsbD i = b.getLsbD i := (hs i hi).resolve_left hia
  have hja : s.getLsbD j = a.getLsbD j := (hs j hj).resolve_right hjb
  have hij : i = j := by
    apply hone i j hi hj
    · rw [← hib]
      exact hia.symm
    · rw [← hja]
      exact hjb
  rw [hij] at hib
  exact hjb hib

/-! ### Quarters -/

/-- The quarter a counter of `w` bits is in, counted on without wrapping. -/
def quarter (w x : Nat) : Nat := x / 2 ^ (w - 2)

theorem getLsbD_ofNat_quarter {w k : Nat} (hk : k + (w - 2) < w) (x : Nat) :
    (BitVec.ofNat w x).getLsbD (k + (w - 2)) = (quarter w x).testBit k := by
  rw [quarter, Nat.testBit_div_two_pow, BitVec.getLsbD_ofNat, decide_eq_true hk, Bool.true_and]

theorem encode_top (hw : 2 ≤ w) (x : Nat) :
    (encode (BitVec.ofNat w x)).getLsbD (w - 1) = (quarter w x).testBit 1 := by
  have htop : (BitVec.ofNat w x).getLsbD (w - 1 + 1) = false := BitVec.getLsbD_of_ge _ _ (by omega)
  rw [getLsbD_encode, htop, Bool.xor_false, ← getLsbD_ofNat_quarter (by omega)]
  congr 1
  omega

theorem encode_second (hw : 2 ≤ w) (x : Nat) :
    (encode (BitVec.ofNat w x)).getLsbD (w - 2) = ((quarter w x).testBit 0 ^^ (quarter w x).testBit 1) := by
  rw [getLsbD_encode, ← getLsbD_ofNat_quarter (by omega), ← getLsbD_ofNat_quarter (by omega)]
  congr 2 <;> omega

theorem quarter_succ (w x : Nat) : quarter w (x + 1) = quarter w x ∨ quarter w (x + 1) = quarter w x + 1 := by
  unfold quarter
  rw [Nat.succ_div]
  split <;> simp

theorem quarter_mono {x y : Nat} (h : x ≤ y) : quarter w x ≤ quarter w y := Nat.div_le_div_right h

theorem quarter_le_succ {x y : Nat} (h : y = x ∨ y = x + 1) : quarter w x ≤ quarter w y ∧ quarter w y ≤ quarter w x + 1 := by
  rcases h with rfl | rfl
  · omega
  · rcases quarter_succ w x with hq | hq <;> omega

/-- A full turn is four quarters. -/
theorem quarter_add (hw : 2 ≤ w) (x : Nat) : quarter w (x + 2 ^ w) = quarter w x + 4 := by
  have hpow : 2 ^ w = 4 * 2 ^ (w - 2) := by
    rw [show 4 = 2 ^ 2 from rfl, ← Nat.pow_add]
    congr 1
    omega
  unfold quarter
  rw [hpow, Nat.add_mul_div_right _ _ (Nat.two_pow_pos _)]

end Gray
