import RcCarControl.Fpga.FifoOrder

/-!
# The Gray counters of `async_fifo`

`GrayCounter` keeps the code of the number of enabled edges (`grayCount_eq`), the binary register being one ahead.
`GrayToBin` gives that number back, the code moves by one bit at an enabled edge, the wrap included, and by none at the
others; so whatever mixture of old and new bits the other clock domain samples, it reads one of the two counts
(`gray_pointer_exact`).
-/

namespace RcCarControl.Fpga

variable {W : Nat}

/-- Clock edges with `Clear_in` low, each with its `Enable_in`. -/
def GrayCounter.run (c : GrayCounter W) (enables : List Bool) : GrayCounter W := enables.foldl GrayCounter.clock c

/-- `GrayCount_out` after these edges. -/
def grayCount (W : Nat) (enables : List Bool) : BitVec W := ((GrayCounter.clear W).run enables).grayCountOut

def OneBitApart (old new : BitVec W) : Prop := ∃! i, i < W ∧ old.getLsbD i ≠ new.getLsbD i

/-- Every bit of `sample` was taken from `old` or from `new`. -/
def SampledFrom (old new sample : BitVec W) : Prop :=
  ∀ i < W, sample.getLsbD i = old.getLsbD i ∨ sample.getLsbD i = new.getLsbD i

/-- The counter counts on from any count. -/
theorem run_counterAt (k : Nat) (enables : List Bool) :
    (counterAt W k).run enables = counterAt W (k + enables.count true) := by
  induction enables generalizing k with
  | nil => rfl
  | cons e enables ih =>
    have hcount : (e :: enables).count true = e.toNat + enables.count true := by
      cases e <;> simp [Nat.add_comm]
    show ((counterAt W k).clock e).run enables = _
    rw [counterAt_clock, ih, hcount, Nat.add_assoc]

theorem grayCount_eq (enables : List Bool) : grayCount W enables = ptr W (enables.count true) := by
  rw [grayCount, ← counterAt_zero, run_counterAt, Nat.zero_add]
  rfl

/-- The count after one more edge. -/
theorem count_append (enables : List Bool) (e : Bool) :
    (enables ++ [e]).count true = enables.count true + e.toNat := by
  cases e <;> simp

theorem toNat_grayToBin_ptr (k : Nat) : (grayToBin (ptr W k)).toNat = k % 2 ^ W := by
  rw [grayToBin_ptr, BitVec.toNat_ofNat]

theorem ptr_succ (k : Nat) : ptr W (k + 1) = Gray.encode (BitVec.ofNat W k + 1#W) := by
  rw [ptr, BitVec.ofNat_add]

theorem oneBitApart_ptr (hW : 0 < W) (k : Nat) : OneBitApart (ptr W k) (ptr W (k + 1)) := by
  rw [OneBitApart, ptr_succ]
  exact Gray.existsUnique_encode_add_one_ne _ hW

/-- The counter moves by at most one count at an edge, so no mixture of the two codes is a third one. -/
theorem sampledFrom_ptr {k : Nat} {e : Bool} {sample : BitVec W}
    (h : SampledFrom (ptr W k) (ptr W (k + e.toNat)) sample) :
    sample = ptr W k ∨ sample = ptr W (k + e.toNat) := by
  refine Gray.eq_or_eq_of_bits ?_ h
  intro i j hi hj hne hne'
  cases e with
  | false => exact absurd rfl hne
  | true => exact (oneBitApart_ptr (by omega) k).unique ⟨hi, hne⟩ ⟨hj, hne'⟩

theorem gray_pointer_exact (hW : 2 ≤ W) (enables : List Bool) (e : Bool) :
    (grayToBin (grayCount W enables)).toNat = enables.count true % 2 ^ W ∧
    (e = true → OneBitApart (grayCount W enables) (grayCount W (enables ++ [e]))) ∧
    (e = false → grayCount W (enables ++ [e]) = grayCount W enables) ∧
    ∀ sample, SampledFrom (grayCount W enables) (grayCount W (enables ++ [e])) sample →
      (grayToBin sample).toNat = enables.count true % 2 ^ W ∨
      (grayToBin sample).toNat = (enables ++ [e]).count true % 2 ^ W := by
  rw [grayCount_eq, grayCount_eq, count_append, toNat_grayToBin_ptr]
  refine ⟨rfl, ?_, ?_, ?_⟩
  · rintro rfl
    exact oneBitApart_ptr (by omega) _
  · rintro rfl
    rfl
  · intro sample hs
    rcases sampledFrom_ptr hs with h | h
    · left
      rw [h, toNat_grayToBin_ptr]
    · right
      rw [h, toNat_grayToBin_ptr]

/-- The wrap of a counter of four bits: the sixteenth enabled edge takes the code of 15 to the code of 0. -/
theorem gray_pointer_wrap :
    (2 ≤ 4 ∧ (grayToBin (grayCount 4 (List.replicate 15 true))).toNat = 15 ∧
      (grayToBin (grayCount 4 (List.replicate 15 true ++ [true]))).toNat = 0) ∧
      OneBitApart (grayCount 4 (List.replicate 15 true)) (grayCount 4 (List.replicate 15 true ++ [true])) :=
  ⟨by decide, (gray_pointer_exact (by decide) (List.replicate 15 true) true).2.1 rfl⟩

end RcCarControl.Fpga
