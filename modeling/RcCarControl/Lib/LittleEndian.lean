import Mathlib.Tactic.TypeStar
import Mathlib.Data.List.Basic

/-!
# Little-endian words in byte lists

`u16 bs off` and `u32 bs off` read a word at an offset, `bytes16` and `bytes32` write one; reading back what was
written in front gives the word again.
-/

namespace LittleEndian

abbrev Byte := BitVec 8

def u16 (bs : List Byte) (off : Nat) : BitVec 16 := bs.getD (off + 1) 0 ++ bs.getD off 0

def u32 (bs : List Byte) (off : Nat) : BitVec 32 :=
  bs.getD (off + 3) 0 ++ bs.getD (off + 2) 0 ++ bs.getD (off + 1) 0 ++ bs.getD off 0

def bytes16 (x : BitVec 16) : List Byte := [x.extractLsb' 0 8, x.extractLsb' 8 8]

def bytes32 (x : BitVec 32) : List Byte :=
  [x.extractLsb' 0 8, x.extractLsb' 8 8, x.extractLsb' 16 8, x.extractLsb' 24 8]

@[simp] theorem length_bytes32 (x : BitVec 32) : (bytes32 x).length = 4 := rfl

theorem u16_bytes16 (x : BitVec 16) : u16 (bytes16 x) 0 = x := by
  show x.extractLsb' 8 8 ++ x.extractLsb' 0 8 = x
  rw [BitVec.extractLsb'_append_extractLsb'_eq_extractLsb' (by omega)]
  exact BitVec.extractLsb'_eq_self

theorem u32_bytes32 (x : BitVec 32) : u32 (bytes32 x) 0 = x := by
  show x.extractLsb' 24 8 ++ x.extractLsb' 16 8 ++ x.extractLsb' 8 8 ++ x.extractLsb' 0 8 = x
  rw [BitVec.extractLsb'_append_extractLsb'_eq_extractLsb' (by omega),
    BitVec.extractLsb'_append_extractLsb'_eq_extractLsb' (by omega),
    BitVec.extractLsb'_append_extractLsb'_eq_extractLsb' (by omega)]
  exact BitVec.extractLsb'_eq_self

/-- Writing what was read gives the bytes again. -/
theorem bytes16_u16 (bs : List Byte) (off : Nat) : bytes16 (u16 bs off) = [bs.getD off 0, bs.getD (off + 1) 0] := by
  unfold bytes16 u16
  rw [BitVec.extractLsb'_append_eq_right, BitVec.extractLsb'_append_eq_left]

theorem extractLsb'_bytes (a b c d : Byte) :
    (a ++ b ++ c ++ d).extractLsb' 0 8 = d ∧ (a ++ b ++ c ++ d).extractLsb' 8 8 = c ∧
      (a ++ b ++ c ++ d).extractLsb' 16 8 = b ∧ (a ++ b ++ c ++ d).extractLsb' 24 8 = a := by
  have skip {w : Nat} (x : BitVec w) (y : Byte) (start : Nat) :
      (x ++ y).extractLsb' (start + 8) 8 = x.extractLsb' start 8 :=
    BitVec.extractLsb'_append_eq_of_le (Nat.le_add_left 8 start)
  refine ⟨BitVec.extractLsb'_append_eq_right, ?_, ?_, ?_⟩
  · exact (skip (a ++ b ++ c) d 0).trans BitVec.extractLsb'_append_eq_right
  · exact ((skip (a ++ b ++ c) d 8).trans (skip (a ++ b) c 0)).trans BitVec.extractLsb'_append_eq_right
  · exact (((skip (a ++ b ++ c) d 16).trans (skip (a ++ b) c 8)).trans (skip a b 0)).trans BitVec.extractLsb'_eq_self

theorem bytes32_u32 (bs : List Byte) (off : Nat) :
    bytes32 (u32 bs off) = [bs.getD off 0, bs.getD (off + 1) 0, bs.getD (off + 2) 0, bs.getD (off + 3) 0] := by
  obtain ⟨h₀, h₁, h₂, h₃⟩ :=
    extractLsb'_bytes (bs.getD (off + 3) 0) (bs.getD (off + 2) 0) (bs.getD (off + 1) 0) (bs.getD off 0)
  unfold bytes32 u32
  simp only [List.cons.injEq, and_true]
  exact ⟨h₀, h₁, h₂, h₃⟩

/-- Behind `xs` the words are those of `ys`. -/
theorem u16_append {xs : List Byte} {off : Nat} (h : xs.length = off) (ys : List Byte) (k : Nat) :
    u16 (xs ++ ys) (off + k) = u16 ys k := by
  subst h
  simp [u16, Nat.add_assoc, List.getElem?_append_right]

theorem u32_append {xs : List Byte} {off : Nat} (h : xs.length = off) (ys : List Byte) (k : Nat) :
    u32 (xs ++ ys) (off + k) = u32 ys k := by
  subst h
  simp [u32, Nat.add_assoc, List.getElem?_append_right]

theorem u16_drop (bs : List Byte) (n k : Nat) : u16 (bs.drop n) k = u16 bs (n + k) := by
  simp [u16, Nat.add_assoc]

theorem u32_drop (bs : List Byte) (n k : Nat) : u32 (bs.drop n) k = u32 bs (n + k) := by
  simp [u32, Nat.add_assoc]

theorem u32_bytes32_append (x : BitVec 32) (ys : List Byte) : u32 (bytes32 x ++ ys) 0 = x := u32_bytes32 x

end LittleEndian
