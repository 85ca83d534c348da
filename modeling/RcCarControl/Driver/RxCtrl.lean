import Mathlib.Tactic.TypeStar
import Mathlib.Data.List.Basic

/-!
# The RX_CTRL register as the camera driver uses it

Bit masks and field codecs of `linux/xilinx-rcc-cam.c`: the control bits the driver sets and clears, and the frame
pointer that the VDMA reports in Gray code and the interrupt handler turns into a slot index.
-/

namespace RcCarControl.Driver

/-- A 32-bit register value or `u32`. -/
abbrev U32 := BitVec 32

/-! ### Bits of RX_CTRL -/

def rxCtrlRun : U32 := 0x01
def rxCtrlInten : U32 := 0x10
def rxCtrlInt : U32 := 0x20
def rxCtrlEmbFmcnt : U32 := 0x40

def wrPtrShift : Nat := 24
def ptrMask : U32 := 0x3F

/-- A mask of low bits cuts a word down to them. -/
theorem and_lowMask (v : U32) (k : Nat) : v &&& (BitVec.allOnes k).setWidth 32 = (v.setWidth k).setWidth 32 := by
  apply BitVec.eq_of_getLsbD_eq
  intro i hi
  rw [BitVec.getLsbD_and, BitVec.getLsbD_setWidth, BitVec.getLsbD_setWidth, BitVec.getLsbD_setWidth,
    BitVec.getLsbD_allOnes, decide_eq_true hi, Bool.true_and, Bool.true_and, Bool.and_comm]

/-! ### Frame pointer -/

/-- `video_gray2bin`: the loop over the bits 4 … 0, minus one (the pointer starts with 1), wrapped to the number of
frame buffers. -/
def videoGray2bin (gray frmCnts : U32) : U32 :=
  let turn (bin : U32) (i : Nat) : U32 :=
    let binB := ((gray &&& ((1 : U32) <<< i)) >>> i) ^^^ (bin >>> (i + 1))
    bin ||| (binB <<< i)
  let bin := [4, 3, 2, 1, 0].foldl turn (gray &&& ((1 : U32) <<< 5))
  (bin - 1) % frmCnts

/-- `video_ctrl_get_idx`. -/
def videoCtrlGetIdx (statusVal frmCnts : U32) : U32 :=
  let gray := (statusVal >>> wrPtrShift) &&& ptrMask
  videoGray2bin gray frmCnts

/-- Whatever the register holds, the index is below the number of frame buffers. -/
theorem videoCtrlGetIdx_lt (statusVal : U32) {frmCnts : U32} (h : 0 < frmCnts.toNat) :
    (videoCtrlGetIdx statusVal frmCnts).toNat < frmCnts.toNat := by
  unfold videoCtrlGetIdx videoGray2bin
  rw [BitVec.toNat_umod]
  exact Nat.mod_lt _ h

end RcCarControl.Driver
