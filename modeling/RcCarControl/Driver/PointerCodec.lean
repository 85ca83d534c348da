import RcCarControl.Driver.RxCtrl
import RcCarControl.Fpga.VideoCtrlAxi
import RcCarControl.Lib.Gray
import Mathlib.Data.Nat.ModEq

/-!
# The frame-pointer codec of the camera driver

`video_ctrl_get_idx` and `video_ctrl_set_ptr` of `linux/xilinx-rcc-cam.c` against the Gray code that the VDMA uses
for its frame pointers: the pointer for slot `i` is the code of `i + 1`.

The decoder does not cut the partial result down to one bit before it is put in, so a bit that is set reaches every
bit below it but the last one (`grayLoop_encode`).  Slots are told right only where that changes nothing, or changes the
number by a multiple of the number of buffers.  The encoder shifts the index to its field before it converts it, and the
conversion keeps the low six bits only: its result is 1 for every index (`videoCtrlSetPtr_eq_one`).
-/

namespace RcCarControl.Driver

open RcCarControl.Fpga

def rdPtrShift : Nat := 16

/-- `video_bin2gray`. -/
def videoBin2gray (bin : U32) : U32 :=
  let binp := bin + 1
  let gray := (binp &&& 0x1f) ^^^ ((binp >>> 1) &&& 0x1f)
  gray ||| (binp &&& 0x20)

/-- `video_ctrl_set_ptr`. -/
def videoCtrlSetPtr (index : U32) : U32 :=
  let bin := (index &&& ptrMask) <<< rdPtrShift
  videoBin2gray bin

/-- Bits 29:24 of RX_CTRL. -/
def wrPtrField (statusVal : U32) : BitVec 6 := statusVal.extractLsb' wrPtrShift 6

/-! ### Encoding -/

/-- On six bits `video_bin2gray` is the Gray code of the successor. -/
theorem videoBin2gray_setWidth : ∀ b : BitVec 6, videoBin2gray (b.setWidth 32) = (Gray.encode (b + 1)).setWidth 32 := by
  decide

/-! ### The loop of the decoder -/

/-- The loop of `video_gray2bin` before the subtraction. -/
def grayLoop (gray : U32) : U32 :=
  let turn (bin : U32) (i : Nat) : U32 :=
    let binB := ((gray &&& ((1 : U32) <<< i)) >>> i) ^^^ (bin >>> (i + 1))
    bin ||| (binB <<< i)
  [4, 3, 2, 1, 0].foldl turn (gray &&& ((1 : U32) <<< 5))

theorem videoGray2bin_eq (gray frmCnts : U32) : videoGray2bin gray frmCnts = (grayLoop gray - 1) % frmCnts := rfl

/-- All bits below the top one of `m` set. -/
def filled (m : Nat) : Nat := if m = 0 then 0 else 2 ^ (m.log2 + 1) - 1

/-- What the loop makes of the code of `b`: bit 0 is right, above it every bit below the top one is set. -/
def smeared (b : Nat) : Nat := 2 * filled (b / 2) + b % 2

theorem grayLoop_encode :
    ∀ b : BitVec 6, grayLoop ((Gray.encode b).setWidth 32) = BitVec.ofNat 32 (smeared b.toNat) := by
  decide

theorem le_smeared : ∀ b : BitVec 6, b.toNat ≤ smeared b.toNat ∧ smeared b.toNat < 64 := by
  decide

/-- How far the decoded index of slot `i` is above `i`. -/
def excess (i : Nat) : Nat := smeared (i + 1) - (i + 1)

/-- The mask of the driver keeps six bits. -/
theorem and_ptrMask (v : U32) : v &&& ptrMask = (v.setWidth 6).setWidth 32 := and_lowMask v 6

theorem toNat_ofNat_add_one {i : Nat} (hi : i < 63) : (BitVec.ofNat 6 i + 1).toNat = i + 1 := by
  rw [BitVec.toNat_add, BitVec.toNat_ofNat]
  change (i % 2 ^ 6 + 1) % 2 ^ 6 = i + 1
  omega

theorem videoBin2gray_ofNat {i : Nat} (hi : i < 63) :
    videoBin2gray (BitVec.ofNat 32 i) = (Gray.encode (BitVec.ofNat 6 i + 1)).setWidth 32 := by
  have hslot : BitVec.ofNat 32 i = (BitVec.ofNat 6 i).setWidth 32 := by
    apply BitVec.eq_of_toNat_eq
    rw [BitVec.toNat_setWidth, BitVec.toNat_ofNat, BitVec.toNat_ofNat]
    omega
  rw [hslot, videoBin2gray_setWidth]

/-- What the driver makes of the pointer for slot `i`. -/
theorem videoCtrlGetIdx_of_code {statusVal frmCnts : U32} {i : Nat} (hi : i < 63)
    (h : (wrPtrField statusVal).setWidth 32 = videoBin2gray (BitVec.ofNat 32 i)) :
    (videoCtrlGetIdx statusVal frmCnts).toNat = (i + excess i) % frmCnts.toNat := by
  have hloop : grayLoop ((statusVal >>> wrPtrShift) &&& ptrMask) = BitVec.ofNat 32 (smeared (i + 1)) := by
    have hfield : (statusVal >>> wrPtrShift).setWidth 6 = wrPtrField statusVal := rfl
    rw [and_ptrMask, hfield, h, videoBin2gray_ofNat hi, grayLoop_encode, toNat_ofNat_add_one hi]
  have hbound := le_smeared (BitVec.ofNat 6 i + 1)
  rw [toNat_ofNat_add_one hi] at hbound
  have hpred : (BitVec.ofNat 32 (smeared (i + 1)) - 1).toNat = i + excess i := by
    unfold excess
    rw [BitVec.toNat_sub, BitVec.toNat_ofNat]
    change (2 ^ 32 - 1 + smeared (i + 1) % 2 ^ 32) % 2 ^ 32 = i + (smeared (i + 1) - (i + 1))
    omega
  unfold videoCtrlGetIdx
  rw [videoGray2bin_eq, BitVec.toNat_umod, hloop, hpred]

/-- The decoder is right exactly where the excess is a multiple of the number of buffers. -/
theorem videoCtrlGetIdx_iff {statusVal frmCnts : U32} {i : Nat} (hi : i < 63)
    (h : (wrPtrField statusVal).setWidth 32 = videoBin2gray (BitVec.ofNat 32 i)) :
    (videoCtrlGetIdx statusVal frmCnts).toNat = i % frmCnts.toNat ↔ frmCnts.toNat ∣ excess i := by
  rw [videoCtrlGetIdx_of_code hi h]
  constructor
  · intro heq
    have hdvd := (Nat.modEq_iff_dvd' (Nat.le_add_right i (excess i))).mp heq.symm
    rwa [Nat.add_sub_cancel_left] at hdvd
  · rintro ⟨k, hk⟩
    rw [hk, Nat.add_mul_mod_self_left]

/-- The slots whose pointer is decoded right whatever the number of buffers. -/
theorem excess_eq_zero_iff : ∀ i < 63, excess i = 0 ↔ i ∈ [0, 1, 2, 5, 6, 13, 14, 29, 30, 61, 62] := by
  decide

/-! ### The pointer towards the hardware -/

/-- The shifted index has nothing in its low bits, and the conversion drops the others. -/
theorem videoCtrlSetPtr_eq_one (index : U32) : videoCtrlSetPtr index = 1 := by
  have hall : ∀ p : BitVec 6, videoBin2gray ((p.setWidth 32) <<< rdPtrShift) = 1 := by decide
  unfold videoCtrlSetPtr
  rw [and_ptrMask]
  exact hall _

/-- What `video_ctrl_set_ptr` is for: the code of the slot in bits 21:16 and zeros elsewhere. -/
def SetsRdPtr (index : U32) : Prop := videoCtrlSetPtr index = videoBin2gray (index % 64) <<< rdPtrShift

theorem not_setsRdPtr (index : U32) : ¬ SetsRdPtr index := by
  intro h
  unfold SetsRdPtr at h
  rw [videoCtrlSetPtr_eq_one] at h
  have hbit := congrArg (fun v => v.getLsbD 0) h
  rw [BitVec.getLsbD_shiftLeft] at hbit
  exact absurd hbit (by simp [rdPtrShift])

/-- Written to RX_CTRL, the word leaves `vdma_frame_ptr_o` at 0. -/
theorem clock_videoCtrlSetPtr (r : VideoCtrlRegs) (p : BitVec 6) (index : U32) :
    (r.clock p (some (rxCtrlAddr, videoCtrlSetPtr index))).vdmaFramePtrO = 0 := by
  rw [videoCtrlSetPtr_eq_one]
  rfl

/-! ### Both directions -/

/-- The codec on any status word that holds the code of slot `i`, and on any index. -/
theorem videoCtrlGetIdx_iff_and_not_setsRdPtr {statusVal frmCnts : U32} {i : Nat} (hi : i < 63)
    (h : (wrPtrField statusVal).setWidth 32 = videoBin2gray (BitVec.ofNat 32 i)) (index : U32) :
    ((videoCtrlGetIdx statusVal frmCnts).toNat = i % frmCnts.toNat ↔ frmCnts.toNat ∣ excess i) ∧ ¬ SetsRdPtr index :=
  ⟨videoCtrlGetIdx_iff hi h, not_setsRdPtr index⟩

/-- Slot 3 of four: the code is 6, and the index comes out as 5 mod 4. -/
theorem videoCtrlGetIdx_iff_and_not_setsRdPtr_slot_three :
    ((videoCtrlGetIdx 0x06000000 4).toNat = 3 % (4 : U32).toNat ↔ (4 : U32).toNat ∣ excess 3) ∧ ¬ SetsRdPtr 3 :=
  videoCtrlGetIdx_iff_and_not_setsRdPtr (by decide) (by decide) 3

theorem slot_three_decoded_wrong :
    (wrPtrField 0x06000000).setWidth 32 = videoBin2gray 3 ∧ (videoCtrlGetIdx 0x06000000 4).toNat = 1 ∧
      videoCtrlSetPtr 3 = 1 ∧ videoBin2gray 3 <<< rdPtrShift = 0x60000 := by
  decide

end RcCarControl.Driver
