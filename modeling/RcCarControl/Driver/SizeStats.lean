import RcCarControl.Driver.Streaming
import RcCarControl.Fpga.Bt656

/-!
# The measured size on its way to the driver

The receiver packs its width and height counters with their error flags into one word (`Bt656.sizeFifoData`),
`video_ctrl_axi` shows the word and the two frame counters in three registers, and `video_ctrl_get_stats` of
`linux/xilinx-rcc-cam.c` takes them apart again.  The counters have 13 bits and the masks of the driver 12, so what it
reports is right exactly for sizes below 4096.
-/

namespace RcCarControl.Driver

open Fpga

structure VideoStats where
  width : U32
  height : U32
  errFlags : U32
  frameCnt : U32
  frameLen : U32
deriving DecidableEq

/-- `video_ctrl_get_stats`; `ioread` gives the word of a register. -/
def videoCtrlGetStats (ioread : Nat → U32) : VideoStats :=
  let sizeStat := ioread videoCtrlRxSizeStat
  let fLen := ioread videoCtrlRxFrameLen
  let fCnts := ioread videoCtrlRxFrameCnts
  { height := (sizeStat >>> 16) &&& 0xFFF
    width := (sizeStat >>> 0) &&& 0xFFF
    errFlags := sizeStat &&& 0x80008000
    frameCnt := fCnts
    frameLen := fLen }

/-- What the receiver measured. -/
def measured (s : Bt656) (rx : RxStatus) : VideoStats where
  width := s.widthCnt.setWidth 32
  height := s.heightCnt.setWidth 32
  errFlags := BitVec.ofBool s.heightErr ++ 0#15 ++ (BitVec.ofBool s.widthErr ++ 0#15)
  frameCnt := rx.frameCnts
  frameLen := rx.frameLength

/-- A read of the driver, with the receiver's size word in the status. -/
def ioread (regs : VideoCtrlRegs) (p : BitVec 6) (s : Bt656) (rx : RxStatus) (reg : Nat) : U32 :=
  regs.read p { rx with sizeStatus := s.sizeFifoData } (regAddr reg)

variable (regs : VideoCtrlRegs) (p : BitVec 6) (s : Bt656) (rx : RxStatus)

/-! ### The fields of the size word -/

/-- One half of the size word. -/
def sizeHalf (err : Bool) (cnt : BitVec 13) : BitVec 16 := BitVec.ofBool err ++ 0#2 ++ cnt

theorem sizeFifoData_eq : s.sizeFifoData = sizeHalf s.heightErr s.heightCnt ++ sizeHalf s.widthErr s.widthCnt := rfl

theorem sizeHalf_setWidth (err : Bool) (cnt : BitVec 13) : (sizeHalf err cnt).setWidth 13 = cnt :=
  BitVec.setWidth_append_eq_right

theorem sizeHalf_and_err (err : Bool) (cnt : BitVec 13) : sizeHalf err cnt &&& 0x8000 = BitVec.ofBool err ++ 0#15 := by
  have hmask : (0x8000 : BitVec 16) = sizeHalf true 0 := rfl
  rw [hmask, sizeHalf, sizeHalf, BitVec.and_append, BitVec.and_append]
  have hcnt : cnt &&& 0 = 0 := BitVec.and_zero
  rw [hcnt]
  cases err <;> rfl

/-- The mask of the driver on a word whose low 13 bits are a counter. -/
theorem and_mask_of_low {v : U32} {cnt : BitVec 13} (h : v.setWidth 13 = cnt) :
    v &&& 0xFFF = (cnt.setWidth 12).setWidth 32 := by
  have hlow : v.setWidth 12 = cnt.setWidth 12 := by
    rw [← h]
    exact (BitVec.setWidth_setWidth_of_le v (by decide)).symm
  have hmask : v &&& 0xFFF = (v.setWidth 12).setWidth 32 := and_lowMask v 12
  rw [hmask, hlow]

/-- Twelve bits hold the counter exactly below 4096. -/
theorem setWidth_twelve_iff (cnt : BitVec 13) :
    (cnt.setWidth 12).setWidth 32 = cnt.setWidth 32 ↔ cnt.toNat < 4096 := by
  rw [← BitVec.toNat_inj]
  simp only [BitVec.toNat_setWidth]
  omega

theorem sizeFifoData_width : (s.sizeFifoData >>> 0).setWidth 13 = s.widthCnt := by
  have hhalf : s.sizeFifoData.setWidth 16 = sizeHalf s.widthErr s.widthCnt := BitVec.setWidth_append_eq_right
  rw [BitVec.ushiftRight_zero, ← sizeHalf_setWidth s.widthErr s.widthCnt, ← hhalf]
  exact (BitVec.setWidth_setWidth_of_le _ (by decide)).symm

theorem sizeFifoData_height : (s.sizeFifoData >>> 16).setWidth 13 = s.heightCnt := by
  have hhalf : (s.sizeFifoData >>> 16).setWidth 16 = sizeHalf s.heightErr s.heightCnt :=
    BitVec.extractLsb'_append_eq_left
  rw [← sizeHalf_setWidth s.heightErr s.heightCnt, ← hhalf]
  exact (BitVec.setWidth_setWidth_of_le _ (by decide)).symm

theorem sizeFifoData_err :
    s.sizeFifoData &&& 0x80008000 = BitVec.ofBool s.heightErr ++ 0#15 ++ (BitVec.ofBool s.widthErr ++ 0#15) := by
  have hmask : (0x80008000 : U32) = 0x8000#16 ++ 0x8000#16 := rfl
  have hhigh := sizeHalf_and_err s.heightErr s.heightCnt
  have hlow := sizeHalf_and_err s.widthErr s.widthCnt
  rw [sizeFifoData_eq, hmask, BitVec.and_append]
  exact congrArg₂ (· ++ ·) hhigh hlow

/-! ### What the driver reports -/

theorem videoCtrlGetStats_eq :
    videoCtrlGetStats (ioread regs p s rx) =
      { measured s rx with
        width := (s.widthCnt.setWidth 12).setWidth 32
        height := (s.heightCnt.setWidth 12).setWidth 32 } := by
  have hsize : ioread regs p s rx videoCtrlRxSizeStat = s.sizeFifoData := rfl
  have hcnts : ioread regs p s rx videoCtrlRxFrameCnts = rx.frameCnts := rfl
  have hlen : ioread regs p s rx videoCtrlRxFrameLen = rx.frameLength := rfl
  simp only [videoCtrlGetStats, measured]
  rw [hsize, hcnts, hlen, and_mask_of_low (sizeFifoData_width s), and_mask_of_low (sizeFifoData_height s),
    sizeFifoData_err]

/-- The driver reports what the receiver measured exactly for sizes below 4096. -/
theorem videoCtrlGetStats_eq_measured_iff :
    videoCtrlGetStats (ioread regs p s rx) = measured s rx ↔ s.widthCnt.toNat < 4096 ∧ s.heightCnt.toNat < 4096 := by
  rw [videoCtrlGetStats_eq, ← setWidth_twelve_iff, ← setWidth_twelve_iff]
  constructor
  · intro h
    exact ⟨congrArg VideoStats.width h, congrArg VideoStats.height h⟩
  · rintro ⟨hwidth, hheight⟩
    rw [hwidth, hheight]
    rfl

/-- A line of 5000 bytes is reported as one of 904. -/
theorem long_line_reported_short :
    ∃ (regs : VideoCtrlRegs) (p : BitVec 6) (s : Bt656) (rx : RxStatus), s.widthCnt = 5000 ∧
      (videoCtrlGetStats (ioread regs p s rx)).width = 904 ∧ videoCtrlGetStats (ioread regs p s rx) ≠ measured s rx :=
  ⟨.reset, 0, { Bt656.reset with widthCnt := 5000, heightCnt := 480 }, ⟨0, 0, 0, 0, false, false, 0, false, false, 0⟩,
    by decide⟩

end RcCarControl.Driver
