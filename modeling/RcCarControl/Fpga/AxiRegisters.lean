import Mathlib.Tactic.IntervalCases
import RcCarControl.Fpga.AxiRefinement

/-!
# The registers of both slaves

Where the write decode of `video_ctrl_axi` and `sys_ctrl_axi` takes the fields from a word the read decode puts them back,
so each of the two modules has a `Layout` and refines its register file.
-/

namespace RcCarControl.Fpga

open Lts

/-! ### `video_ctrl_axi` -/

namespace VideoCtrlRegs

/-- The read/write bits: all of the test pattern's registers and of the FIFO's, and of RX_CTRL the control bits without
the interrupt, which is cleared by a write, and the pointer that goes out. -/
def rw (a : BitVec 6) : BitVec 32 :=
  if a = tpCtrlAddr then 0xffffffff
  else if a = tpSizeAddr then 0x07ff07ff
  else if a = rxCtrlAddr then 0x003f005f
  else if a = rxFifoCtrlAddr then 0x07ff07ff
  else 0

def map : RegisterFile.Map (BitVec 6) 32 := ⟨rw, fun a => a ≤ rxFifoStatusAddr, 0xdeadbeef⟩

/-- The read/write bits of RX_CTRL in their places. -/
def rxCtrlFields (r : VideoCtrlRegs) : BitVec 32 :=
  0#10 ++ r.vdmaFramePtrO ++ 0#9 ++ BitVec.ofBool r.embFrameCnt ++ 0#1 ++ BitVec.ofBool r.vdmaFrameInten ++
    BitVec.ofBool r.camPwdn ++ BitVec.ofBool r.camRstn ++ BitVec.ofBool r.pureBt656 ++ BitVec.ofBool r.rxEnable

def fields (r : VideoCtrlRegs) (a : BitVec 6) : BitVec 32 :=
  if a = tpCtrlAddr then r.tpBlanking ++ r.tpNumFrames ++ BitVec.ofBool r.tpEnGen
  else if a = tpSizeAddr then 0#5 ++ r.tpHeight ++ 0#5 ++ r.tpWidth
  else if a = rxCtrlAddr then r.rxCtrlFields
  else if a = rxFifoCtrlAddr then 0#5 ++ r.dataFifoLineLen ++ 0#5 ++ r.dataFifoStartRead
  else 0

theorem tpCtrl_of_write (d : BitVec 32) :
    d.extractLsb' 8 24 ++ d.extractLsb' 1 7 ++ BitVec.ofBool (d.getLsbD 0) = d &&& 0xffffffff := by
  apply BitVec.eq_of_getLsbD_eq
  intro k hk
  simp only [BitVec.getLsbD_append, BitVec.getLsbD_and]
  interval_cases k <;> simp

/-- Two halves of eleven bits. -/
theorem halves_of_write (d : BitVec 32) : 0#5 ++ d.extractLsb' 16 11 ++ 0#5 ++ d.extractLsb' 0 11 = d &&& 0x07ff07ff := by
  apply BitVec.eq_of_getLsbD_eq
  intro k hk
  simp only [BitVec.getLsbD_append, BitVec.getLsbD_and]
  interval_cases k <;> simp

theorem halves_and (x y : BitVec 11) : (0#5 ++ x ++ 0#5 ++ y) &&& 0x07ff07ff = 0#5 ++ x ++ 0#5 ++ y := by
  apply BitVec.eq_of_getLsbD_eq
  intro k hk
  simp only [BitVec.getLsbD_append, BitVec.getLsbD_and]
  interval_cases k <;> simp

theorem rxCtrl_of_write (d : BitVec 32) :
    0#10 ++ d.extractLsb' 16 6 ++ 0#9 ++ BitVec.ofBool (d.getLsbD 6) ++ 0#1 ++ BitVec.ofBool (intenBit d) ++ BitVec.ofBool (d.getLsbD 3) ++
      BitVec.ofBool (d.getLsbD 2) ++ BitVec.ofBool (d.getLsbD 1) ++ BitVec.ofBool (runBit d) = d &&& 0x003f005f := by
  unfold intenBit runBit
  apply BitVec.eq_of_getLsbD_eq
  intro k hk
  simp only [BitVec.getLsbD_append, BitVec.getLsbD_and]
  interval_cases k <;> simp

theorem rxCtrl_and (r : VideoCtrlRegs) (p : BitVec 6) : r.rxCtrl p &&& 0x003f005f = r.rxCtrlFields := by
  unfold rxCtrl rxCtrlFields
  apply BitVec.eq_of_getLsbD_eq
  intro k hk
  simp only [BitVec.getLsbD_append, BitVec.getLsbD_and]
  interval_cases k <;> simp

/-- A write puts its bits into the fields of its register and leaves those of the others. -/
theorem fields_write (r : VideoCtrlRegs) (p : BitVec 6) (a : BitVec 6) (d : BitVec 32) :
    fields (r.clock p (some (a, d))) = Function.update r.fields a (d &&& rw a) := by
  by_cases h₁ : a = tpCtrlAddr
  · subst h₁
    refine Function.eq_update_iff.2 ⟨tpCtrl_of_write d, fun b hb => ?_⟩
    simp [fields, clock, write, hb, rxCtrlFields]
  by_cases h₂ : a = tpSizeAddr
  · subst h₂
    refine Function.eq_update_iff.2 ⟨halves_of_write d, fun b hb => ?_⟩
    simp [fields, clock, write, hb, h₁, rxCtrlFields]
  by_cases h₃ : a = rxCtrlAddr
  · subst h₃
    refine Function.eq_update_iff.2 ⟨rxCtrl_of_write d, fun b hb => ?_⟩
    simp [fields, clock, write, hb, h₁, h₂]
  by_cases h₄ : a = rxFifoCtrlAddr
  · subst h₄
    have hne : rxFifoCtrlAddr ≠ rxSizeStatAddr := by decide
    refine Function.eq_update_iff.2 ⟨halves_of_write d, fun b hb => ?_⟩
    simp [fields, clock, write, hb, h₁, h₂, h₃, hne, rxCtrlFields]
  -- no register of the others has a field, and a write only gives a strobe
  have hw : fields (r.clock p (some (a, d))) = r.fields := by
    unfold clock write
    simp only [if_neg h₁, if_neg h₂, if_neg h₃, if_neg h₄]
    split <;> rfl
  have hz : d &&& rw a = r.fields a := by simp [rw, fields, h₁, h₂, h₃, h₄]
  rw [hw, hz, Function.update_eq_self]

theorem read_fields (r : VideoCtrlRegs) (p : BitVec 6) (rx : RxStatus) (a : BitVec 6) :
    r.read p rx a &&& rw a = r.fields a := by
  unfold read rw fields
  by_cases h₀ : a = verAddr
  · simp [h₀, verAddr, tpCtrlAddr, tpSizeAddr, rxCtrlAddr, rxFifoCtrlAddr]
  by_cases h₁ : a = tpCtrlAddr
  · simp only [if_neg h₀, if_pos h₁]
    exact BitVec.and_allOnes
  by_cases h₂ : a = tpSizeAddr
  · simp only [if_neg h₀, if_neg h₁, if_pos h₂]
    exact halves_and _ _
  by_cases h₃ : a = rxCtrlAddr
  · simp only [if_neg h₀, if_neg h₁, if_neg h₂, if_pos h₃]
    exact rxCtrl_and r p
  by_cases h₄ : a = rxFifoCtrlAddr
  · subst h₄
    exact halves_and _ _
  · simp only [if_neg h₁, if_neg h₂, if_neg h₃, if_neg h₄]
    exact BitVec.and_zero

theorem read_unmapped (r : VideoCtrlRegs) (p : BitVec 6) (rx : RxStatus) (a : BitVec 6) (h : map.mapped a = false) :
    r.read p rx a = 0xdeadbeef := by
  have hne (b : BitVec 6) (hb : map.mapped b = true) : a ≠ b := by
    rintro rfl
    rw [h] at hb
    cases hb
  unfold read
  rw [if_neg (hne _ rfl), if_neg (hne _ rfl), if_neg (hne _ rfl), if_neg (hne _ rfl), if_neg (hne _ rfl),
    if_neg (hne _ rfl), if_neg (hne _ rfl), if_neg (hne _ rfl), if_neg (hne _ rfl)]

end VideoCtrlRegs

def videoCtrlLayout : Layout videoCtrlAxi where
  map := VideoCtrlRegs.map
  fields := VideoCtrlRegs.fields
  fields_write r x a d := r.fields_write x.1 a d
  fields_none _ _ := rfl
  read_fields r x a := r.read_fields x.1 x.2 a
  read_unmapped r x a h := r.read_unmapped x.1 x.2 a h

/-! ### `sys_ctrl_axi` -/

namespace SysCtrlRegs

open SysCtrl

def rw (a : BitVec 3) : BitVec 32 :=
  if a = ioctrlAddr then 1
  else if a = pwmCtrlStatus then 1
  else if a = SysCtrl.pwmPeriod then 0x00ffffff
  else if a = SysCtrl.pwmActive0 then 0x00ffffff
  else if a = SysCtrl.pwmActive1 then 0x00ffffff
  else if a = vidCtrlStatus then 0x80000000
  else 0

/-- Every address of three bits has a register. -/
def map : RegisterFile.Map (BitVec 3) 32 := ⟨rw, fun _ => true, 0xdeadbeef⟩

def fields (r : SysCtrlRegs) (a : BitVec 3) : BitVec 32 :=
  if a = ioctrlAddr then 0#31 ++ BitVec.ofBool r.pwmMuxSel
  else if a = pwmCtrlStatus then 0#31 ++ BitVec.ofBool r.pwmEnable
  else if a = SysCtrl.pwmPeriod then 0#8 ++ r.pwmPeriod
  else if a = SysCtrl.pwmActive0 then 0#8 ++ r.pwmActive0
  else if a = SysCtrl.pwmActive1 then 0#8 ++ r.pwmActive1
  else if a = vidCtrlStatus then BitVec.ofBool r.videoMeasEn ++ 0#31
  else 0

theorem bit_of_write (d : BitVec 32) : 0#31 ++ BitVec.ofBool (d.getLsbD 0) = d &&& 1 := by
  apply BitVec.eq_of_getLsbD_eq
  intro k hk
  simp only [BitVec.getLsbD_append, BitVec.getLsbD_and]
  interval_cases k <;> simp

theorem count_of_write (d : BitVec 32) : 0#8 ++ d.extractLsb' 0 24 = d &&& 0x00ffffff := by
  apply BitVec.eq_of_getLsbD_eq
  intro k hk
  simp only [BitVec.getLsbD_append, BitVec.getLsbD_and]
  interval_cases k <;> simp

theorem meas_of_write (d : BitVec 32) : BitVec.ofBool (d.getLsbD 31) ++ 0#31 = d &&& 0x80000000 := by
  apply BitVec.eq_of_getLsbD_eq
  intro k hk
  simp only [BitVec.getLsbD_append, BitVec.getLsbD_and]
  interval_cases k <;> simp

theorem fields_write (r : SysCtrlRegs) (a : BitVec 3) (d : BitVec 32) :
    fields (r.write (some (a, d))) = Function.update r.fields a (d &&& rw a) := by
  by_cases h₁ : a = ioctrlAddr
  · subst h₁
    refine Function.eq_update_iff.2 ⟨bit_of_write d, fun b hb => ?_⟩
    simp [fields, write, hb]
  by_cases h₂ : a = pwmCtrlStatus
  · subst h₂
    refine Function.eq_update_iff.2 ⟨bit_of_write d, fun b hb => ?_⟩
    simp [fields, write, hb, h₁]
  by_cases h₃ : a = SysCtrl.pwmPeriod
  · subst h₃
    refine Function.eq_update_iff.2 ⟨count_of_write d, fun b hb => ?_⟩
    simp [fields, write, hb, h₁, h₂]
  by_cases h₄ : a = SysCtrl.pwmActive0
  · subst h₄
    refine Function.eq_update_iff.2 ⟨count_of_write d, fun b hb => ?_⟩
    simp [fields, write, hb, h₁, h₂, h₃]
  by_cases h₅ : a = SysCtrl.pwmActive1
  · subst h₅
    refine Function.eq_update_iff.2 ⟨count_of_write d, fun b hb => ?_⟩
    simp [fields, write, hb, h₁, h₂, h₃, h₄]
  by_cases h₆ : a = vidCtrlStatus
  · subst h₆
    refine Function.eq_update_iff.2 ⟨meas_of_write d, fun b hb => ?_⟩
    simp [fields, write, hb, h₁, h₂, h₃, h₄, h₅]
  have hw : r.write (some (a, d)) = r := by simp [write, h₁, h₂, h₃, h₄, h₅, h₆]
  have hz : d &&& rw a = r.fields a := by simp [rw, fields, h₁, h₂, h₃, h₄, h₅, h₆]
  rw [hw, hz, Function.update_eq_self]

theorem bit_and (x : Bool) : (0#31 ++ BitVec.ofBool x) &&& 1 = 0#31 ++ BitVec.ofBool x := by
  cases x <;> decide

/-- The width of the counters that stands above the enable bit is not a field. -/
theorem pwmCtrl_and (x : Bool) : (0#8 ++ 24#8 ++ 0#7 ++ BitVec.ofBool x).setWidth 32 &&& 1 = 0#31 ++ BitVec.ofBool x := by
  cases x <;> decide

theorem count_and (x : BitVec 24) : (0#8 ++ x) &&& 0x00ffffff = 0#8 ++ x := by
  apply BitVec.eq_of_getLsbD_eq
  intro k hk
  simp only [BitVec.getLsbD_append, BitVec.getLsbD_and]
  interval_cases k <;> simp

theorem meas_and (x : Bool) (y z : BitVec 12) :
    (BitVec.ofBool x ++ 0#3 ++ y ++ 0#4 ++ z) &&& 0x80000000 = BitVec.ofBool x ++ 0#31 := by
  apply BitVec.eq_of_getLsbD_eq
  intro k hk
  simp only [BitVec.getLsbD_append, BitVec.getLsbD_and]
  interval_cases k <;> simp

theorem read_fields (r : SysCtrlRegs) (ver : BitVec 32) (video : VideoMeas) (a : BitVec 3) :
    r.read ver video a &&& rw a = r.fields a := by
  unfold read rw fields
  by_cases h₀ : a = SysCtrl.verAddr
  · subst h₀
    exact BitVec.and_zero
  by_cases h₁ : a = ioctrlAddr
  · simp only [if_neg h₀, if_pos h₁]
    exact bit_and _
  by_cases h₂ : a = pwmCtrlStatus
  · simp only [if_neg h₀, if_neg h₁, if_pos h₂]
    exact pwmCtrl_and _
  by_cases h₃ : a = SysCtrl.pwmPeriod
  · simp only [if_neg h₀, if_neg h₁, if_neg h₂, if_pos h₃]
    exact count_and _
  by_cases h₄ : a = SysCtrl.pwmActive0
  · simp only [if_neg h₀, if_neg h₁, if_neg h₂, if_neg h₃, if_pos h₄]
    exact count_and _
  by_cases h₅ : a = SysCtrl.pwmActive1
  · simp only [if_neg h₀, if_neg h₁, if_neg h₂, if_neg h₃, if_neg h₄, if_pos h₅]
    exact count_and _
  by_cases h₆ : a = vidCtrlStatus
  · simp only [if_neg h₀, if_neg h₁, if_neg h₂, if_neg h₃, if_neg h₄, if_neg h₅, if_pos h₆]
    exact meas_and _ _ _
  · simp only [if_neg h₁, if_neg h₂, if_neg h₃, if_neg h₄, if_neg h₅, if_neg h₆]
    exact BitVec.and_zero

end SysCtrlRegs

def sysCtrlLayout (ver : BitVec 32) : Layout (sysCtrlAxi ver) where
  map := SysCtrlRegs.map
  fields := SysCtrlRegs.fields
  fields_write r _ a d := r.fields_write a d
  fields_none _ _ := rfl
  read_fields r x a := r.read_fields ver x a
  read_unmapped _ _ _ h := by cases h

/-! ### Both -/

/-- Under every master that keeps its offers and makes one request at a time both modules refine their register files. -/
theorem refines_of_both :
    (∀ s i is, StepsMeet (AxiBus.step videoCtrlAxi) Sequential (AxiBus.start videoCtrlAxi s i) is →
      Refines videoCtrlLayout (AxiBus.start videoCtrlAxi s i) is) ∧
    ∀ ver s i is, StepsMeet (AxiBus.step (sysCtrlAxi ver)) Sequential (AxiBus.start (sysCtrlAxi ver) s i) is →
      Refines (sysCtrlLayout ver) (AxiBus.start (sysCtrlAxi ver) s i) is :=
  ⟨fun s i _ hs => refines videoCtrlLayout s i hs, fun ver s i _ hs => refines (sysCtrlLayout ver) s i hs⟩

/-- The write of TP_SIZE is answered while the register is read. -/
def writeThenRead : List (AxiIn 6 (BitVec 6 × RxStatus)) :=
  let offerRead := { idleMaster with bready := true, araddr := 0x08, arvalid := true }
  [offerWrite, offerWrite, offerRead, offerRead, { idleMaster with rready := true }]

theorem refines_of_both_writeThenRead :
    Refines videoCtrlLayout (AxiBus.start videoCtrlAxi anySlave idleMaster) writeThenRead ∧
      (handshakes videoCtrlAxi (AxiBus.start videoCtrlAxi anySlave idleMaster).1 writeThenRead).map
          (fun e => (e.write, e.read, e.r)) =
        [(none, none, none), (some (tpSizeAddr, 1), none, none), (none, none, none), (none, some (tpSizeAddr, 1), none),
          (none, none, some 1)] := by
  have hs : StepsMeet (AxiBus.step videoCtrlAxi) Sequential (AxiBus.start videoCtrlAxi anySlave idleMaster)
      writeThenRead := by decide
  exact ⟨refines_of_both.1 anySlave idleMaster writeThenRead hs, by decide⟩

end RcCarControl.Fpga
