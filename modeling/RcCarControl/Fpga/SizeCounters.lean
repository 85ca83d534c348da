import RcCarControl.Fpga.Bt656Bytes
import Mathlib.Data.List.Chain

/-!
# The width and height counters of the video receiver

With `pure_bt656` at 0 the receiver of `fpga/rtl/video_ctrl/bt656_to_axi_stream.sv` measures every line in `pixel_cnt`
and every frame in `line_cnt`, and latches them into `width_cnt` and `height_cnt`.  `measuredLines` and `lineCounts`
are the lengths and the line numbers on the pins, and the registers are given in terms of them.
-/

namespace RcCarControl.Fpga

variable (xs : Nat → VideoIn)

/-! ### Lines and frames on the pins -/

/-- A frame start is known before clock `k`, so the receiver follows the lines. -/
def Capturing (k : Nat) : Prop := (seen xs k).isSome

instance (k : Nat) : Decidable (Capturing xs k) := inferInstanceAs (Decidable (_ = true))

/-- The receiver is in a line before clock `k`. -/
def InLine : Nat → Prop
  | 0 => False
  | k + 1 => Capturing xs k ∧ (xs k).href = true

instance : DecidablePred (InLine xs)
  | 0 => inferInstanceAs (Decidable False)
  | k + 1 => inferInstanceAs (Decidable (Capturing xs k ∧ _))

/-- The bytes of the line of clock `k - 1`, up to this clock. -/
def lineLen : Nat → Nat
  | 0 => 0
  | k + 1 => if InLine xs (k + 1) then lineLen k + 1 else 0

/-- The line before clock `k` is over: HREF is 0. -/
def LineEnd (k : Nat) : Prop := InLine xs k ∧ (xs k).href = false

instance (k : Nat) : Decidable (LineEnd xs k) := inferInstanceAs (Decidable (_ ∧ _))

/-- The lengths of the lines that were over before clock `k`. -/
def measuredLines : Nat → List Nat
  | 0 => []
  | k + 1 => if LineEnd xs k then measuredLines k ++ [lineLen xs k] else measuredLines k

/-- A line begins in clock `k`.  One that goes on when the receiver is enabled begins for it in the first clock. -/
def LineBegin (k : Nat) : Prop := (xs k).href = true ∧ (0 < k → (xs (k - 1)).href = false)

instance (k : Nat) : Decidable (LineBegin xs k) := inferInstanceAs (Decidable (_ ∧ _))

/-- The lines that began before clock `k` in the frame of clock `k - 1`. -/
def lineCount : Nat → Nat
  | 0 => 0
  | k + 1 => (if Rise xs k then 0 else lineCount k) + if LineBegin xs k then 1 else 0

/-- The line numbers at the frame starts before clock `k`. -/
def lineCounts : Nat → List Nat
  | 0 => []
  | k + 1 => if Rise xs k then lineCounts k ++ [lineCount xs k] else lineCounts k

/-- The line numbers of the complete frames: the one before the first frame start is partial. -/
def frames (k : Nat) : List Nat := (lineCounts xs k).drop 1

/-- No line begins in the clock of a frame start nor in the next one, in which the start is seen. -/
def ClearStarts : Prop := ∀ r, Rise xs r → ¬ LineBegin xs r ∧ ¬ LineBegin xs (r + 1)

/-- What a 13-bit register holds that latched the numbers of a list; all ones stands for none yet. -/
def latched (l : List Nat) : BitVec 13 := (l.getLast?.map (BitVec.ofNat 13)).getD (BitVec.allOnes 13)

variable {xs} {cfg : Bt656Cfg} {k : Nat}

@[simp] theorem latched_concat (l : List Nat) (n : Nat) : latched (l ++ [n]) = BitVec.ofNat 13 n := by
  simp [latched]

theorem ofNat_eq_allOnes_iff (n : Nat) : BitVec.ofNat 13 n = BitVec.allOnes 13 ↔ n % 8192 = 8191 := by
  rw [← BitVec.toNat_inj, BitVec.toNat_ofNat, BitVec.toNat_allOnes]

theorem ofNat_succ (n : Nat) : BitVec.ofNat 13 (n + 1) = BitVec.ofNat 13 n + 1 := BitVec.ofNat_add n 1

theorem Capturing.succ (h : Capturing xs k) : Capturing xs (k + 1) := by
  obtain _ | _ | k := k
  · cases h
  · cases h
  · exact frameStart_isSome_mono h

theorem InLine.capturing (h : InLine xs k) : Capturing xs k := by
  obtain _ | k := k
  · cases h
  · exact h.1.succ

theorem lineLen_of_inLine (h : InLine xs (k + 1)) : lineLen xs (k + 1) = lineLen xs k + 1 := by
  rw [lineLen, if_pos h]

theorem lineLen_pos (h : InLine xs k) : 0 < lineLen xs k := by
  obtain _ | k := k
  · cases h
  · rw [lineLen_of_inLine h]
    exact Nat.succ_pos _

theorem lineLen_of_not_inLine (h : ¬ InLine xs k) : lineLen xs k = 0 := by
  obtain _ | k := k
  · rfl
  · rw [lineLen, if_neg h]

theorem lineCount_rise (hr : Rise xs k) (hb : ¬ LineBegin xs k) : lineCount xs (k + 1) = 0 := by
  rw [lineCount, if_pos hr, if_neg hb]

theorem lineCount_succ (hr : ¬ Rise xs k) :
    lineCount xs (k + 1) = lineCount xs k + if LineBegin xs k then 1 else 0 := by
  rw [lineCount, if_neg hr]

theorem not_rise_succ {r : Nat} (h : Rise xs r) : ¬ Rise xs (r + 1) := fun h' => by
  have hv : (xs r).vsync = false := h'.2.1
  rw [h.2.2] at hv
  cases hv

theorem ClearStarts.of_quiet (hq : QuietStarts xs) : ClearStarts xs := by
  intro r hr
  obtain ⟨h₀, h₁, -⟩ := hq r hr
  refine ⟨fun hb => ?_, fun hb => ?_⟩
  · rw [hb.1] at h₀
    cases h₀
  · rw [hb.1] at h₁
    cases h₁

/-! ### The registers before a clock -/

namespace Bt656

variable (xs) in
theorem trace_state_eq (hp : cfg.pureBt656 = false) (k : Nat) :
    (trace cfg xs k).state = if ¬ Capturing xs k then .idle else if InLine xs k then .vdata else .blanking := by
  induction k with
  | zero => rfl
  | succ k ih =>
    show ((trace cfg xs k).fsm cfg (xs k)).nstate = _
    by_cases hc : Capturing xs k
    · have hc' := hc.succ
      have hin : InLine xs (k + 1) ↔ (xs k).href = true := and_iff_right hc
      rw [if_neg (not_not.2 hc)] at ih
      rw [if_neg (not_not.2 hc'), fsm, ih]
      by_cases hl : InLine xs k <;> cases hh : (xs k).href <;> simp [hl, hin, hh, hp]
    · have hin : ¬ InLine xs (k + 1) := fun h => hc h.1
      have hidle : (trace cfg xs k).state = .idle := by rw [ih, if_pos hc]
      obtain _ | k := k
      · rfl
      -- the start that is seen now is known from the next clock on
      have hiff : Capturing xs (k + 2) ↔ Rise xs k := by
        refine ⟨fun h => ?_, fun h => ?_⟩
        · by_contra hr
          obtain _ | k := k
          · cases h
          · exact hc ((congrArg Option.isSome (frameStart_succ hr)).symm.trans h)
        · exact congrArg Option.isSome (frameStart_rise h)
      by_cases hr : Rise xs k <;> simp [fsm, hidle, trace_inNewFrame xs hp, hr, hiff, hp, hin]

variable (xs) in
theorem trace_state_line (hp : cfg.pureBt656 = false) (hl : InLine xs k) : (trace cfg xs k).state = .vdata := by
  rw [trace_state_eq xs hp, if_neg (not_not.2 hl.capturing), if_pos hl]

theorem trace_state_gap (hp : cfg.pureBt656 = false) (hc : Capturing xs k) (hl : ¬ InLine xs k) :
    (trace cfg xs k).state = .blanking := by
  rw [trace_state_eq xs hp, if_neg (not_not.2 hc), if_neg hl]

variable (xs) in
theorem trace_vdata_iff (hp : cfg.pureBt656 = false) (k : Nat) :
    (trace cfg xs k).state = .vdata ↔ InLine xs k := by
  refine ⟨fun h => ?_, trace_state_line xs hp⟩
  by_contra hl
  rw [trace_state_eq xs hp, if_neg hl] at h
  split at h <;> cases h

/-- A line is measured in the clock after its last byte. -/
theorem latchPixelCnt_eq (hp : cfg.pureBt656 = false) (k : Nat) :
    ((trace cfg xs k).fsm cfg (xs k)).latchPixelCnt = decide (LineEnd xs k) := by
  by_cases hl : InLine xs k
  · have hstate : (trace cfg xs k).state = .vdata := trace_state_line xs hp hl
    cases hh : (xs k).href <;> simp [fsm, hstate, hp, LineEnd, hl, hh]
  · have hno : ¬ LineEnd xs k := fun h => hl h.1
    have hstate : (trace cfg xs k).state ≠ .vdata := fun h => hl ((trace_vdata_iff xs hp k).1 h)
    rw [decide_eq_false hno]
    cases hs : (trace cfg xs k).state with
    | vdata => exact absurd hs hstate
    | idle | sav | blanking =>
      simp only [fsm, hs]
      split_ifs <;> rfl

/-- In a line `pixel_cnt` is one less than the bytes so far. -/
theorem trace_pixelCnt (hp : cfg.pureBt656 = false) (hl : InLine xs k) :
    (trace cfg xs k).pixelCnt = BitVec.ofNat 13 (lineLen xs k - 1) := by
  induction k with
  | zero => cases hl
  | succ k ih =>
    have hend : ¬ LineEnd xs k := by
      rintro ⟨-, h⟩
      rw [hl.2] at h
      cases h
    have hlatch : ((trace cfg xs k).fsm cfg (xs k)).latchPixelCnt = false := by
      rw [latchPixelCnt_eq hp, decide_eq_false hend]
    rw [lineLen_of_inLine hl, Nat.add_sub_cancel]
    by_cases hl' : InLine xs k
    · -- the count goes on
      have hstate : (trace cfg xs k).state = .vdata := trace_state_line xs hp hl'
      have hrst : ((trace cfg xs k).fsm cfg (xs k)).rstPixelCnt = false := by simp [fsm, hstate, hp, hl.2]
      calc (trace cfg xs (k + 1)).pixelCnt = (trace cfg xs k).pixelCnt + 1 := by
            simp [trace, clock, hlatch, hrst, hstate]
        _ = BitVec.ofNat 13 (lineLen xs k) := by
            rw [ih hl', ← ofNat_succ, Nat.sub_add_cancel (lineLen_pos hl')]
    · -- the clock before the first byte cleared it
      have hstate : (trace cfg xs k).state = .blanking := trace_state_gap hp hl.1 hl'
      have hrst : ((trace cfg xs k).fsm cfg (xs k)).rstPixelCnt = true := by simp [fsm, hstate, hp, hl.2]
      rw [lineLen_of_not_inLine hl']
      simp [trace, clock, hlatch, hrst]

/-- `width_cnt` is one less than the length of the last line. -/
theorem trace_widthCnt (hp : cfg.pureBt656 = false) (k : Nat) :
    (trace cfg xs k).widthCnt = latched ((measuredLines xs k).map (· - 1)) := by
  induction k with
  | zero => rfl
  | succ k ih =>
    have hclock : (trace cfg xs (k + 1)).widthCnt =
        if LineEnd xs k then (trace cfg xs k).pixelCnt else (trace cfg xs k).widthCnt := by
      rw [trace_succ]
      show (if ((trace cfg xs k).fsm cfg (xs k)).latchPixelCnt then _ else _) = _
      rw [latchPixelCnt_eq hp]
      simp only [decide_eq_true_eq]
    rw [hclock, measuredLines]
    split_ifs with hend
    · rw [trace_pixelCnt hp hend.1, List.map_append]
      exact (latched_concat _ _).symm
    · exact ih

/-! ### Lines of a frame -/

variable (xs) in
theorem incLineCnt_eq (hp : cfg.pureBt656 = false) (k : Nat) :
    (trace cfg xs k).incLineCnt cfg (xs k) = decide (LineBegin xs k) := by
  obtain _ | k := k
  · cases hh : (xs 0).href <;> simp [incLineCnt, trace, reset, hp, LineBegin, hh]
  · have hblank : (trace cfg xs (k + 1)).inHblank = (xs k).href := by simp [trace, clock, hp]
    simp [incLineCnt, hp, hblank, LineBegin, and_comm]

variable (xs) in
theorem trace_lineCnt_succ (hp : cfg.pureBt656 = false) (k : Nat) :
    (trace cfg xs (k + 2)).lineCnt =
      if Rise xs k then 0 else (trace cfg xs (k + 1)).lineCnt + if LineBegin xs (k + 1) then 1 else 0 := by
  rw [trace_succ]
  show (if (trace cfg xs (k + 1)).inNewFrame cfg then 0
    else if (trace cfg xs (k + 1)).incLineCnt cfg (xs (k + 1)) then _ else _) = _
  rw [trace_inNewFrame xs hp, incLineCnt_eq xs hp]
  by_cases hr : Rise xs k <;> by_cases hb : LineBegin xs (k + 1) <;> simp [hr, hb]

/-- `line_cnt` counts the lines of the frame, until its end is seen one clock after it. -/
theorem trace_lineCnt (hp : cfg.pureBt656 = false) (hc : ClearStarts xs) (k : Nat) :
    (trace cfg xs (k + 1)).lineCnt =
      BitVec.ofNat 13 (if Rise xs k then lineCount xs k else lineCount xs (k + 1)) := by
  induction k with
  | zero =>
    rw [if_neg not_rise_zero, trace_succ]
    show (if (trace cfg xs 0).incLineCnt cfg (xs 0) then _ else _) = _
    rw [incLineCnt_eq xs hp]
    by_cases hb : LineBegin xs 0 <;> simp [lineCount, hb, not_rise_zero, trace, reset]
  | succ k ih =>
    rw [trace_lineCnt_succ xs hp, ih]
    by_cases hr : Rise xs k
    · -- the lines of the frame before are in the registers by now, and none has begun since
      rw [if_pos hr, if_neg (not_rise_succ hr), lineCount_succ (not_rise_succ hr), lineCount_rise hr (hc k hr).1,
        if_neg (hc k hr).2]
      rfl
    · rw [if_neg hr, if_neg hr]
      by_cases hr' : Rise xs (k + 1)
      · rw [if_pos hr', if_neg (hc _ hr').1]
        exact BitVec.add_zero _
      · rw [if_neg hr', lineCount_succ hr']
        split_ifs
        · exact (ofNat_succ _).symm
        · exact BitVec.add_zero _

/-- `height_cnt` is the number of lines at the last frame start. -/
theorem trace_heightCnt (hp : cfg.pureBt656 = false) (hc : ClearStarts xs) (k : Nat) :
    (trace cfg xs (k + 1)).heightCnt = latched (lineCounts xs k) := by
  induction k with
  | zero => rfl
  | succ k ih =>
    have hclock : (trace cfg xs (k + 2)).heightCnt =
        if Rise xs k then (trace cfg xs (k + 1)).lineCnt else (trace cfg xs (k + 1)).heightCnt := by
      rw [trace_succ]
      show (if (trace cfg xs (k + 1)).inNewFrame cfg then _ else _) = _
      rw [trace_inNewFrame xs hp]
      simp only [decide_eq_true_eq]
    rw [hclock, lineCounts]
    split_ifs with hr
    · rw [trace_lineCnt hp hc, if_pos hr, latched_concat]
    · exact ih

/-- The size word is written at every frame start but those that find `height_cnt` at all ones. -/
theorem trace_fifoWrite (hp : cfg.pureBt656 = false) (hc : ClearStarts xs) (k : Nat) :
    (trace cfg xs (k + 2)).fifoWrite = true ↔ Rise xs k ∧ latched (lineCounts xs k) ≠ BitVec.allOnes 13 := by
  rw [trace_succ, ← trace_heightCnt hp hc]
  show ((trace cfg xs (k + 1)).inNewFrame cfg && _) = true ↔ _
  rw [trace_inNewFrame xs hp, Bool.and_eq_true, decide_eq_true_eq, bne_iff_ne]

end Bt656

end RcCarControl.Fpga
