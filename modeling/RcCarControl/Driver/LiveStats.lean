import RcCarControl.Driver.SizeStats
import RcCarControl.Fpga.FrameNumbers

/-!
# The statistics of a running camera

`video_ctrl_get_stats` of `linux/xilinx-rcc-cam.c` reads three registers one after the other while the camera goes on.
`stats_of_pins` follows what it returns back to the pins: width, height and error flags are those of one frame start, the
last one whose size word is two AXI clocks old, and the frame count is that of the frame starts.
-/

namespace RcCarControl.Driver

open Fpga Lts StatusPath

def rxStatus (s : StatusPath) (rx : RxStatus) : RxStatus :=
  { rx with sizeStatus := s.sizeFifo.dataOut, frameCnts := s.counts.rxFrameCnts, frameLength := s.counts.rxFrameLength }

/-- `video_ctrl_get_stats` with the states in which the three reads find the receiver. -/
def statsAt (regs : VideoCtrlRegs) (p : BitVec 6) (rx : RxStatus) (atSize atLen atCnts : StatusPath) : VideoStats :=
  videoCtrlGetStats fun reg =>
    if reg = videoCtrlRxSizeStat then regs.read p (rxStatus atSize rx) (regAddr reg)
    else if reg = videoCtrlRxFrameLen then regs.read p (rxStatus atLen rx) (regAddr reg)
    else regs.read p (rxStatus atCnts rx) (regAddr reg)

/-- The frame starts whose size words were written before clock `n`: those after another one, but for a frame whose number
of lines reads as "none yet". -/
def wordedStarts (xs : Nat → VideoIn) (n : Nat) : List Nat :=
  (List.range (n - 2)).filter fun r => decide (Rise xs r ∧ latched (lineCounts xs r) ≠ BitVec.allOnes 13)

/-- The bytes of the last line that was over before clock `k`, as the width register has them: one short, and all ones
without a line. -/
def shownWidth (xs : Nat → VideoIn) (k : Nat) : Nat := ((measuredLines xs k).getLast?.map (· - 1)).getD 8191

variable {cfg : Bt656Cfg}

theorem wordedStarts_succ (xs : Nat → VideoIn) (n : Nat) :
    wordedStarts xs (n + 3) = wordedStarts xs (n + 2) ++
      if Rise xs n ∧ latched (lineCounts xs n) ≠ BitVec.allOnes 13 then [n] else [] := by
  unfold wordedStarts
  rw [show n + 3 - 2 = n + 1 from rfl, show n + 2 - 2 = n from rfl, List.range_succ, List.filter_append]
  congr 1
  by_cases h : Rise xs n ∧ latched (lineCounts xs n) ≠ BitVec.allOnes 13
  · rw [if_pos h]
    exact List.filter_cons_of_pos (p := fun r => decide (Rise xs r ∧ latched (lineCounts xs r) ≠ _)) (decide_eq_true h)
  · rw [if_neg h]
    exact List.filter_cons_of_neg (p := fun r => decide (Rise xs r ∧ latched (lineCounts xs r) ≠ _))
      (Bool.not_eq_true _ ▸ decide_eq_false h)

/-- The words of the log are those of the frame starts on the pins. -/
theorem words_step {r t : Logged} {e : StatusTick} {xs : Nat → VideoIn} (hp : cfg.pureBt656 = false) (hc : ClearStarts xs)
    (hrx : r.1.rx = Bt656.trace cfg xs r.2.samples.length) (ht : Logged.step cfg r e = some t)
    (hw : r.2.words = (wordedStarts xs r.2.samples.length).map fun k => Bt656.trace cfg xs (k + 2)) :
    t.2.words = (wordedStarts xs t.2.samples.length).map fun k => Bt656.trace cfg xs (k + 2) := by
  obtain ⟨s, g⟩ := r
  obtain ⟨t, g'⟩ := t
  obtain ⟨pclk, aclk⟩ := e
  obtain ⟨ht, rfl⟩ := withGhost_eq_some.1 ht
  have hw' : g.words = (wordedStarts xs g.samples.length).map fun k => Bt656.trace cfg xs (k + 2) := hw
  have hrx' : s.rx = Bt656.trace cfg xs g.samples.length := hrx
  cases pclk with
  | none =>
    have hsamples : (g.note cfg s ⟨none, aclk⟩).samples = g.samples := List.append_nil _
    rw [hsamples]
    exact hw'
  | some x =>
    have hlen : (g.note cfg s ⟨some x, aclk⟩).samples.length = g.samples.length + 1 := List.length_append
    have hwords : (g.note cfg s ⟨some x, aclk⟩).words = if s.rx.fifoWrite then g.words ++ [s.rx] else g.words := rfl
    rw [hlen, hwords]
    match hn : g.samples.length with
    | 0 =>
      rw [hn] at hw' hrx'
      rw [hrx', hw']
      rfl
    | 1 =>
      rw [hn] at hw' hrx'
      have hno : s.rx.fifoWrite = false := by
        rw [hrx']
        cases hp' : cfg.pureBt656 <;> simp [Bt656.trace, Bt656.clock, Bt656.reset, Bt656.inNewFrame]
      rw [hno, hw']
      rfl
    | k + 2 =>
      rw [hn] at hw' hrx'
      have hiff : (Bt656.trace cfg xs (k + 2)).fifoWrite = true ↔ _ := Bt656.trace_fifoWrite hp hc k
      rw [wordedStarts_succ, hw', hrx', List.map_append]
      by_cases hk : Rise xs k ∧ latched (lineCounts xs k) ≠ BitVec.allOnes 13
      · rw [if_pos (hiff.2 hk), if_pos hk]
        rfl
      · rw [if_neg fun h => hk (hiff.1 h), if_neg hk]
        exact (List.append_nil _).symm

/-- The word of a frame start, taken apart by the driver. -/
theorem size_of_word {xs : Nat → VideoIn} (hp : cfg.pureBt656 = false) (hq : QuietStarts xs) {r : Nat} (hr : Rise xs r) :
    (((Bt656.trace cfg xs (r + 2)).sizeFifoData >>> 0) &&& 0xFFF).toNat = shownWidth xs (r + 2) % 4096 ∧
      (((Bt656.trace cfg xs (r + 2)).sizeFifoData >>> 16) &&& 0xFFF).toNat = lineCount xs r % 4096 := by
  have hmod (n : Nat) : (((BitVec.ofNat 13 n).setWidth 12).setWidth 32).toNat = n % 4096 := by
    simp only [BitVec.toNat_setWidth, BitVec.toNat_ofNat]
    omega
  constructor
  · have hwidth : (Bt656.trace cfg xs (r + 2)).widthCnt = BitVec.ofNat 13 (shownWidth xs (r + 2)) := by
      rw [Bt656.trace_widthCnt hp, latched, List.getLast?_map, shownWidth]
      cases (measuredLines xs (r + 2)).getLast? <;> rfl
    rw [and_mask_of_low (sizeFifoData_width _), hwidth, hmod]
  · have hheight : (Bt656.trace cfg xs (r + 2)).heightCnt = BitVec.ofNat 13 (lineCount xs r) := by
      rw [Bt656.trace_heightCnt hp (ClearStarts.of_quiet hq), lineCounts, if_pos hr, latched_concat]
    rw [and_mask_of_low (sizeFifoData_height _), hheight, hmod]

theorem dataOut_of_words {xs : Nat → VideoIn} {t : Logged} {sizeStatus : BitVec 32} (h : Handed sizeStatus t)
    (hw : t.2.words = (wordedStarts xs t.2.samples.length).map fun k => Bt656.trace cfg xs (k + 2)) {r : Nat}
    (hr : (if t.2.aclksSinceWord < 2 then (wordedStarts xs t.2.samples.length).dropLast
      else wordedStarts xs t.2.samples.length).getLast? = some r) :
    t.1.sizeFifo.dataOut = (Bt656.trace cfg xs (r + 2)).sizeFifoData := by
  have hshown := h.shown
  rw [hw] at hshown
  split_ifs at hr hshown with hlate
  · rw [← List.map_dropLast, List.getLast?_map, hr] at hshown
    exact hshown
  · rw [List.getLast?_map, hr] at hshown
    exact hshown

section Run

variable (mem : BitVec 2 → BitVec 32) (sizeStatus : BitVec 32) (counts : FrameLength)

theorem run_words (hp : cfg.pureBt656 = false) {es : List StatusTick} {t : Logged} {xs : Nat → VideoIn}
    (hc : ClearStarts xs) (hpaced : StepsMeet (Logged.step cfg) (Paced cfg) (enabled mem sizeStatus counts, .start) es)
    (h : exec (Logged.step cfg) (enabled mem sizeStatus counts, .start) es = some t) (hx : Extends xs t.2.samples) :
    t.2.words = (wordedStarts xs t.2.samples.length).map fun k => Bt656.trace cfg xs (k + 2) := by
  let Inv (r : Logged) : Prop := Counted counts.rxFrameCnts r ∧ (Extends xs r.2.samples →
    Numbered cfg counts.rxFrameCnts r xs ∧
      r.2.words = (wordedStarts xs r.2.samples.length).map fun k => Bt656.trace cfg xs (k + 2))
  have hkeep (r : Logged) (e : StatusTick) (u : Logged) (hi : Inv r) (hpe : Paced cfg r e)
      (hu : Logged.step cfg r e = some u) : Inv u := by
    refine ⟨hi.1.step hpe hu, fun hxu => ?_⟩
    obtain ⟨hnum, hwords⟩ := hi.2 (before hu hxu)
    exact ⟨hnum.step hp hi.1 hpe hu hxu, words_step hp hc hnum.rx hu hwords⟩
  have hend : Inv t :=
    exec_invariant hkeep
      ⟨counted_enabled mem counts, fun _ => ⟨numbered_enabled mem sizeStatus counts xs, rfl⟩⟩ hpaced h
  exact (hend.2 hx).2

/-- In every run in which the AXI clock has an edge between any two of PCLK and frame starts are eight PCLKs apart, for lines
that keep clear of the frame starts, and wherever in it the three reads fall: width, height and error flags are those of one frame start `r`, namely of the last one
with a size word, but for one that is less than two AXI clocks old, and the frame count is late by less than three. -/
theorem stats_of_pins (hp : cfg.pureBt656 = false) {es es' : List StatusTick} {atSize atCnts : Logged} {xs : Nat → VideoIn}
    (hpaced : StepsMeet (Logged.step cfg) (Paced cfg) (enabled mem sizeStatus counts, .start) (es ++ es'))
    (h : exec (Logged.step cfg) (enabled mem sizeStatus counts, .start) es = some atSize)
    (h' : exec (Logged.step cfg) atSize es' = some atCnts) (hx : Extends xs atSize.2.samples) (hq : QuietStarts xs)
    (regs : VideoCtrlRegs) (p : BitVec 6) (rx : RxStatus) (atLen : StatusPath) {r : Nat}
    (hr : (if atSize.2.aclksSinceWord < 2 then (wordedStarts xs atSize.2.samples.length).dropLast
      else wordedStarts xs atSize.2.samples.length).getLast? = some r) :
    (statsAt regs p rx atSize.1 atLen atCnts.1).width.toNat = shownWidth xs (r + 2) % 4096 ∧
      (statsAt regs p rx atSize.1 atLen atCnts.1).height.toNat = lineCount xs r % 4096 ∧
      (statsAt regs p rx atSize.1 atLen atCnts.1).errFlags =
        BitVec.ofBool (Bt656.trace cfg xs (r + 2)).heightErr ++ 0#15 ++
          (BitVec.ofBool (Bt656.trace cfg xs (r + 2)).widthErr ++ 0#15) ∧
      (statsAt regs p rx atSize.1 atLen atCnts.1).frameCnt + (if atCnts.2.aclksSinceStart < 3 then 1 else 0) =
        counts.rxFrameCnts + BitVec.ofNat 32 atCnts.2.starts := by
  obtain ⟨hfirst, -⟩ := stepsMeet_append.1 hpaced
  have hall : exec (Logged.step cfg) (enabled mem sizeStatus counts, .start) (es ++ es') = some atCnts := by
    rw [exec_append, h]
    exact h'
  have hrise : Rise xs r := by
    have hmem : r ∈ wordedStarts xs atSize.2.samples.length := by
      split_ifs at hr
      · exact List.dropLast_subset _ (List.mem_of_getLast? hr)
      · exact List.mem_of_getLast? hr
    exact (of_decide_eq_true (List.mem_filter.1 hmem).2).1
  have hhanded : Handed sizeStatus atSize :=
    exec_invariant (fun _ _ _ hi hp ht => hi.step hp ht) (handed_enabled mem counts) hfirst h
  have hcounted : Counted counts.rxFrameCnts atCnts :=
    exec_invariant (fun _ _ _ hi hp ht => hi.step hp ht) (counted_enabled mem counts) hpaced hall
  have hword : atSize.1.sizeFifo.dataOut = (Bt656.trace cfg xs (r + 2)).sizeFifoData :=
    dataOut_of_words hhanded (run_words mem sizeStatus counts hp (ClearStarts.of_quiet hq) hfirst h hx) hr
  obtain ⟨hwidth, hheight⟩ := size_of_word hp hq hrise
  refine ⟨?_, ?_, ?_, hcounted.count⟩
  · rw [← hwidth, ← hword]
    rfl
  · rw [← hheight, ← hword]
    rfl
  · rw [← sizeFifoData_err, ← hword]
    rfl

/-- Behind two frames of one line of three bytes, the first of which has a size word. -/
theorem stats_of_pins_twoFrames : ∃ atSize,
    exec (Logged.step ⟨false, true⟩) (enabled (fun _ => 0) 0 ⟨0, 0, 255⟩, .start) twoFramesTicks = some atSize ∧
      (statsAt .reset 0 ⟨0, 0, 0, 0, false, false, 0, false, false, 0⟩ atSize.1 atSize.1 atSize.1).width.toNat =
        shownWidth twoFramesVideo 13 % 4096 ∧
      (statsAt .reset 0 ⟨0, 0, 0, 0, false, false, 0, false, false, 0⟩ atSize.1 atSize.1 atSize.1).height.toNat =
        lineCount twoFramesVideo 11 % 4096 := by
  obtain ⟨t, ht, hsamples, hlate⟩ := @exists_exec _ _ (Logged.step ⟨false, true⟩)
    (fun t => t.2.samples = (List.range 20).map twoFramesVideo ∧ ¬ t.2.aclksSinceWord < 2) _
    (enabled (fun _ => 0) 0 ⟨0, 0, 255⟩, .start) twoFramesTicks (by decide)
  refine ⟨t, ht, ?_⟩
  have hx : Extends twoFramesVideo t.2.samples := by
    rw [hsamples]
    exact extends_range _ _
  have hlast : (if t.2.aclksSinceWord < 2 then (wordedStarts twoFramesVideo t.2.samples.length).dropLast
      else wordedStarts twoFramesVideo t.2.samples.length).getLast? = some 11 := by
    rw [if_neg hlate, hsamples]
    decide +kernel
  have hpaced : StepsMeet (Logged.step ⟨false, true⟩) (Paced ⟨false, true⟩) (enabled (fun _ => 0) 0 ⟨0, 0, 255⟩, .start)
      (twoFramesTicks ++ []) := by decide +kernel
  obtain ⟨hwidth, hheight, -, -⟩ := stats_of_pins (fun _ => 0) 0 ⟨0, 0, 255⟩ rfl hpaced ht rfl hx quietStarts_twoFrames
    .reset 0 ⟨0, 0, 0, 0, false, false, 0, false, false, 0⟩ t.1 hlast
  exact ⟨hwidth, hheight⟩

end Run

end RcCarControl.Driver
