import RcCarControl.Fpga.SizeErrors

/-!
# The reported size and length of a frame

What the receiver reports at a frame start when every line and every frame has one size.  `pixel_cnt` is cleared in the
clock of the first byte of a line and `frame_length` in the clock of a frame-start pulse, neither counts the clock in
which it is cleared, and both are latched as they are: the width and the length come out one short.  The number of
lines comes out right.
-/

namespace RcCarControl.Fpga

/-! ### The length on the AXI clock -/

/-- The frame counters of the AXI clock domain: `frame_length`, `rx_cfg.frame_length` and `rx_cfg.frame_cnts`. -/
structure FrameLength where
  frameLength : BitVec 32
  rxFrameLength : BitVec 32
  rxFrameCnts : BitVec 32

namespace FrameLength

def reset : FrameLength := { frameLength := 0, rxFrameLength := 0, rxFrameCnts := 0 }

/-- The registers at a rising AXI clock. -/
def clock (f : FrameLength) (rxEnable syncInNewFrame : Bool) : FrameLength :=
  if rxEnable then
    if syncInNewFrame then
      { rxFrameCnts := f.rxFrameCnts + 1, rxFrameLength := f.frameLength, frameLength := 0 }
    else { f with frameLength := f.frameLength + 1 }
  else f

/-- The registers before clock `t` while the receiver is enabled; `pulse` is `sync_in_new_frame`. -/
def trace (f : FrameLength) (pulse : Nat → Bool) : Nat → FrameLength
  | 0 => f
  | t + 1 => (trace f pulse t).clock true (pulse t)

variable {f : FrameLength} {pulse : Nat → Bool} {a b : Nat}

theorem trace_pulse {t : Nat} (h : pulse t = true) :
    (trace f pulse (t + 1)).frameLength = 0 ∧
    (trace f pulse (t + 1)).rxFrameLength = (trace f pulse t).frameLength := by
  simp [trace, clock, h]

theorem trace_no_pulse {t : Nat} (h : pulse t = false) :
    (trace f pulse (t + 1)).frameLength = (trace f pulse t).frameLength + 1 := by
  simp [trace, clock, h]

/-- The clocks since the one after a pulse. -/
theorem frameLength_since (ha : pulse a = true) {n : Nat} (hno : ∀ t, a < t → t ≤ a + n → pulse t = false) :
    (trace f pulse (a + n + 1)).frameLength = BitVec.ofNat 32 n := by
  induction n with
  | zero => exact (trace_pulse ha).1
  | succ n ih =>
    rw [trace_no_pulse (hno (a + (n + 1)) (by omega) le_rfl), BitVec.ofNat_add]
    exact congrArg (· + 1) (ih fun t h₁ h₂ => hno t h₁ (by omega))

/-- The clocks strictly between two pulses. -/
theorem rxFrameLength_between (ha : pulse a = true) (hb : pulse b = true) (hab : a < b)
    (hno : ∀ t, a < t → t < b → pulse t = false) :
    (trace f pulse (b + 1)).rxFrameLength = BitVec.ofNat 32 (b - a - 1) := by
  obtain ⟨n, rfl⟩ : ∃ n, b = a + n + 1 := ⟨b - a - 1, by omega⟩
  rw [(trace_pulse hb).2, frameLength_since ha fun t h₁ h₂ => hno t h₁ (by omega)]
  congr 1
  omega

end FrameLength

/-! ### Video of one size -/

/-- Every line that begins after enabling has `W` bytes and every complete frame `H` lines, and HREF is low at the
frame starts. -/
structure Sized (xs : Nat → VideoIn) (W H : Nat) : Prop where
  quiet : QuietStarts xs
  width : ∀ j, (xs j).href = false → (xs (j + 1)).href = true →
    (∀ i < W, (xs (j + 1 + i)).href = true) ∧ (xs (j + 1 + W)).href = false
  height : ∀ k, ∀ n ∈ frames xs k, n = H

variable {cfg : Bt656Cfg} {xs : Nat → VideoIn} {k r W H : Nat}

theorem frameStart_isSome_iff : (frameStart xs k).isSome ↔ lineCounts xs (k + 1) ≠ [] := by
  induction k with
  | zero =>
    rw [lineCounts_succ not_rise_zero]
    exact iff_of_false nofun (fun h => h rfl)
  | succ k ih =>
    by_cases hr : Rise xs (k + 1)
    · rw [frameStart_rise hr, lineCounts_rise hr]
      exact iff_of_true rfl (List.append_ne_nil_of_right_ne_nil _ (List.cons_ne_nil _ _))
    · rw [frameStart_succ hr, lineCounts_succ hr, ih]

/-- At a byte of a frame the receiver follows the lines. -/
theorem capturing_of_href (hq : QuietStarts xs) (h : (xs k).href = true) (hs : lineCounts xs (k + 1) ≠ []) :
    Capturing xs k := by
  rw [Capturing, (seen_of_href hq h).1]
  exact frameStart_isSome_iff.2 hs

/-- At a byte the last frame start is three clocks old. -/
theorem frameStart_before (hq : QuietStarts xs) (h : (xs k).href = true) {j : Nat} (hj : j ≤ k) (hk : k ≤ j + 3) :
    frameStart xs k = frameStart xs j := by
  obtain ⟨n, rfl⟩ := Nat.exists_eq_add_of_le hj
  have hback : ∀ i ≤ n, frameStart xs (j + i) = frameStart xs j := by
    intro i hi
    induction i with
    | zero => rfl
    | succ i ih =>
      have hno : ¬ Rise xs (j + i + 1) := no_rise_near hq h (by omega) (by omega)
      exact (frameStart_succ hno).trans (ih (by omega))
  exact hback n le_rfl

/-- The bytes of the current line are those since its first one. -/
theorem line_of_inLine (hq : QuietStarts xs) (h : InLine xs k) :
    ∃ j, k = j + 1 + lineLen xs k ∧ (xs j).href = false ∧ ∀ i < lineLen xs k, (xs (j + 1 + i)).href = true := by
  induction k with
  | zero => cases h
  | succ k ih =>
    obtain ⟨hc, hh⟩ := h
    rw [lineLen_of_inLine ⟨hc, hh⟩]
    by_cases hl : InLine xs k
    · obtain ⟨j, hk, hlow, hhigh⟩ := ih hl
      refine ⟨j, by omega, hlow, fun i hi => ?_⟩
      obtain hlt | rfl := Nat.lt_succ_iff_lt_or_eq.1 hi
      · exact hhigh i hlt
      · rwa [← hk]
    · obtain _ | m := k
      · cases hc
      -- the receiver followed the lines in the clock before already, so HREF was low there
      have hprev : Capturing xs m := by
        rw [Capturing, (seen_of_href hq hh).1] at hc
        obtain _ | _ | i := m
        · rw [frameStart_before hq hh (Nat.zero_le _) (by omega)] at hc
          cases hc
        · rw [frameStart_before hq hh (Nat.zero_le _) (by omega)] at hc
          cases hc
        · rwa [frameStart_before hq hh (show i ≤ i + 2 + 1 by omega) (by omega)] at hc
      refine ⟨m, by rw [lineLen_of_not_inLine hl], ?_, fun i hi => ?_⟩
      · exact Bool.eq_false_iff.2 fun hm => hl ⟨hprev, hm⟩
      · rw [lineLen_of_not_inLine hl] at hi
        obtain rfl : i = 0 := by omega
        exact hh

/-- A byte goes to the FIFO for every clock in a line. -/
theorem Bt656.length_written_succ (hp : cfg.pureBt656 = false) (hfull : ∀ k, (xs k).dataFifoFull = false) (k : Nat) :
    (written cfg xs (k + 1)).length = (written cfg xs k).length + if InLine xs k then 1 else 0 := by
  have hbyte : (trace cfg xs k).fifoByte (xs k) = if InLine xs k then some (trace cfg xs k).inData0 else none := by
    simp [fifoByte, dataFifoWrite, hfull, ← trace_vdata_iff xs hp]
  rw [written, List.range_succ, List.filterMap_append, List.length_append, written, List.filterMap_cons, List.filterMap_nil,
    hbyte]
  split_ifs <;> rfl

theorem measuredLines_ne_nil_of_end (h : LineEnd xs k) : measuredLines xs (k + 1) ≠ [] := by
  rw [measuredLines, if_pos h]
  exact List.append_ne_nil_of_right_ne_nil _ (List.cons_ne_nil _ _)

theorem measuredLines_ne_nil_succ (h : measuredLines xs k ≠ []) : measuredLines xs (k + 1) ≠ [] := by
  rw [measuredLines]
  split_ifs
  · exact List.append_ne_nil_of_left_ne_nil h _
  · exact h

/-- Once a line of a frame began it is measured or still going on. -/
theorem measured_or_inLine (hq : QuietStarts xs) (hs : lineCounts xs k ≠ []) :
    lineCount xs k = 0 ∨ measuredLines xs k ≠ [] ∨ InLine xs k := by
  induction k with
  | zero => exact absurd rfl hs
  | succ k ih =>
    by_cases hh : (xs k).href = true
    · exact Or.inr (Or.inr ⟨capturing_of_href hq hh hs, hh⟩)
    · have hb : ¬ LineBegin xs k := fun hb => hh hb.1
      by_cases hr : Rise xs k
      · exact Or.inl (lineCount_rise hr hb)
      · rw [lineCounts_succ hr] at hs
        rw [lineCount_succ hr, if_neg hb, Nat.add_zero]
        rcases ih hs with h0 | hm | hl
        · exact Or.inl h0
        · exact Or.inr (Or.inl (measuredLines_ne_nil_succ hm))
        · exact Or.inr (Or.inl (measuredLines_ne_nil_of_end ⟨hl, Bool.eq_false_iff.2 hh⟩))

namespace Sized

theorem lineLen_eq (hs : Sized xs W H) (hend : LineEnd xs k) : lineLen xs k = W := by
  obtain ⟨hl, hlow⟩ := hend
  obtain ⟨j, hk, hj, hhigh⟩ := line_of_inLine hs.quiet hl
  have hpos : 0 < lineLen xs k := lineLen_pos hl
  obtain ⟨hbytes, hover⟩ := hs.width j hj (hhigh 0 hpos)
  obtain hlt | heq | hgt := Nat.lt_trichotomy (lineLen xs k) W
  · -- the line would have gone on
    have := hbytes _ hlt
    rw [← hk, hlow] at this
    cases this
  · exact heq
  · have := hhigh W hgt
    rw [hover] at this
    cases this

theorem measured (hs : Sized xs W H) (k : Nat) : ∀ n ∈ measuredLines xs k, n = W := by
  induction k with
  | zero => nofun
  | succ k ih =>
    intro n hn
    rw [measuredLines] at hn
    split at hn
    · rename_i hend
      obtain h | h := List.mem_append.1 hn
      · exact ih n h
      · exact (List.mem_singleton.1 h).trans (hs.lineLen_eq hend)
    · exact ih n hn

/-- With a FIFO that is never full every line of a frame adds its `W` bytes to it. -/
theorem written_line (hp : cfg.pureBt656 = false) (hs : Sized xs W H) (hfull : ∀ k, (xs k).dataFifoFull = false) {j : Nat}
    (hlow : (xs j).href = false) (hhigh : (xs (j + 1)).href = true) (hseen : lineCounts xs (j + 2) ≠ []) :
    (Bt656.written cfg xs (j + 1 + W + 2)).length = (Bt656.written cfg xs (j + 1)).length + W := by
  obtain ⟨hbytes, hover⟩ := hs.width j hlow hhigh
  have hcapt : ∀ i, Capturing xs (j + 1 + i) := by
    intro i
    induction i with
    | zero => exact capturing_of_href hs.quiet hhigh hseen
    | succ i ih => exact ih.succ
  have hsum : ∀ i ≤ W, (Bt656.written cfg xs (j + 1 + i + 1)).length = (Bt656.written cfg xs (j + 1)).length + i := by
    intro i hi
    induction i with
    | zero =>
      have hno : ¬ InLine xs (j + 1) := fun h => by
        rw [h.2] at hlow
        cases hlow
      rw [Nat.add_zero, Bt656.length_written_succ hp hfull, if_neg hno]
    | succ i ih =>
      have hin : InLine xs (j + 1 + i + 1) := ⟨hcapt i, hbytes i hi⟩
      rw [← Nat.add_assoc (j + 1), Bt656.length_written_succ hp hfull, if_pos hin, ih (by omega)]
      rfl
  have hno : ¬ InLine xs (j + 1 + W + 1) := fun h => by
    rw [h.2] at hover
    cases hover
  rw [Bt656.length_written_succ hp hfull, if_neg hno, Nat.add_zero, hsum W le_rfl]

theorem lineCount_eq (hs : Sized xs W H) (hr : Rise xs r) (hsecond : lineCounts xs r ≠ []) : lineCount xs r = H := by
  apply hs.height (r + 1)
  rw [frames_rise hr (List.length_pos_iff.2 hsecond)]
  exact List.mem_append_right _ (List.mem_singleton_self _)

/-- A complete frame has measured a line. -/
theorem measured_ne_nil (hs : Sized xs W H) (hH : 1 ≤ H) (hr : Rise xs r) (hsecond : lineCounts xs r ≠ []) :
    measuredLines xs (r + 1) ≠ [] := by
  have hcount : lineCount xs r = H := hs.lineCount_eq hr hsecond
  rcases measured_or_inLine hs.quiet hsecond with h0 | hm | hl
  · omega
  · exact measuredLines_ne_nil_succ hm
  · exact measuredLines_ne_nil_of_end ⟨hl, (hs.quiet r hr).1⟩

/-- The registers that go into the size word at a frame start. -/
theorem sizes (hp : cfg.pureBt656 = false) (hs : Sized xs W H) (hH : 1 ≤ H) (hr : Rise xs r)
    (hsecond : lineCounts xs r ≠ []) :
    (Bt656.trace cfg xs (r + 2)).widthCnt = BitVec.ofNat 13 (W - 1) ∧
    (Bt656.trace cfg xs (r + 2)).heightCnt = BitVec.ofNat 13 H := by
  constructor
  · have hne : measuredLines xs (r + 2) ≠ [] := measuredLines_ne_nil_succ (hs.measured_ne_nil hH hr hsecond)
    have hlast : (measuredLines xs (r + 2)).getLast hne = W := hs.measured (r + 2) _ (List.getLast_mem hne)
    rw [Bt656.trace_widthCnt hp, latched, List.getLast?_map, List.getLast?_eq_some_getLast hne, hlast]
    rfl
  · rw [Bt656.trace_heightCnt hp (ClearStarts.of_quiet hs.quiet), lineCounts_rise hr, latched_concat,
      hs.lineCount_eq hr hsecond]

end Sized

/-! ### What is reported -/

/-- The size word of the receiver and `rx_cfg.frame_length` report a width, a height and a length. -/
structure Reported (s : Bt656) (f : FrameLength) (width height length : Nat) : Prop where
  width : s.widthCnt.toNat = width
  height : s.heightCnt.toNat = height
  length : f.rxFrameLength = BitVec.ofNat 32 length

/-- From the second frame start on the height is right, and the width and the length are each one short. -/
theorem reported_one_short (hp : cfg.pureBt656 = false) (hs : Sized xs W H) (hW : 1 ≤ W) (hW' : W < 8191)
    (hH : 1 ≤ H) (hH' : H < 8191) (hr : Rise xs r) (hsecond : lineCounts xs r ≠ [])
    (f : FrameLength) {pulse : Nat → Bool} {a b : Nat} (ha : pulse a = true) (hb : pulse b = true) (hab : a < b)
    (hno : ∀ t, a < t → t < b → pulse t = false) :
    Reported (Bt656.trace cfg xs (r + 2)) (f.trace pulse (b + 1)) (W - 1) H (b - a - 1) ∧
    (∀ n, ¬ Reported (Bt656.trace cfg xs (r + 2)) (f.trace pulse (b + 1)) W H n) ∧
    ∀ w h, ¬ Reported (Bt656.trace cfg xs (r + 2)) (f.trace pulse (b + 1)) w h (b - a) := by
  obtain ⟨hwidth, hheight⟩ := hs.sizes hp hH hr hsecond
  have hw : (Bt656.trace cfg xs (r + 2)).widthCnt.toNat = W - 1 := by
    rw [hwidth, BitVec.toNat_ofNat]
    omega
  have hh : (Bt656.trace cfg xs (r + 2)).heightCnt.toNat = H := by
    rw [hheight, BitVec.toNat_ofNat]
    omega
  have hlen : (f.trace pulse (b + 1)).rxFrameLength = BitVec.ofNat 32 (b - a - 1) :=
    FrameLength.rxFrameLength_between ha hb hab hno
  refine ⟨⟨hw, hh, hlen⟩, fun n h => ?_, fun w h hrep => ?_⟩
  · have := h.width
    omega
  · have heq := hrep.length
    rw [hlen, ← BitVec.toNat_inj, BitVec.toNat_ofNat, BitVec.toNat_ofNat] at heq
    omega

/-! ### A steady video -/

open Bt656 (steadyVideo)

theorem steadyVideo_rise_iff (k : Nat) : Rise steadyVideo k ↔ k % 8 = 1 := by
  simp only [Rise, steadyVideo, beq_eq_false_iff_ne, beq_iff_eq]
  omega

theorem steadyVideo_lineBegin_iff (k : Nat) : LineBegin steadyVideo k ↔ k % 8 = 5 := by
  simp only [LineBegin, steadyVideo, Bool.or_eq_true, Bool.or_eq_false_iff, beq_eq_false_iff_ne, beq_iff_eq]
  omega

theorem steadyVideo_lineCount (k : Nat) :
    lineCount steadyVideo (k + 2) = if (k + 2) % 8 < 2 ∨ 5 < (k + 2) % 8 then 1 else 0 := by
  induction k with
  | zero => decide
  | succ k ih =>
    by_cases hr : Rise steadyVideo (k + 2)
    · have hmod : (k + 2) % 8 = 1 := (steadyVideo_rise_iff _).1 hr
      have hb : ¬ LineBegin steadyVideo (k + 2) := by
        rw [steadyVideo_lineBegin_iff]
        omega
      rw [lineCount_rise hr hb, if_neg (by omega)]
    · have hmod : (k + 2) % 8 ≠ 1 := fun h => hr ((steadyVideo_rise_iff _).2 h)
      rw [lineCount_succ hr, ih, if_congr (steadyVideo_lineBegin_iff _) rfl rfl]
      split_ifs <;> omega

/-- Every number of a complete frame was found at a frame start after another. -/
theorem exists_of_mem_frames {n : Nat} (h : n ∈ frames xs k) :
    ∃ j, Rise xs j ∧ lineCounts xs j ≠ [] ∧ lineCount xs j = n := by
  induction k with
  | zero => cases h
  | succ k ih =>
    by_cases hr : Rise xs k
    · by_cases hnil : lineCounts xs k = []
      · rw [frames, lineCounts_rise hr, hnil] at h
        cases h
      · rw [frames_rise hr (List.length_pos_iff.2 hnil)] at h
        obtain h | h := List.mem_append.1 h
        · exact ih h
        · exact ⟨k, hr, hnil, (List.mem_singleton.1 h).symm⟩
    · rw [frames, lineCounts_succ hr] at h
      exact ih h

theorem steadyVideo_sized : Sized steadyVideo 2 1 where
  quiet := by
    intro r hr
    have hmod : r % 8 = 1 := (steadyVideo_rise_iff r).1 hr
    simp only [steadyVideo, Bool.or_eq_false_iff, beq_eq_false_iff_ne]
    omega
  width := by
    intro j hlow hhigh
    simp only [steadyVideo, Bool.or_eq_true, Bool.or_eq_false_iff, beq_eq_false_iff_ne, beq_iff_eq] at hlow hhigh ⊢
    refine ⟨fun i hi => ?_, ?_⟩ <;> omega
  height := by
    intro k n hn
    obtain ⟨j, hr, hne, rfl⟩ := exists_of_mem_frames hn
    have hmod : j % 8 = 1 := (steadyVideo_rise_iff j).1 hr
    obtain _ | _ | j := j
    · cases hmod
    · exact absurd (by decide) hne
    · rw [steadyVideo_lineCount, if_pos (by omega)]

/-- Frame-start pulses on an AXI clock twice as fast as the pixel clock. -/
def steadyPulse (t : Nat) : Bool := t % 16 == 8

/-- The second frame of two-byte lines is reported one byte wide, and fifteen clocks long instead of sixteen. -/
theorem steadyVideo_reported :
    Reported (Bt656.trace ⟨false, false⟩ steadyVideo 11) (FrameLength.reset.trace steadyPulse 25) 1 1 15 ∧
    ¬ Reported (Bt656.trace ⟨false, false⟩ steadyVideo 11) (FrameLength.reset.trace steadyPulse 25) 2 1 16 := by
  have hno : ∀ t, 8 < t → t < 24 → steadyPulse t = false := by
    intro t h₁ h₂
    rw [steadyPulse, beq_eq_false_iff_ne]
    omega
  have hp : (⟨false, false⟩ : Bt656Cfg).pureBt656 = false := rfl
  have hr : Rise steadyVideo 9 := by decide
  have ha : steadyPulse 8 = true := by decide
  have hb : steadyPulse 24 = true := by decide
  have hshort := reported_one_short hp steadyVideo_sized (by decide) (by decide) (by decide) (by decide) hr (by decide)
    FrameLength.reset ha hb (by decide) hno
  exact ⟨hshort.1, hshort.2.1 16⟩

/-- The size word is written there, but not with the width on the pins. -/
theorem steadyVideo_misreported :
    Sized steadyVideo 2 1 ∧ (Bt656.trace ⟨false, false⟩ steadyVideo 11).fifoWrite = true ∧
    ¬ Reported (Bt656.trace ⟨false, false⟩ steadyVideo 11) (FrameLength.reset.trace steadyPulse 25) 2 1 16 := by
  refine ⟨steadyVideo_sized, by decide, fun h => ?_⟩
  have hwidth : (Bt656.trace ⟨false, false⟩ steadyVideo 11).widthCnt.toNat = 1 := by decide
  rw [h.width] at hwidth
  cases hwidth

end RcCarControl.Fpga
