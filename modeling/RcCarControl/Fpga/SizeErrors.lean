import RcCarControl.Fpga.SizeCounters

/-!
# The size error flags of the video receiver

`width_err` and `height_err` tell that two lines, or two frames, in a row had different sizes.  A counter that holds all
ones has measured nothing yet and is not to be compared; the check of the width asks this of `width_cnt`, but the check
of the height asks it of `line_cnt`, so it compares the first frame starts with the start value and with a partial
frame.
-/

namespace RcCarControl.Fpga

variable {cfg : Bt656Cfg} {xs : Nat → VideoIn} {k : Nat}

/-- The flags come on only after two lines of different lengths, and after two complete frames of different numbers of
lines. -/
def NoFalseAlarm (cfg : Bt656Cfg) (xs : Nat → VideoIn) : Prop :=
  ∀ k, ((Bt656.trace cfg xs k).widthErr = true → ¬ (measuredLines xs k).IsChain (· = ·)) ∧
    ((Bt656.trace cfg xs k).heightErr = true → ¬ (frames xs k).IsChain (· = ·))

/-- A number that follows a different one. -/
theorem not_isChain_concat {l : List Nat} {a b : Nat} (h : l.getLast? = some a) (hab : a ≠ b) :
    ¬ (l ++ [b]).IsChain (· = ·) := by
  intro hc
  obtain ⟨-, -, hlast⟩ := List.isChain_append.1 hc
  exact hab (hlast a h b rfl)

theorem not_isChain_append {l : List Nat} (m : List Nat) (h : ¬ l.IsChain (· = ·)) :
    ¬ (l ++ m).IsChain (· = ·) := fun hc => h hc.left_of_append

theorem ne_nil_of_latched {l : List Nat} (h : latched l ≠ BitVec.allOnes 13) : l ≠ [] := by
  rintro rfl
  exact h rfl

/-- Where the number latched last differs from the next one as a register, they differ. -/
theorem exists_of_latched_ne {l : List Nat} {n : Nat} (hl : l ≠ []) (hn : latched l ≠ BitVec.ofNat 13 n) :
    ∃ a, l.getLast? = some a ∧ a ≠ n := by
  refine ⟨l.getLast hl, List.getLast?_eq_some_getLast hl, ?_⟩
  rintro rfl
  rw [latched, List.getLast?_eq_some_getLast hl] at hn
  exact hn rfl

/-! ### The frames so far -/

theorem lineCounts_rise (hr : Rise xs k) : lineCounts xs (k + 1) = lineCounts xs k ++ [lineCount xs k] := by
  rw [lineCounts, if_pos hr]

theorem lineCounts_succ (hr : ¬ Rise xs k) : lineCounts xs (k + 1) = lineCounts xs k := by
  rw [lineCounts, if_neg hr]

variable (xs k) in
theorem frames_succ : ∃ m, frames xs (k + 1) = frames xs k ++ m := by
  by_cases hr : Rise xs k
  · exact ⟨[lineCount xs k].drop (1 - (lineCounts xs k).length), by
      rw [frames, lineCounts_rise hr, List.drop_append, frames]⟩
  · exact ⟨[], by rw [frames, lineCounts_succ hr, List.append_nil, frames]⟩

theorem frames_rise (hr : Rise xs k) (h : 1 ≤ (lineCounts xs k).length) :
    frames xs (k + 1) = frames xs k ++ [lineCount xs k] := by
  rw [frames, lineCounts_rise hr, List.drop_append_of_le_length h, frames]

/-- From the second frame start on the last one ended a complete frame. -/
theorem getLast?_frames (h : 2 ≤ (lineCounts xs k).length) : (frames xs k).getLast? = (lineCounts xs k).getLast? := by
  rw [frames, List.getLast?_drop, if_neg (by omega)]

/-- A single number is that of the first frame start. -/
theorem exists_first {n : Nat} (h : lineCounts xs k = [n]) :
    ∃ j, Rise xs j ∧ lineCounts xs j = [] ∧ lineCount xs j = n := by
  induction k with
  | zero => cases h
  | succ k ih =>
    by_cases hr : Rise xs k
    · rw [lineCounts_rise hr] at h
      obtain ⟨hnil, hn⟩ := List.append_eq_singleton_iff.1 h |>.resolve_right (by simp)
      exact ⟨k, hr, hnil, List.singleton_inj.1 hn⟩
    · exact ih ((lineCounts_succ hr).symm.trans h)

/-! ### The flags -/

namespace Bt656

variable (cfg xs k) in
theorem clock_widthErr : (trace cfg xs (k + 1)).widthErr =
    if ((trace cfg xs k).fsm cfg (xs k)).latchPixelCnt && (trace cfg xs k).widthCnt != (trace cfg xs k).pixelCnt &&
      (trace cfg xs k).widthCnt != BitVec.allOnes 13 then true
    else if (xs k).syncRstSizeErr then false else (trace cfg xs k).widthErr := rfl

/-- `width_err` is never a false alarm. -/
theorem lines_of_widthErr (hp : cfg.pureBt656 = false) (h : (trace cfg xs k).widthErr = true) :
    ¬ (measuredLines xs k).IsChain (· = ·) := by
  induction k with
  | zero => cases h
  | succ k ih =>
    rw [clock_widthErr, latchPixelCnt_eq hp, trace_widthCnt hp] at h
    rw [measuredLines]
    by_cases hend : LineEnd xs k
    · rw [trace_pixelCnt hp hend.1] at h
      rw [if_pos hend]
      split at h
      · rename_i hset
        simp only [Bool.and_eq_true, bne_iff_ne] at hset
        obtain ⟨a, ha, hne⟩ := exists_of_latched_ne (ne_nil_of_latched hset.2) hset.1.2
        rw [List.getLast?_map] at ha
        obtain ⟨b, hb, rfl⟩ := Option.map_eq_some_iff.1 ha
        exact not_isChain_concat hb fun hab => hne (congrArg (· - 1) hab)
      · split at h
        · cases h
        · exact not_isChain_append _ (ih h)
    · rw [if_neg hend]
      simp only [decide_eq_false hend, Bool.false_and, Bool.false_eq_true, if_false] at h
      split at h
      · cases h
      · exact ih h

/-- `height_err` comes on at a frame start that finds another number than the one before, whatever that is. -/
theorem clock_heightErr (hp : cfg.pureBt656 = false) (hc : ClearStarts xs) (k : Nat) :
    (trace cfg xs (k + 2)).heightErr =
      if Rise xs k ∧ latched (lineCounts xs k) ≠ BitVec.ofNat 13 (lineCount xs k) ∧ lineCount xs k % 8192 ≠ 8191 then
        true
      else if (xs (k + 1)).syncRstSizeErr then false else (trace cfg xs (k + 1)).heightErr := by
  have hrec : (trace cfg xs (k + 2)).heightErr =
      if (trace cfg xs (k + 1)).inNewFrame cfg && (trace cfg xs (k + 1)).heightCnt != (trace cfg xs (k + 1)).lineCnt &&
        (trace cfg xs (k + 1)).lineCnt != BitVec.allOnes 13 then true
      else if (xs (k + 1)).syncRstSizeErr then false else (trace cfg xs (k + 1)).heightErr := rfl
  rw [hrec, trace_inNewFrame xs hp, trace_heightCnt hp hc, trace_lineCnt hp hc]
  by_cases hr : Rise xs k
  · simp only [hr, if_true, decide_true, Bool.true_and, Bool.and_eq_true, bne_iff_ne, true_and, ne_eq,
      ofNat_eq_allOnes_iff]
  · simp only [hr, decide_false, Bool.false_and, Bool.false_eq_true, false_and]

/-- With a matching number at the first two frame starts `height_err` is no false alarm. -/
theorem frames_of_heightErr (hp : cfg.pureBt656 = false) (hc : ClearStarts xs)
    (hfirst : ∀ k, Rise xs k → (lineCounts xs k).length < 2 → lineCount xs k % 8192 = 8191)
    (h : (trace cfg xs (k + 1)).heightErr = true) : ¬ (frames xs k).IsChain (· = ·) := by
  induction k with
  | zero =>
    have hlow : (trace cfg xs 1).heightErr = false := by simp [trace, clock, reset, inNewFrame]
    rw [hlow] at h
    cases h
  | succ k ih =>
    rw [clock_heightErr hp hc] at h
    split at h
    · rename_i hset
      obtain ⟨hr, hne, hfull⟩ := hset
      have hlen : 2 ≤ (lineCounts xs k).length := by
        by_contra hlt
        exact hfull (hfirst k hr (by omega))
      rw [frames_rise hr (by omega)]
      obtain ⟨a, ha, hdiff⟩ := exists_of_latched_ne (List.length_pos_iff.1 (by omega)) hne
      exact not_isChain_concat ((getLast?_frames hlen).trans ha) hdiff
    · split at h
      · cases h
      · obtain ⟨m, hm⟩ := frames_succ xs k
        rw [hm]
        exact not_isChain_append m (ih h)

/-- A frame start sets `height_err` before two frames are complete, unless the number there is all ones. -/
theorem lineCount_of_noFalseAlarm (hp : cfg.pureBt656 = false) (hc : ClearStarts xs) (h : NoFalseAlarm cfg xs)
    (hr : Rise xs k) (hlen : (lineCounts xs k).length < 2) (hl : latched (lineCounts xs k) = BitVec.allOnes 13) :
    lineCount xs k % 8192 = 8191 := by
  by_contra hfull
  have hne : latched (lineCounts xs k) ≠ BitVec.ofNat 13 (lineCount xs k) := by
    rw [hl]
    exact fun heq => hfull ((ofNat_eq_allOnes_iff _).1 heq.symm)
  have herr : (trace cfg xs (k + 2)).heightErr = true := by
    rw [clock_heightErr hp hc, if_pos ⟨hr, hne, hfull⟩]
  apply (h (k + 2)).2 herr
  -- at most one complete frame
  have hshort : (frames xs (k + 2)).length ≤ 1 := by
    rw [frames, lineCounts_succ (not_rise_succ hr), lineCounts_rise hr, List.length_drop, List.length_append,
      List.length_singleton]
    omega
  match frames xs (k + 2), hshort with
  | [], _ => exact .nil
  | [n], _ => exact .singleton n

/-- The flags are right in every clock exactly when each of the first two frame starts finds a number of lines that is
all ones in 13 bits: the start value of `height_cnt` is compared with the first, the partial frame with the second. -/
theorem noFalseAlarm_iff (hp : cfg.pureBt656 = false) (hc : ClearStarts xs) :
    NoFalseAlarm cfg xs ↔ ∀ k, Rise xs k → (lineCounts xs k).length < 2 → lineCount xs k % 8192 = 8191 := by
  refine ⟨fun h k hr hlen => ?_, fun h k => ⟨lines_of_widthErr hp, fun herr => ?_⟩⟩
  · apply lineCount_of_noFalseAlarm hp hc h hr hlen
    match hl : lineCounts xs k, hlen with
    | [], _ => rfl
    | [n], _ =>
      obtain ⟨j, hj, hnil, rfl⟩ := exists_first hl
      have hfull : lineCount xs j % 8192 = 8191 :=
        lineCount_of_noFalseAlarm hp hc h hj (by rw [hnil]; decide) (by rw [hnil]; rfl)
      exact (latched_concat [] _).trans ((ofNat_eq_allOnes_iff _).2 hfull)
  · obtain _ | k := k
    · cases herr
    · obtain ⟨m, hm⟩ := frames_succ xs k
      rw [hm]
      exact not_isChain_append m (frames_of_heightErr hp hc h herr)

/-- A partial frame of 8191 lines of one byte, with a gap of a clock after each, and then a frame start. -/
def fullCountVideo (k : Nat) : VideoIn where
  vsync := k == 16383
  href := k % 2 == 1 && k < 16383
  data := 0
  frameCnts := 0
  syncRstSizeErr := false
  dataFifoFull := false

theorem fullCountVideo_rise {r : Nat} (h : Rise fullCountVideo r) : r = 16383 := by
  simpa [fullCountVideo] using h.2.2

theorem fullCountVideo_clearStarts : ClearStarts fullCountVideo := by
  intro r hr
  rw [fullCountVideo_rise hr]
  decide

theorem fullCountVideo_lineCount (hk : k ≤ 16383) : lineCount fullCountVideo k = k / 2 := by
  induction k with
  | zero => rfl
  | succ k ih =>
    have hr : ¬ Rise fullCountVideo k := fun hr => by
      have := fullCountVideo_rise hr
      omega
    have hb : LineBegin fullCountVideo k ↔ k % 2 = 1 := by
      simp only [LineBegin, fullCountVideo, Bool.and_eq_true, beq_iff_eq, decide_eq_true_eq, Bool.and_eq_false_iff,
        beq_eq_false_iff_ne, decide_eq_false_iff_not]
      omega
    rw [lineCount_succ hr, ih (by omega), if_congr hb rfl rfl]
    split_ifs <;> omega

/-- It raises no flag. -/
theorem noFalseAlarm_fullCountVideo : NoFalseAlarm ⟨false, false⟩ fullCountVideo :=
  (noFalseAlarm_iff rfl fullCountVideo_clearStarts).2 fun k hr _ => by
    rw [fullCountVideo_rise hr, fullCountVideo_lineCount le_rfl]

/-- Frames of eight clocks with one line of two bytes, without end. -/
def steadyVideo (k : Nat) : VideoIn where
  vsync := k % 8 == 1
  href := k % 8 == 5 || k % 8 == 6
  data := 0
  frameCnts := 0
  syncRstSizeErr := false
  dataFifoFull := false

/-- Frames of one size raise `height_err`, at the first frame start. -/
theorem steadyVideo_heightErr : ¬ NoFalseAlarm ⟨false, false⟩ steadyVideo := by
  intro h
  apply (h 3).2 (by decide)
  exact .nil

end Bt656

end RcCarControl.Fpga
