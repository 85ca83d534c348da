import RcCarControl.Fpga.Bt656

/-!
# The bytes of the video with separate sync signals

`pure_bt656` is 0: HREF and VSYNC say where lines and frames are.  `expectedByte` gives for each clock the byte of the
video that is sampled in it, from the trace of the pins alone.  The edge of VSYNC is seen one clock late and the state
follows one clock after that, so before clock `k` the receiver knows the frame start that `seen` gives.
-/

namespace RcCarControl.Fpga

/-- Every line, a maximal run of clocks with HREF at 1, lasts at least two clocks. -/
def LongLines (xs : Nat → VideoIn) : Prop :=
  ∀ k, (xs k).href = true → (0 < k ∧ (xs (k - 1)).href = true) ∨ (xs (k + 1)).href = true

/-- VSYNC rises in clock `r`, after a clock in which it is 0. -/
def Rise (xs : Nat → VideoIn) (r : Nat) : Prop := 0 < r ∧ (xs (r - 1)).vsync = false ∧ (xs r).vsync = true

instance (xs : Nat → VideoIn) (r : Nat) : Decidable (Rise xs r) := inferInstanceAs (Decidable (_ ∧ _ ∧ _))

/-- HREF is 0 in the clock in which VSYNC rises and in the two after it. -/
def QuietStarts (xs : Nat → VideoIn) : Prop :=
  ∀ r, Rise xs r → (xs r).href = false ∧ (xs (r + 1)).href = false ∧ (xs (r + 2)).href = false

/-- The last rising edge of VSYNC up to clock `k`. -/
def frameStart (xs : Nat → VideoIn) : Nat → Option Nat
  | 0 => none
  | k + 1 => if Rise xs (k + 1) then some (k + 1) else frameStart xs k

/-- The number of bytes before clock `k` in the frame of clock `k`. -/
def byteNo (xs : Nat → VideoIn) : Nat → Nat
  | 0 => 0
  | k + 1 => if Rise xs (k + 1) then 0 else if (xs k).href then byteNo xs k + 1 else byteNo xs k

/-- The byte of the video in clock `k`, if it is in a line of a frame: DATA, or with `emb_frame_cnt` in the first two
bytes of a frame the frame counter of the clock after the edge, high byte first. -/
def expectedByte (cfg : Bt656Cfg) (xs : Nat → VideoIn) (k : Nat) : Option (BitVec 8) :=
  match frameStart xs k with
  | none => none
  | some r =>
    if (xs k).href then
      if cfg.embFrameCnt && byteNo xs k == 0 then some ((xs (r + 1)).frameCnts.extractLsb' 8 8)
      else if cfg.embFrameCnt && byteNo xs k == 1 then some ((xs (r + 1)).frameCnts.extractLsb' 0 8)
      else some (xs k).data
    else none

/-- The frame start that the state machine knows before clock `k`. -/
def seen (xs : Nat → VideoIn) : Nat → Option Nat
  | k + 2 => frameStart xs k
  | _ => none

variable {cfg : Bt656Cfg} {xs : Nat → VideoIn} {k r : Nat}

/-! ### Frame starts and the bytes after them -/

theorem frameStart_rise (h : Rise xs r) : frameStart xs r = some r := by
  obtain _ | r := r
  · exact absurd h.1 (lt_irrefl 0)
  · rw [frameStart, if_pos h]

theorem frameStart_succ (h : ¬ Rise xs (k + 1)) : frameStart xs (k + 1) = frameStart xs k := by
  rw [frameStart, if_neg h]

theorem frameStart_isSome_mono (h : (frameStart xs k).isSome) : (frameStart xs (k + 1)).isSome := by
  by_cases hr : Rise xs (k + 1)
  · rw [frameStart_rise hr]
    rfl
  · rwa [frameStart_succ hr]

theorem frameStart_le (h : frameStart xs k = some r) : r ≤ k := by
  induction k with
  | zero => cases h
  | succ k ih =>
    by_cases hr : Rise xs (k + 1)
    · rw [frameStart_rise hr] at h
      cases h
      exact le_rfl
    · rw [frameStart_succ hr] at h
      exact (ih h).trans (Nat.le_succ k)

theorem not_rise_zero : ¬ Rise xs 0 := fun h => lt_irrefl 0 h.1

/-- A byte is neither in the clock of a frame start nor in the two clocks after it. -/
theorem no_rise_near (hq : QuietStarts xs) (h : (xs k).href = true) {j : Nat} (hj : j ≤ k) (hk : k ≤ j + 2) :
    ¬ Rise xs j := by
  intro hr
  obtain ⟨h₀, h₁, h₂⟩ := hq j hr
  obtain rfl | rfl | rfl : k = j ∨ k = j + 1 ∨ k = j + 2 := by omega
  · rw [h] at h₀
    cases h₀
  · rw [h] at h₁
    cases h₁
  · rw [h] at h₂
    cases h₂

/-- At a byte the frame start is known, and it has been for a clock. -/
theorem seen_of_href (hq : QuietStarts xs) (h : (xs k).href = true) :
    seen xs k = frameStart xs k ∧ seen xs (k + 1) = frameStart xs k := by
  match k, h with
  | 0, _ => exact ⟨rfl, rfl⟩
  | 1, h =>
    have h₁ : frameStart xs 1 = frameStart xs 0 := frameStart_succ (no_rise_near hq h le_rfl (by omega))
    exact ⟨h₁.symm, h₁.symm⟩
  | k + 2, h =>
    have h₂ : frameStart xs (k + 2) = frameStart xs (k + 1) := frameStart_succ (no_rise_near hq h le_rfl (by omega))
    have h₁ : frameStart xs (k + 1) = frameStart xs k :=
      frameStart_succ (no_rise_near hq h (by omega) (by omega))
    exact ⟨(h₂.trans h₁).symm, h₂.symm⟩

/-- A frame start that is known and still the last one. -/
theorem frameStart_pred (h : frameStart xs (k + 1) = some r) (hr : r ≤ k) :
    ¬ Rise xs (k + 1) ∧ frameStart xs k = some r := by
  have hno : ¬ Rise xs (k + 1) := by
    intro hrise
    rw [frameStart_rise hrise] at h
    cases h
    omega
  exact ⟨hno, (frameStart_succ hno).symm.trans h⟩

theorem byteNo_rise (h : Rise xs r) : byteNo xs r = 0 := by
  obtain _ | r := r
  · rfl
  · rw [byteNo, if_pos h]

theorem byteNo_succ (h : ¬ Rise xs (k + 1)) :
    byteNo xs (k + 1) = if (xs k).href then byteNo xs k + 1 else byteNo xs k := by
  rw [byteNo, if_neg h]

/-- The second byte of a frame follows the first without a pause. -/
theorem href_of_byteNo_eq_one (hl : LongLines xs) (hq : QuietStarts xs) (h : byteNo xs (k + 1) = 1) :
    (xs k).href = true := by
  induction k with
  | zero =>
    rw [byteNo] at h
    split at h
    · cases h
    · split at h
      · assumption
      · cases h
  | succ k ih =>
    rw [byteNo] at h
    split at h
    · cases h
    · by_contra hk
      rw [if_neg hk] at h
      have hk' : (xs k).href = true := ih h
      -- the line of clock `k` ends with it, so the byte before it is in the frame too
      obtain ⟨hpos, hprev⟩ | hnext := hl k hk'
      · obtain ⟨k, rfl⟩ : ∃ j, k = j + 1 := ⟨k - 1, by omega⟩
        have hprev : (xs k).href = true := hprev
        have h₁ : ¬ Rise xs (k + 1) := no_rise_near hq hk' le_rfl (by omega)
        have h₂ : ¬ Rise xs (k + 2) := fun hr => by
          rw [byteNo, if_pos hr] at h
          cases h
        rw [byteNo, if_neg h₂, if_pos hk', byteNo, if_neg h₁, if_pos hprev] at h
        omega
      · exact hk hnext

/-! ### The registers before a clock -/

namespace Bt656

variable (cfg xs) in
theorem trace_succ (k : Nat) : trace cfg xs (k + 1) = (trace cfg xs k).clock cfg (xs k) := rfl

variable (xs) in
theorem trace_inVsyncField (hp : cfg.pureBt656 = false) (k : Nat) :
    (trace cfg xs (k + 1)).inVsyncField = (xs k).vsync := by
  simp [trace, clock, hp]

theorem trace_inVsyncValid (hp : cfg.pureBt656 = false) {j : Nat} (hj : j < k) (h : (xs j).vsync = false) :
    (trace cfg xs k).inVsyncValid = true := by
  induction k with
  | zero => omega
  | succ k ih =>
    obtain rfl | hlt := Nat.lt_succ_iff_lt_or_eq.1 hj |>.symm
    · simp [trace, clock, hp, h]
    · simp [trace, clock, ih hlt]

variable (xs) in
/-- A new frame is seen in the clock after its start. -/
theorem trace_inNewFrame (hp : cfg.pureBt656 = false) (k : Nat) :
    (trace cfg xs (k + 1)).inNewFrame cfg = decide (Rise xs k) := by
  obtain _ | k := k
  · simp [trace, clock, reset, inNewFrame, hp, not_rise_zero]
  · have hfield := trace_inVsyncField xs hp (k + 1)
    have hfieldD : (trace cfg xs (k + 2)).inVsyncFieldD = (xs k).vsync := trace_inVsyncField xs hp k
    cases hv : (xs k).vsync with
    | true => simp [inNewFrame, hp, hfieldD, hv, Rise]
    | false =>
      have hvalid := trace_inVsyncValid hp (show k < k + 2 by omega) hv
      simp [inNewFrame, hp, hfieldD, hfield, hvalid, hv, Rise]

/-- The state before a clock: idle until a frame start is known, and then in a line or between two lines. -/
def stateBefore (xs : Nat → VideoIn) (k : Nat) : Bt656State :=
  if (seen xs k).isNone then .idle else if (xs (k - 1)).href then .vdata else .blanking

theorem trace_state (hp : cfg.pureBt656 = false) (hq : QuietStarts xs) (k : Nat) :
    (trace cfg xs k).state = stateBefore xs k := by
  induction k with
  | zero => rfl
  | succ k ih =>
    show ((trace cfg xs k).fsm cfg (xs k)).nstate = _
    cases hs : seen xs k with
    | none =>
      have hidle : (trace cfg xs k).state = .idle := by rw [ih, stateBefore, hs]; rfl
      obtain _ | k := k
      · rfl
      by_cases hr : Rise xs k
      · have hseen : seen xs (k + 2) = some k := frameStart_rise hr
        simp [fsm, hidle, trace_inNewFrame xs hp, hr, hp, stateBefore, hseen, (hq k hr).2.1]
      · have hseen : seen xs (k + 2) = none := by
          obtain _ | k := k
          · rfl
          · exact (frameStart_succ hr).trans hs
        simp [fsm, hidle, trace_inNewFrame xs hp, hr, stateBefore, hseen]
    | some r =>
      have hseen : (seen xs (k + 1)).isNone = false := by
        obtain _ | _ | k := k
        · cases hs
        · cases hs
        · rw [Option.isNone_eq_false_iff]
          exact frameStart_isSome_mono (by rw [← seen, hs]; rfl)
      have hbusy : (trace cfg xs k).state = if (xs (k - 1)).href then .vdata else .blanking := by
        rw [ih, stateBefore, hs]
        rfl
      have hnow : stateBefore xs (k + 1) = if (xs k).href then .vdata else .blanking := by
        rw [stateBefore, hseen]
        rfl
      rw [hnow, fsm, hbusy]
      cases (xs (k - 1)).href <;> cases (xs k).href <;> simp [hp]

/-- In a line of a known frame the state goes to the line or stays in it. -/
theorem nstate_of_href (hp : cfg.pureBt656 = false) (hq : QuietStarts xs) (hs : seen xs k = some r)
    (h : (xs k).href = true) : ((trace cfg xs k).fsm cfg (xs k)).nstate = .vdata := by
  have hstate := trace_state hp hq (k + 1)
  rw [stateBefore, (seen_of_href hq h).2, ← (seen_of_href hq h).1, hs, Nat.add_sub_cancel, h] at hstate
  exact hstate

/-- No byte of the frame counter goes out outside of a line. -/
theorem embFrameLsb_of_not_href (hp : cfg.pureBt656 = false) (h : (xs k).href = false) (s : Bt656) :
    s.embFrameLsb cfg (xs k) = false := by
  cases hs : s.state <;> simp [embFrameLsb, fsm, hp, hs, h]

/-- In a line the low byte goes out in the clocks after the first. -/
theorem embFrameLsb_of_href (hp : cfg.pureBt656 = false) (hq : QuietStarts xs) (hs : seen xs k = some r)
    (h : (xs k).href = true) :
    (trace cfg xs k).embFrameLsb cfg (xs k) = ((trace cfg xs k).embFrameWaiting && (xs (k - 1)).href) := by
  have hstate : (trace cfg xs k).state = stateBefore xs k := trace_state hp hq k
  rw [stateBefore, hs] at hstate
  rw [embFrameLsb, nstate_of_href hp hq hs h, hstate]
  cases (xs (k - 1)).href <;> simp

/-- In a line the high byte goes out in the first clock. -/
theorem embFrameMsb_of_href (hp : cfg.pureBt656 = false) (hq : QuietStarts xs) (hs : seen xs k = some r)
    (h : (xs k).href = true) :
    (trace cfg xs k).embFrameMsb cfg (xs k) = ((trace cfg xs k).embFrameWaiting && !(xs (k - 1)).href) := by
  have hstate : (trace cfg xs k).state = stateBefore xs k := trace_state hp hq k
  rw [stateBefore, hs] at hstate
  rw [embFrameMsb, nstate_of_href hp hq hs h, hstate]
  cases (xs (k - 1)).href <;> simp

theorem clock_inData0 (s : Bt656) (x : VideoIn) :
    (s.clock cfg x).inData0 =
      if s.embFrameLsb cfg x then s.embFrameCnt.extractLsb' 0 8
      else if s.embFrameMsb cfg x then s.embFrameCnt.extractLsb' 8 8
      else x.data := rfl

theorem clock_newFrame {s : Bt656} {x : VideoIn} (hp : cfg.pureBt656 = false) (he : cfg.embFrameCnt = true)
    (hn : s.inNewFrame cfg = true) (hlsb : s.embFrameLsb cfg x = false) :
    (s.clock cfg x).embFrameWaiting = true ∧ (s.clock cfg x).embFrameCnt = x.frameCnts.setWidth 16 := by
  simp [clock, hp, he, hn, hlsb]

theorem clock_no_newFrame {s : Bt656} (x : VideoIn) (hn : s.inNewFrame cfg = false) :
    (s.clock cfg x).embFrameWaiting = (if s.embFrameLsb cfg x then false else s.embFrameWaiting) ∧
    (s.clock cfg x).embFrameCnt = s.embFrameCnt := by
  simp [clock, hn]

variable (xs) in
theorem trace_embFrameWaiting_off (he : cfg.embFrameCnt = false) (k : Nat) :
    (trace cfg xs k).embFrameWaiting = false := by
  induction k with
  | zero => rfl
  | succ k ih => simp [trace, clock, he, ih]

/-- While a frame start is known and the last one, the two bytes of the frame counter wait for the first two bytes of
the frame, and the counter is the one of the clock after the start. -/
theorem trace_embFrame (hp : cfg.pureBt656 = false) (hl : LongLines xs) (hq : QuietStarts xs)
    (hs : seen xs k = some r) (hf : frameStart xs k = some r) :
    (trace cfg xs k).embFrameWaiting = (cfg.embFrameCnt && decide (byteNo xs k < 2)) ∧
    (cfg.embFrameCnt = true → (trace cfg xs k).embFrameCnt = (xs (r + 1)).frameCnts.setWidth 16) := by
  induction k with
  | zero => cases hs
  | succ k ih =>
    obtain _ | j := k
    · cases hs
    have hj : frameStart xs j = some r := hs
    have hle := frameStart_le hj
    obtain ⟨hno₂, hf₁⟩ := frameStart_pred hf (by omega)
    have hno₁ : ¬ Rise xs (j + 1) := (frameStart_pred hf₁ hle).1
    have hnew : (trace cfg xs (j + 1)).inNewFrame cfg = decide (Rise xs j) := trace_inNewFrame xs hp j
    by_cases hr : Rise xs j
    · -- the edge was in the clock before: the counter is taken and both bytes wait
      obtain rfl : j = r := Option.some.inj ((frameStart_rise hr).symm.trans hj)
      obtain ⟨h₀, h₁, -⟩ := hq j hr
      have hno : byteNo xs (j + 2) = 0 := by
        rw [byteNo_succ hno₂, h₁, byteNo_succ hno₁, h₀]
        exact byteNo_rise hr
      have hlsb := embFrameLsb_of_not_href hp h₁ (trace cfg xs (j + 1))
      cases he : cfg.embFrameCnt with
      | false => exact ⟨by rw [trace_embFrameWaiting_off xs he]; rfl, nofun⟩
      | true =>
        obtain ⟨hw, hc⟩ := clock_newFrame hp he (hnew.trans (decide_eq_true hr)) hlsb
        exact ⟨by rw [trace_succ, hw, hno]; rfl, fun _ => hc⟩
    · obtain _ | i := j
      · cases hj
      have hi : frameStart xs i = some r := (frameStart_succ hr).symm.trans hj
      obtain ⟨hw, hc⟩ := ih hi hf₁
      obtain ⟨hwait, hcnt⟩ := clock_no_newFrame (xs (i + 2)) (hnew.trans (decide_eq_false hr))
      rw [trace_succ, hwait, hcnt]
      refine ⟨?_, hc⟩
      cases h : (xs (i + 2)).href with
      | false =>
        have hno : byteNo xs (i + 3) = byteNo xs (i + 2) := by rw [byteNo_succ hno₂, h]; rfl
        rw [embFrameLsb_of_not_href hp h, hno]
        exact hw
      | true =>
        have hno : byteNo xs (i + 3) = byteNo xs (i + 2) + 1 := by rw [byteNo_succ hno₂, h]; rfl
        rw [embFrameLsb_of_href (k := i + 2) hp hq hi h, hw, hno]
        show (if (_ && (xs (i + 1)).href) = true then false else _) = _
        cases h' : (xs (i + 1)).href with
        | true =>
          have hno' : byteNo xs (i + 2) = byteNo xs (i + 1) + 1 := by rw [byteNo_succ hno₁, h']; rfl
          cases cfg.embFrameCnt <;> simp [hno']
        | false =>
          have hone : byteNo xs (i + 2) ≠ 1 := fun h₁ => by
            rw [href_of_byteNo_eq_one hl hq h₁] at h'
            cases h'
          have hiff : byteNo xs (i + 2) < 2 ↔ byteNo xs (i + 2) + 1 < 2 := by omega
          simp [hiff]

/-! ### The bytes that are written -/

theorem frameCnt_bytes (w : BitVec 32) :
    (w.setWidth 16).extractLsb' 0 8 = w.extractLsb' 0 8 ∧ (w.setWidth 16).extractLsb' 8 8 = w.extractLsb' 8 8 := by
  constructor <;>
  · apply BitVec.eq_of_getLsbD_eq
    intro i hi
    simp [hi]
    omega

/-- The byte sampled in a line of a known frame. -/
theorem trace_inData0 (hp : cfg.pureBt656 = false) (hl : LongLines xs) (hq : QuietStarts xs)
    (hf : frameStart xs k = some r) (h : (xs k).href = true) :
    expectedByte cfg xs k = some (trace cfg xs (k + 1)).inData0 := by
  have hs : seen xs k = some r := (seen_of_href hq h).1.trans hf
  obtain ⟨hw, hc⟩ := trace_embFrame hp hl hq hs hf
  have hlsb := embFrameLsb_of_href hp hq hs h
  have hmsb := embFrameMsb_of_href hp hq hs h
  obtain _ | j := k
  · cases hs
  have hno : byteNo xs (j + 1) = if (xs j).href then byteNo xs j + 1 else byteNo xs j :=
    byteNo_succ (no_rise_near hq h le_rfl (by omega))
  rw [trace_succ, clock_inData0, hlsb, hmsb, hw, Nat.add_sub_cancel]
  simp only [expectedByte, hf, h, if_true]
  cases he : cfg.embFrameCnt with
  | false => simp
  | true =>
    obtain ⟨hlow, hhigh⟩ := frameCnt_bytes (xs (r + 1)).frameCnts
    match hb : byteNo xs (j + 1), hno with
    | 0, hno =>
      have hfirst : (xs j).href = false := by
        cases h' : (xs j).href with
        | false => rfl
        | true =>
          rw [h'] at hno
          cases hno
      simp [hfirst, hc he, hhigh]
    | 1, hno =>
      have hsecond : (xs j).href = true := href_of_byteNo_eq_one hl hq hb
      simp [hsecond, hc he, hlow]
    | n + 2, hno =>
      have hlate : ¬ n + 2 < 2 := by omega
      simp [hlate]

/-- What goes into the FIFO in a clock is the byte of the video in the clock before it. -/
theorem fifoByte_succ (hp : cfg.pureBt656 = false) (hl : LongLines xs) (hq : QuietStarts xs)
    (hfull : ∀ k, (xs k).dataFifoFull = false) (k : Nat) :
    (trace cfg xs (k + 1)).fifoByte (xs (k + 1)) = expectedByte cfg xs k := by
  have hstate : (trace cfg xs (k + 1)).state = stateBefore xs (k + 1) := trace_state hp hq (k + 1)
  cases h : (xs k).href with
  | false =>
    have hno : (trace cfg xs (k + 1)).state ≠ .vdata := by
      rw [hstate, stateBefore, Nat.add_sub_cancel, h]
      split <;> nofun
    have hnone : expectedByte cfg xs k = none := by
      rw [expectedByte, h]
      cases frameStart xs k <;> rfl
    simp [fifoByte, dataFifoWrite, hno, hnone]
  | true =>
    rw [stateBefore, (seen_of_href hq h).2, Nat.add_sub_cancel, h] at hstate
    cases hf : frameStart xs k with
    | none =>
      rw [hf] at hstate
      simp [fifoByte, dataFifoWrite, hstate, expectedByte, hf]
    | some r =>
      rw [hf] at hstate
      rw [trace_inData0 hp hl hq hf h]
      simp [fifoByte, dataFifoWrite, hstate, hfull]

/-- Without `pure_bt656` and with a FIFO that is never full, the bytes written are those of the video. -/
theorem written_eq_video (hp : cfg.pureBt656 = false) (hl : LongLines xs) (hq : QuietStarts xs)
    (hfull : ∀ k, (xs k).dataFifoFull = false) (n : Nat) :
    written cfg xs (n + 1) = (List.range n).filterMap (expectedByte cfg xs) := by
  rw [written, List.range_succ_eq_map, List.filterMap_cons_none, List.filterMap_map]
  · exact congrArg (fun f => List.filterMap f (List.range n)) (funext (fifoByte_succ hp hl hq hfull))
  · rfl

/-- A frame of one line of three bytes, its counter `0x12345` taken in the clock after the edge. -/
def shortFrame (k : Nat) : VideoIn where
  vsync := k == 1
  href := 4 ≤ k && k ≤ 6
  data := BitVec.ofNat 8 (0xA0 + k)
  frameCnts := if k = 2 then 0x12345 else 0
  syncRstSizeErr := false
  dataFifoFull := false

theorem shortFrame_rise {r : Nat} (h : Rise shortFrame r) : r = 1 := by simpa [shortFrame] using h.2.2

theorem shortFrame_longLines : LongLines shortFrame := by
  intro k h
  simp only [shortFrame, Bool.and_eq_true, decide_eq_true_eq] at h ⊢
  omega

theorem shortFrame_quietStarts : QuietStarts shortFrame := by
  intro r h
  rw [shortFrame_rise h]
  decide

/-- The frame reaches the FIFO with its first two bytes replaced. -/
theorem written_shortFrame :
    LongLines shortFrame ∧ QuietStarts shortFrame ∧ written ⟨false, true⟩ shortFrame 9 = [0x23, 0x45, 0xA6] :=
  ⟨shortFrame_longLines, shortFrame_quietStarts,
    (written_eq_video rfl shortFrame_longLines shortFrame_quietStarts (fun _ => rfl) 8).trans (by decide)⟩

end Bt656

end RcCarControl.Fpga
