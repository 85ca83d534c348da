import RcCarControl.Fpga.TpFrames

/-!
# Stopping after the frames asked for

`fpga/rtl/video_ctrl/axi_stream_tp_gen.sv` from one rise of `tp_enable_i` out of reset.  After the last frame the
generator passes one clock in `FSM_BLANKING`, where both the stop and the end of the blanking assign the next state.  The
end of the blanking is assigned last: with a blanking of 0 it hides the stop and the generator never stops, with every
other blanking the generator sends the frames asked for and is idle afterwards (`stopsAfter_iff`).
-/

namespace RcCarControl.Fpga

/-- The configuration inputs. -/
structure TpCfg where
  tpWidth : BitVec 11
  tpHeight : BitVec 11
  tpNumFrames : BitVec 7
  tpBlanking : BitVec 24

/-- The number of beats of the frames asked for. -/
def TpCfg.beats (cfg : TpCfg) : Nat := cfg.tpNumFrames.toNat * cfg.tpHeight.toNat * cfg.tpWidth.toNat

namespace TpGen

variable (cfg : TpCfg) (xs : Nat → TpGenIn)

/-- The registers before clock `k` of a trace that starts out of reset. -/
def trace : Nat → TpGen
  | 0 => reset
  | k + 1 => (trace k).clock (xs k)

/-- The beats transferred before clock `k`. -/
def sent : Nat → Nat
  | 0 => 0
  | k + 1 => sent k + ((trace xs k).beat (xs k)).isSome.toNat

/-- `tp_enable_i` rises once, in clock `m`, and the configuration is on the inputs when the generator sees it. -/
structure Started (m : Nat) : Prop where
  before : ∀ k < m, (xs k).tpEnable = false
  rise : (xs m).tpEnable = true
  once : ∀ k, m ≤ k → (xs (k + 1)).tpEnable = true → (xs k).tpEnable = true
  width : (xs (m + 2)).tpWidth = cfg.tpWidth
  height : (xs (m + 2)).tpHeight = cfg.tpHeight
  numFrames : (xs (m + 2)).tpNumFrames = cfg.tpNumFrames
  blanking : (xs (m + 2)).tpBlanking = cfg.tpBlanking

/-- Never more beats than those of the frames asked for, and idle in the second clock after the last of them. -/
def StopsAfter : Prop :=
  ∀ k, sent xs k ≤ cfg.beats ∧ (sent xs k = cfg.beats → (trace xs (k + 1)).state = .idle)

variable {cfg xs} {s : TpGen} {x : TpGenIn} {k m n : Nat}

/-! ### What a clock does to the other registers -/

/-- Without a start the configuration stays. -/
theorem clock_cfg (hg : s.genStart = false) :
    (s.clock x).widthR = s.widthR ∧ (s.clock x).heightR = s.heightR ∧ (s.clock x).numFramesR = s.numFramesR ∧
      (s.clock x).blankingR = s.blankingR := by
  simp [clock, hg]

/-- Only the last transfer of a frame counts it. -/
theorem clock_frameCnt (hst : s.state = .vdata) :
    (s.clock x).frameCnt = if x.tready && (s.lastPixel && s.lastLine) then s.frameCnt + 1 else s.frameCnt := by
  cases hr : x.tready with
  | false => simp [clock, comb, hst, hr]
  | true =>
    cases hl : s.lastPixel && s.lastLine with
    | false => simp [clock, comb, hst, hr, hl]
    | true => simp [clock, comb, hst, hr, hl]

theorem clock_frame_pixelCnt (hst : s.state = .vdata) (hr : x.tready = true) (hp : s.lastPixel = true) :
    (s.clock x).pixelCnt = 0 := by
  simp [clock, comb, hst, hr, hp]

theorem clock_idle (hst : s.state = .idle) (hg : s.genStart = false) : (s.clock x).state = .idle := by
  simp [clock, comb, hst, hg]

theorem clock_start (hst : s.state = .idle) (hg : s.genStart = true) : (s.clock x).state = .vdata := by
  simp [clock, comb, hst, hg]

/-- A blanking that is over leads to the next frame, whatever the frame counter says. -/
theorem clock_blanking_over (hst : s.state = .blanking) (hb : s.blankingR ≤ s.pixelCnt) :
    (s.clock x).state = .vdata ∧ (s.clock x).pixelCnt = 0 ∧ (s.clock x).lineCnt = s.lineCnt ∧
      (s.clock x).frameCnt = s.frameCnt := by
  simp [clock, comb, hst, hb]

/-- The stop of the blanking. -/
def stops (s : TpGen) : Bool :=
  !s.enableR0 || decide (s.numFramesR.setWidth 8 ≤ s.frameCnt) && decide (0 < s.numFramesR)

/-- A blanking that is not over ends with the stop. -/
theorem clock_blanking_wait (hst : s.state = .blanking) (hb : ¬ s.blankingR ≤ s.pixelCnt) :
    (s.clock x).state = (if s.stops then .idle else .blanking) ∧ (s.clock x).lineCnt = s.lineCnt ∧
      (s.clock x).frameCnt = s.frameCnt := by
  have hcomb : s.comb x = if s.stops then { nstate := .idle, incPixelCnt := true }
      else { nstate := .blanking, incPixelCnt := true } := by
    simp only [comb, hst]
    rw [if_neg hb]
    rfl
  unfold clock
  rw [hcomb]
  cases s.stops <;> exact ⟨rfl, rfl, rfl⟩

/-- The frame counter is one bit wider than its limit. -/
theorem stops_of_frames_sent (hn : 0 < s.numFramesR.toNat) (h : s.numFramesR.toNat ≤ s.frameCnt.toNat) :
    s.stops = true := by
  have hbound := s.numFramesR.isLt
  have hpos : 0 < s.numFramesR := BitVec.lt_def.2 hn
  have hle : s.numFramesR.setWidth 8 ≤ s.frameCnt := by
    rw [BitVec.le_def, BitVec.toNat_setWidth, Nat.mod_eq_of_lt (by omega)]
    exact h
  unfold stops
  rw [decide_eq_true hpos, decide_eq_true hle]
  exact Bool.or_true _

/-! ### A blanking that is not 0 -/

/-- What holds before a clock of the run: the configuration of the start, no second start, and `n` beats so far. -/
structure Sending (cfg : TpCfg) (s : TpGen) (n : Nat) : Prop where
  width : s.widthR = cfg.tpWidth
  height : s.heightR = cfg.tpHeight
  numFrames : s.numFramesR = cfg.tpNumFrames
  blanking : s.blankingR = cfg.tpBlanking
  enabled : s.enableR0 = true → s.enableR1 = true
  started : s.enableR1 = true → s.enableR2 = true
  /-- In a frame: the frames before it, its lines and its pixels. -/
  inFrame : s.state = .vdata → s.pixelCnt.toNat < cfg.tpWidth.toNat ∧ s.lineCnt.toNat < cfg.tpHeight.toNat ∧
    s.frameCnt.toNat < cfg.tpNumFrames.toNat ∧
    n = (s.frameCnt.toNat * cfg.tpHeight.toNat + s.lineCnt.toNat) * cfg.tpWidth.toNat + s.pixelCnt.toNat
  /-- After a frame; the last one was just sent. -/
  afterFrame : s.state = .blanking → s.lineCnt = 0 ∧ s.frameCnt.toNat ≤ cfg.tpNumFrames.toNat ∧
    n = s.frameCnt.toNat * cfg.tpHeight.toNat * cfg.tpWidth.toNat ∧
    (s.frameCnt.toNat = cfg.tpNumFrames.toNat → s.pixelCnt = 0)
  stopped : s.state = .idle → n ≤ cfg.beats

theorem Sending.genStart (h : Sending cfg s n) : s.genStart = false := by
  unfold TpGen.genStart
  cases hr : s.enableR1 with
  | false => rw [Bool.and_false]
  | true => rw [h.started hr]; rfl

/-- In a frame there are beats left. -/
theorem Sending.lt_beats (h : Sending cfg s n) (hst : s.state = .vdata) : n < cfg.beats := by
  obtain ⟨hp, hl, hf, hn⟩ := h.inFrame hst
  have hline : (s.frameCnt.toNat * cfg.tpHeight.toNat + s.lineCnt.toNat + 1) * cfg.tpWidth.toNat ≤ cfg.beats := by
    apply Nat.mul_le_mul_right
    have hframe : (s.frameCnt.toNat + 1) * cfg.tpHeight.toNat ≤ cfg.tpNumFrames.toNat * cfg.tpHeight.toNat :=
      Nat.mul_le_mul_right _ hf
    rw [Nat.succ_mul] at hframe
    omega
  rw [Nat.succ_mul] at hline
  omega

theorem Sending.le_beats (h : Sending cfg s n) : n ≤ cfg.beats := by
  cases hst : s.state with
  | idle => exact h.stopped hst
  | vdata => exact (h.lt_beats hst).le
  | blanking =>
    obtain ⟨-, hf, hn, -⟩ := h.afterFrame hst
    rw [hn]
    exact Nat.mul_le_mul_right _ (Nat.mul_le_mul_right _ hf)

/-- The configuration and the enable over a clock in which the enable does not rise. -/
theorem Sending.keep (h : Sending cfg s n) (hx : x.tpEnable = true → s.enableR0 = true) {n' : Nat}
    (inFrame : (s.clock x).state = .vdata →
      (s.clock x).pixelCnt.toNat < cfg.tpWidth.toNat ∧ (s.clock x).lineCnt.toNat < cfg.tpHeight.toNat ∧
      (s.clock x).frameCnt.toNat < cfg.tpNumFrames.toNat ∧
      n' = ((s.clock x).frameCnt.toNat * cfg.tpHeight.toNat + (s.clock x).lineCnt.toNat) * cfg.tpWidth.toNat +
        (s.clock x).pixelCnt.toNat)
    (afterFrame : (s.clock x).state = .blanking →
      (s.clock x).lineCnt = 0 ∧ (s.clock x).frameCnt.toNat ≤ cfg.tpNumFrames.toNat ∧
      n' = (s.clock x).frameCnt.toNat * cfg.tpHeight.toNat * cfg.tpWidth.toNat ∧
      ((s.clock x).frameCnt.toNat = cfg.tpNumFrames.toNat → (s.clock x).pixelCnt = 0))
    (stopped : (s.clock x).state = .idle → n' ≤ cfg.beats) : Sending cfg (s.clock x) n' := by
  obtain ⟨hw, hh, hf, hb⟩ := clock_cfg (x := x) h.genStart
  exact ⟨hw.trans h.width, hh.trans h.height, hf.trans h.numFrames, hb.trans h.blanking, hx, h.enabled, inFrame,
    afterFrame, stopped⟩

/-- A clock into a frame. -/
theorem Sending.keep_vdata (h : Sending cfg s n) (hx : x.tpEnable = true → s.enableR0 = true) {n' : Nat}
    (hst' : (s.clock x).state = .vdata)
    (inFrame : (s.clock x).pixelCnt.toNat < cfg.tpWidth.toNat ∧ (s.clock x).lineCnt.toNat < cfg.tpHeight.toNat ∧
      (s.clock x).frameCnt.toNat < cfg.tpNumFrames.toNat ∧
      n' = ((s.clock x).frameCnt.toNat * cfg.tpHeight.toNat + (s.clock x).lineCnt.toNat) * cfg.tpWidth.toNat +
        (s.clock x).pixelCnt.toNat) : Sending cfg (s.clock x) n' := by
  refine h.keep hx (fun _ => inFrame) (fun hne => ?_) fun hne => ?_
  · rw [hst'] at hne
    cases hne
  · rw [hst'] at hne
    cases hne

/-- An idle generator stays idle. -/
theorem Sending.idle (h : Sending cfg s n) (hx : x.tpEnable = true → s.enableR0 = true) (hst : s.state = .idle) :
    Sending cfg (s.clock x) n := by
  have hnext := clock_idle (x := x) hst h.genStart
  refine h.keep hx (fun hn => ?_) (fun hn => ?_) fun _ => h.stopped hst
  · rw [hnext] at hn
    cases hn
  · rw [hnext] at hn
    cases hn

/-- In the blanking the stop comes before the end of the blanking, because the blanking lasts longer than one clock. -/
theorem Sending.blank (h : Sending cfg s n) (hx : x.tpEnable = true → s.enableR0 = true) (hst : s.state = .blanking)
    (hw : 1 ≤ cfg.tpWidth) (hh : 1 ≤ cfg.tpHeight) (hn : 0 < cfg.tpNumFrames.toNat) (hb : cfg.tpBlanking ≠ 0) :
    Sending cfg (s.clock x) n ∧ (n = cfg.beats → (s.clock x).state = .idle) := by
  obtain ⟨hline, hf, hsent, hfirst⟩ := h.afterFrame hst
  have hw' : 1 ≤ cfg.tpWidth.toNat := BitVec.le_def.1 hw
  have hh' : 1 ≤ cfg.tpHeight.toNat := BitVec.le_def.1 hh
  by_cases hover : s.blankingR ≤ s.pixelCnt
  · -- the blanking is over, so the frame before was not the last
    obtain ⟨hst', hp', hl', hf'⟩ := clock_blanking_over (x := x) hst hover
    have hlt : s.frameCnt.toNat < cfg.tpNumFrames.toNat := by
      rcases Nat.lt_or_eq_of_le hf with hlt | heq
      · exact hlt
      · rw [hfirst heq, h.blanking] at hover
        exact absurd (BitVec.eq_of_toNat_eq (Nat.le_zero.1 (BitVec.le_def.1 hover))) hb
    refine ⟨h.keep_vdata hx hst' ?_, fun hall => ?_⟩
    · rw [hp', hl', hf', hline]
      refine ⟨hw', hh', hlt, ?_⟩
      rw [hsent]
      rfl
    · have hless : n < cfg.beats := by
        rw [hsent]
        exact Nat.mul_lt_mul_of_pos_right (Nat.mul_lt_mul_of_pos_right hlt hh') hw'
      omega
  · obtain ⟨hst', hl', hf'⟩ := clock_blanking_wait (x := x) hst hover
    have hstop (heq : s.frameCnt.toNat = cfg.tpNumFrames.toNat) : (s.clock x).state = .idle := by
      rw [hst', stops_of_frames_sent (by rw [h.numFrames]; exact hn) (by rw [h.numFrames, heq])]
      rfl
    refine ⟨h.keep hx (fun hne => ?_) (fun hne => ?_) fun _ => h.le_beats, fun hall => ?_⟩
    · rw [hst'] at hne
      cases hs : s.stops <;> rw [hs] at hne <;> cases hne
    · rw [hl', hf']
      refine ⟨hline, hf, hsent, fun heq => ?_⟩
      rw [hstop heq] at hne
      cases hne
    · apply hstop
      rw [hsent] at hall
      exact Nat.eq_of_mul_eq_mul_right hh' (Nat.eq_of_mul_eq_mul_right hw' hall)

/-- Without TREADY the position stays. -/
theorem Sending.wait (h : Sending cfg s n) (hx : x.tpEnable = true → s.enableR0 = true) (hst : s.state = .vdata)
    (hr : x.tready = false) : Sending cfg (s.clock x) n := by
  obtain ⟨hst', hp', hl'⟩ := clock_wait hst hr
  have hf' := clock_frameCnt (x := x) hst
  rw [hr, Bool.false_and, if_neg Bool.false_ne_true] at hf'
  apply h.keep_vdata hx hst'
  rw [hp', hl', hf']
  exact h.inFrame hst

/-- A transfer inside a line. -/
theorem Sending.pixel (h : Sending cfg s n) (hx : x.tpEnable = true → s.enableR0 = true) (hst : s.state = .vdata)
    (hr : x.tready = true) (hlp : s.lastPixel = false) : Sending cfg (s.clock x) (n + 1) := by
  obtain ⟨hp, hl, hf, hn⟩ := h.inFrame hst
  obtain ⟨hst', hp', hl'⟩ := clock_pixel hst hr hlp
  obtain ⟨hmore, hnext⟩ := next_pixel (by rwa [h.width]) hlp
  have hf' := clock_frameCnt (x := x) hst
  rw [hr, Bool.true_and, hlp, Bool.false_and, if_neg Bool.false_ne_true] at hf'
  rw [h.width] at hmore
  apply h.keep_vdata hx hst'
  rw [hp', hl', hf', hnext]
  exact ⟨hmore, hl, hf, by omega⟩

/-- The transfer at the end of a line that is not the last. -/
theorem Sending.line (h : Sending cfg s n) (hx : x.tpEnable = true → s.enableR0 = true) (hst : s.state = .vdata)
    (hr : x.tready = true) (hlp : s.lastPixel = true) (hll : s.lastLine = false) :
    Sending cfg (s.clock x) (n + 1) := by
  obtain ⟨hp, hl, hf, hn⟩ := h.inFrame hst
  have hw : 0 < s.widthR.toNat := by rw [h.width]; omega
  have hlast := (lastPixel_iff hw).1 hlp
  obtain ⟨hst', hp', hl'⟩ := clock_line hst hr hlp hll
  obtain ⟨hmore, hnext⟩ := next_line (by rwa [h.height]) hll
  have hf' := clock_frameCnt (x := x) hst
  rw [hr, Bool.true_and, hll, Bool.and_false, if_neg Bool.false_ne_true] at hf'
  rw [h.width] at hlast
  rw [h.height] at hmore
  apply h.keep_vdata hx hst'
  rw [hp', hl', hf', hnext]
  refine ⟨Nat.zero_lt_of_lt hp, hmore, hf, ?_⟩
  -- the pixels of the line are complete, so they count as one more line
  rw [← Nat.add_assoc, Nat.succ_mul]
  change n + 1 = _ + 0
  omega

/-- The last transfer of a frame. -/
theorem Sending.frame (h : Sending cfg s n) (hx : x.tpEnable = true → s.enableR0 = true) (hst : s.state = .vdata)
    (hr : x.tready = true) (hlp : s.lastPixel = true) (hll : s.lastLine = true) :
    Sending cfg (s.clock x) (n + 1) := by
  obtain ⟨hp, hl, hf, hn⟩ := h.inFrame hst
  have hle := h.lt_beats hst
  have hw : 0 < s.widthR.toNat := by rw [h.width]; omega
  have hh : 0 < s.heightR.toNat := by rw [h.height]; omega
  have hlast := (lastPixel_iff hw).1 hlp
  have hlines := (lastLine_iff hh).1 hll
  obtain ⟨hst', hl'⟩ := clock_frame hst hr hlp hll
  have hp' := clock_frame_pixelCnt hst hr hlp
  have hf' := clock_frameCnt (x := x) hst
  rw [hr, Bool.true_and, hlp, hll, Bool.and_true, if_pos rfl] at hf'
  rw [h.width] at hlast
  rw [h.height] at hlines
  -- the frame counter is one bit wider than the number of frames
  have hnext : (s.frameCnt + 1).toNat = s.frameCnt.toNat + 1 := by
    have hbound := cfg.tpNumFrames.isLt
    rw [BitVec.toNat_add]
    exact Nat.mod_eq_of_lt (by change s.frameCnt.toNat + 1 < _; omega)
  have hcount : n + 1 = (s.frameCnt.toNat + 1) * cfg.tpHeight.toNat * cfg.tpWidth.toNat := by
    have hlines' : (s.frameCnt.toNat + 1) * cfg.tpHeight.toNat =
        s.frameCnt.toNat * cfg.tpHeight.toNat + s.lineCnt.toNat + 1 := by
      rw [Nat.succ_mul]
      omega
    rw [hlines', Nat.succ_mul]
    omega
  refine h.keep hx (fun hne => ?_) (fun _ => ?_) fun _ => hle
  · rw [hst'] at hne
    cases hne
  · rw [hf', hnext]
    exact ⟨hl', hf, hcount, fun _ => hp'⟩

/-- A transfer takes the position on: in the line, to the next line, or to the end of the frame. -/
theorem Sending.transfer (h : Sending cfg s n) (hx : x.tpEnable = true → s.enableR0 = true) (hst : s.state = .vdata)
    (hr : x.tready = true) : Sending cfg (s.clock x) (n + 1) := by
  cases hlp : s.lastPixel with
  | false => exact h.pixel hx hst hr hlp
  | true =>
    cases hll : s.lastLine with
    | false => exact h.line hx hst hr hlp hll
    | true => exact h.frame hx hst hr hlp hll

/-- A clock of the run. -/
theorem Sending.clock (h : Sending cfg s n) (hx : x.tpEnable = true → s.enableR0 = true) (hw : 1 ≤ cfg.tpWidth)
    (hh : 1 ≤ cfg.tpHeight) (hn : 0 < cfg.tpNumFrames.toNat) (hb : cfg.tpBlanking ≠ 0) :
    Sending cfg (s.clock x) (n + (s.beat x).isSome.toNat) := by
  cases hst : s.state with
  | idle =>
    rw [beat_eq_none (Or.inl (by rw [hst]; nofun))]
    exact h.idle hx hst
  | blanking =>
    rw [beat_eq_none (Or.inl (by rw [hst]; nofun))]
    exact (h.blank hx hst hw hh hn hb).1
  | vdata =>
    cases hr : x.tready with
    | false =>
      rw [beat_eq_none (Or.inr hr)]
      exact h.wait hx hst hr
    | true =>
      have hpos : 0 < s.widthR.toNat := by
        rw [h.width]
        exact BitVec.le_def.1 hw
      rw [beat_vdata hst hr hpos]
      exact h.transfer hx hst hr

/-! ### From the reset to the start -/

/-- Nothing was sent and the counters of the position are 0. -/
def Fresh (s : TpGen) : Prop := s.state = .idle ∧ s.pixelCnt = 0 ∧ s.lineCnt = 0

theorem clock_idle_cnts (hst : s.state = .idle) :
    (s.clock x).pixelCnt = s.pixelCnt ∧ (s.clock x).lineCnt = s.lineCnt ∧ (s.clock x).frameCnt = 0 := by
  simp [clock, comb, hst]

theorem Fresh.clock (h : s.Fresh) (hg : s.genStart = false) : (s.clock x).Fresh := by
  obtain ⟨hst, hp, hl⟩ := h
  obtain ⟨hp', hl', -⟩ := clock_idle_cnts (x := x) hst
  exact ⟨clock_idle hst hg, hp'.trans hp, hl'.trans hl⟩

theorem sent_succ_idle (hst : (trace xs k).state = .idle) : sent xs (k + 1) = sent xs k := by
  rw [sent, beat_eq_none (Or.inl (by rw [hst]; nofun))]
  rfl

theorem genStart_of_low (h : s.enableR1 = false) : s.genStart = false := by
  unfold genStart
  rw [h, Bool.and_false]

/-- Until the enable rises nothing happens. -/
theorem trace_before (hs : Started cfg xs m) (hk : k ≤ m) :
    (trace xs k).Fresh ∧ (trace xs k).enableR0 = false ∧ (trace xs k).enableR1 = false ∧ sent xs k = 0 := by
  induction k with
  | zero => exact ⟨⟨rfl, rfl, rfl⟩, rfl, rfl, rfl⟩
  | succ k ih =>
    obtain ⟨hfresh, hr0, hr1, hsent⟩ := ih (by omega)
    exact ⟨hfresh.clock (genStart_of_low hr1), hs.before k hk, hr0, (sent_succ_idle hfresh.1).trans hsent⟩

/-- The start comes two clocks after the rise of the enable. -/
theorem trace_starting (hs : Started cfg xs m) :
    ∀ i ≤ 2, (trace xs (m + i)).Fresh ∧ sent xs (m + i) = 0 := by
  obtain ⟨hfresh, hr0, hr1, hsent⟩ := trace_before hs (Nat.le_refl m)
  have hfresh₁ : (trace xs (m + 1)).Fresh := hfresh.clock (genStart_of_low hr1)
  have hfresh₂ : (trace xs (m + 2)).Fresh := hfresh₁.clock (genStart_of_low hr0)
  have hsent₁ := (sent_succ_idle hfresh.1).trans hsent
  have hsent₂ := (sent_succ_idle hfresh₁.1).trans hsent₁
  intro i hi
  match i with
  | 0 => exact ⟨hfresh, hsent⟩
  | 1 => exact ⟨hfresh₁, hsent₁⟩
  | 2 => exact ⟨hfresh₂, hsent₂⟩

theorem trace_start (hs : Started cfg xs m) : (trace xs (m + 2)).genStart = true := by
  obtain ⟨-, hr0, -, -⟩ := trace_before hs (Nat.le_refl m)
  have hlow : (trace xs (m + 2)).enableR2 = false := hr0
  have hhigh : (trace xs (m + 2)).enableR1 = true := hs.rise
  unfold genStart
  rw [hlow, hhigh]
  rfl

theorem sending_start (hs : Started cfg xs m) (hw : 1 ≤ cfg.tpWidth) (hh : 1 ≤ cfg.tpHeight)
    (hn : 0 < cfg.tpNumFrames.toNat) : Sending cfg (trace xs (m + 3)) (sent xs (m + 3)) := by
  obtain ⟨⟨hst, hp, hl⟩, hsent⟩ := trace_starting hs 2 le_rfl
  have hg := trace_start hs
  obtain ⟨hp', hl', hf'⟩ := clock_idle_cnts (x := xs (m + 2)) hst
  have hst' : (trace xs (m + 3)).state = .vdata := clock_start hst hg
  have hcfg {α : Type} (new old : α) : (if (trace xs (m + 2)).genStart then new else old) = new := by
    rw [hg, if_pos rfl]
  refine ⟨(hcfg _ _).trans hs.width, (hcfg _ _).trans hs.height, (hcfg _ _).trans hs.numFrames,
    (hcfg _ _).trans hs.blanking, hs.once (m + 1) (by omega), fun _ => hs.rise, fun _ => ?_, fun hne => ?_, fun hne => ?_⟩
  · have hpix : (trace xs (m + 3)).pixelCnt = 0 := hp'.trans hp
    have hlin : (trace xs (m + 3)).lineCnt = 0 := hl'.trans hl
    have hfrm : (trace xs (m + 3)).frameCnt = 0 := hf'
    rw [hpix, hlin, hfrm, (sent_succ_idle hst).trans hsent]
    exact ⟨BitVec.le_def.1 hw, BitVec.le_def.1 hh, hn, by simp⟩
  · rw [hst'] at hne
    cases hne
  · rw [hst'] at hne
    cases hne

/-- After the start the enable does not rise again. -/
theorem Started.stays (hs : Started cfg xs m) (i : Nat) :
    (xs (m + 3 + i)).tpEnable = true → (trace xs (m + 3 + i)).enableR0 = true := by
  have hprev : m + 3 + i = m + 2 + i + 1 := by omega
  rw [hprev]
  exact hs.once (m + 2 + i) (by omega)

/-- With a blanking that is not 0, the run after the start. -/
theorem trace_sending (hs : Started cfg xs m) (hw : 1 ≤ cfg.tpWidth) (hh : 1 ≤ cfg.tpHeight)
    (hn : 0 < cfg.tpNumFrames.toNat) (hb : cfg.tpBlanking ≠ 0) (i : Nat) :
    Sending cfg (trace xs (m + 3 + i)) (sent xs (m + 3 + i)) := by
  induction i with
  | zero => exact sending_start hs hw hh hn
  | succ i ih => exact ih.clock (hs.stays i) hw hh hn hb

theorem stopsAfter_of_blanking (hs : Started cfg xs m) (hw : 1 ≤ cfg.tpWidth) (hh : 1 ≤ cfg.tpHeight)
    (hn : 0 < cfg.tpNumFrames.toNat) (hb : cfg.tpBlanking ≠ 0) : StopsAfter cfg xs := by
  intro k
  have hpos : 0 < cfg.beats := Nat.mul_pos (Nat.mul_pos hn (BitVec.le_def.1 hh)) (BitVec.le_def.1 hw)
  rcases Nat.lt_or_ge k (m + 3) with hk | hk
  · -- nothing is sent before the start
    have hsent : sent xs k = 0 := by
      rcases Nat.lt_or_ge k m with hkm | hkm
      · exact (trace_before hs hkm.le).2.2.2
      · obtain ⟨i, rfl⟩ := Nat.exists_eq_add_of_le hkm
        exact (trace_starting hs i (by omega)).2
    rw [hsent]
    exact ⟨Nat.zero_le _, fun h => absurd h hpos.ne⟩
  · obtain ⟨i, rfl⟩ := Nat.exists_eq_add_of_le hk
    have hsending := trace_sending hs hw hh hn hb i
    refine ⟨hsending.le_beats, fun hall => ?_⟩
    cases hst : (trace xs (m + 3 + i)).state with
    | idle => exact clock_idle hst hsending.genStart
    | vdata =>
      have hlt := hsending.lt_beats hst
      omega
    | blanking => exact (hsending.blank (hs.stays i) hst hw hh hn hb).2 hall

/-! ### A blanking of 0 -/

/-- The enable is held at 1 and TREADY is always there. -/
def busy (cfg : TpCfg) (_ : Nat) : TpGenIn := ⟨true, cfg.tpWidth, cfg.tpHeight, cfg.tpNumFrames, cfg.tpBlanking, true⟩

theorem started_busy (cfg : TpCfg) : Started cfg (busy cfg) 0 :=
  ⟨nofun, rfl, fun _ _ _ => rfl, rfl, rfl, rfl, rfl⟩

/-- The generator runs with a blanking of 0. -/
structure Running (s : TpGen) : Prop where
  notIdle : s.state ≠ .idle
  blanking : s.blankingR = 0
  enabled : s.enableR0 = true ∧ s.enableR1 = true ∧ s.enableR2 = true

/-- A blanking of 0 is over at once. -/
theorem Running.over (h : Running s) : s.blankingR ≤ s.pixelCnt := by
  rw [h.blanking, BitVec.le_def]
  exact Nat.zero_le _

/-- The stop has no effect. -/
theorem Running.clock (h : Running s) (hx : x.tpEnable = true) (hr : x.tready = true) : Running (s.clock x) := by
  obtain ⟨hr0, hr1, hr2⟩ := h.enabled
  have hg : s.genStart = false := by
    unfold genStart
    rw [hr2]
    rfl
  refine ⟨?_, (clock_cfg hg).2.2.2.trans h.blanking, hx, hr0, hr1⟩
  cases hst : s.state with
  | idle => exact absurd hst h.notIdle
  | blanking =>
    rw [(clock_blanking_over hst h.over).1]
    intro hne
    cases hne
  | vdata =>
    have hnext : (s.clock x).state = if s.lastPixel && s.lastLine then .blanking else .vdata := by
      simp [TpGen.clock, comb, hst, hr]
    rw [hnext]
    intro hne
    split at hne <;> cases hne

/-- Of two clocks in a row one transfers a beat. -/
theorem Running.beats (h : Running s) {y : TpGenIn} (hx : x.tready = true) (hy : y.tready = true) :
    1 ≤ (s.beat x).isSome.toNat + ((s.clock x).beat y).isSome.toNat := by
  have hbeat {s : TpGen} {x : TpGenIn} (hst : s.state = .vdata) (hr : x.tready = true) :
      (s.beat x).isSome.toNat = 1 := by
    simp [beat, comb, hst, hr]
  cases hst : s.state with
  | idle => exact absurd hst h.notIdle
  | vdata =>
    rw [hbeat hst hx]
    exact Nat.le_add_right _ _
  | blanking =>
    rw [hbeat (clock_blanking_over hst h.over).1 hy]
    exact Nat.le_add_left _ _

theorem running_busy (hb : cfg.tpBlanking = 0) (i : Nat) : Running (trace (busy cfg) (3 + i)) := by
  induction i with
  | zero =>
    have hs := started_busy cfg
    obtain ⟨⟨hst, -, -⟩, -⟩ := trace_starting hs 2 le_rfl
    have hg : (trace (busy cfg) 2).genStart = true := trace_start hs
    refine ⟨?_, ?_, rfl, rfl, rfl⟩
    · have hnext : (trace (busy cfg) 3).state = .vdata := clock_start hst hg
      rw [hnext]
      intro hne
      cases hne
    · change (if (trace (busy cfg) 2).genStart then cfg.tpBlanking else (trace (busy cfg) 2).blankingR) = 0
      rw [hg, if_pos rfl, hb]
  | succ i ih => exact ih.clock rfl rfl

/-- A count that goes up by at most one meets every number up to the ones it reaches. -/
theorem exists_count_eq {f : Nat → Nat} (hstep : ∀ i, f (i + 1) ≤ f i + 1) {N : Nat} (h0 : f 0 ≤ N) {i : Nat}
    (hi : N ≤ f i) : ∃ j, f j = N := by
  induction i with
  | zero => exact ⟨0, Nat.le_antisymm h0 hi⟩
  | succ i ih =>
    rcases Nat.lt_or_ge (f i) N with hlt | hge
    · have hle := hstep i
      exact ⟨i + 1, by omega⟩
    · exact ih hge

/-- With a blanking of 0 the generator is not idle after the frames asked for. -/
theorem not_stopsAfter_busy (hb : cfg.tpBlanking = 0) : ¬ StopsAfter cfg (busy cfg) := by
  have hrate (n : Nat) : n ≤ sent (busy cfg) (3 + 2 * n) := by
    induction n with
    | zero => exact Nat.zero_le _
    | succ n ih =>
      have hnext := (running_busy hb (2 * n)).beats (x := busy cfg (3 + 2 * n)) (y := busy cfg (3 + 2 * n + 1)) rfl rfl
      have htwo : sent (busy cfg) (3 + 2 * (n + 1)) = sent (busy cfg) (3 + 2 * n) +
          ((trace (busy cfg) (3 + 2 * n)).beat (busy cfg (3 + 2 * n))).isSome.toNat +
          (((trace (busy cfg) (3 + 2 * n)).clock (busy cfg (3 + 2 * n))).beat (busy cfg (3 + 2 * n + 1))).isSome.toNat :=
        rfl
      omega
  have hstep (i : Nat) : sent (busy cfg) (3 + (i + 1)) ≤ sent (busy cfg) (3 + i) + 1 :=
    Nat.add_le_add_left (Bool.toNat_le _) _
  intro hstop
  have hzero : sent (busy cfg) (3 + 0) ≤ cfg.beats := (hstop 3).1
  obtain ⟨j, hj⟩ := exists_count_eq (f := fun i => sent (busy cfg) (3 + i)) hstep hzero (hrate cfg.beats)
  exact (running_busy hb (j + 1)).notIdle ((hstop (3 + j)).2 hj)

/-- The generator stops after the frames asked for in every run with one rise of the enable, exactly if the blanking is
not 0. -/
theorem stopsAfter_iff (hw : 1 ≤ cfg.tpWidth) (hh : 1 ≤ cfg.tpHeight) (hn : 0 < cfg.tpNumFrames) :
    (∀ xs m, Started cfg xs m → StopsAfter cfg xs) ↔ cfg.tpBlanking ≠ 0 := by
  constructor
  · intro h hb
    exact not_stopsAfter_busy hb (h _ _ (started_busy cfg))
  · intro hb xs m hs
    exact stopsAfter_of_blanking hs hw hh (BitVec.lt_def.1 hn) hb

theorem stopsAfter_iff_two_frames :
    (∀ xs m, Started ⟨2, 3, 2, 1⟩ xs m → StopsAfter ⟨2, 3, 2, 1⟩ xs) ↔ (1 : BitVec 24) ≠ 0 :=
  @stopsAfter_iff ⟨2, 3, 2, 1⟩ (by decide) (by decide) (by decide)

/-- One frame of one pixel without a blanking: the second frame follows. -/
theorem one_frame_not_last :
    Started ⟨1, 1, 1, 0⟩ (busy ⟨1, 1, 1, 0⟩) 0 ∧ sent (busy ⟨1, 1, 1, 0⟩) 6 = 2 ∧ (TpCfg.mk 1 1 1 0).beats = 1 ∧
      ¬ StopsAfter ⟨1, 1, 1, 0⟩ (busy ⟨1, 1, 1, 0⟩) :=
  ⟨started_busy _, rfl, rfl, not_stopsAfter_busy rfl⟩

end TpGen

end RcCarControl.Fpga
