import RcCarControl.Fpga.StatusPath

/-!
# The numbers in the picture

With `emb_frame_cnt` the receiver overwrites the first two bytes of a frame with the frame counter, which lives on the AXI
clock and comes over without a synchroniser (`rx_cfg.frame_cnts` in `bt656_to_axi_stream.sv`).  When the AXI clock has an
edge between any two of PCLK and frame starts are eight PCLKs apart, the counter stands still when it is taken, and the
frames carry consecutive numbers: none is skipped and none comes twice (`frames_numbered`).
-/

namespace RcCarControl.Fpga

open Lts

/-- The frame starts before clock `n`. -/
def rises (xs : Nat → VideoIn) (n : Nat) : Nat := (List.range n).countP fun r => decide (Rise xs r)

/-- The byte of the video in clock `k`, if it is in a line of a frame, with the number of the frame in its first two
bytes; the first frame has the number `cnts`. -/
def numberedByte (cnts : BitVec 32) (xs : Nat → VideoIn) (k : Nat) : Option (BitVec 8) :=
  match frameStart xs k with
  | none => none
  | some r =>
    if (xs k).href then
      if byteNo xs k = 0 then some ((cnts + BitVec.ofNat 32 (rises xs r)).extractLsb' 8 8)
      else if byteNo xs k = 1 then some ((cnts + BitVec.ofNat 32 (rises xs r)).extractLsb' 0 8)
      else some (xs k).data
    else none

/-- A trace that goes on from the samples of a run. -/
def Extends (xs : Nat → VideoIn) (samples : List VideoIn) : Prop := ∀ k x, samples[k]? = some x → xs k = x

theorem rises_succ (xs : Nat → VideoIn) (n : Nat) : rises xs (n + 1) = rises xs n + (decide (Rise xs n)).toNat := by
  unfold rises
  rw [List.range_succ, List.countP_append, List.countP_singleton]
  cases decide (Rise xs n) <;> rfl

theorem rise_of_frameStart {xs : Nat → VideoIn} {k r : Nat} (h : frameStart xs k = some r) : Rise xs r := by
  induction k with
  | zero => cases h
  | succ k ih =>
    by_cases hr : Rise xs (k + 1)
    · rw [frameStart_rise hr] at h
      obtain rfl := Option.some.inj h
      exact hr
    · exact ih ((frameStart_succ hr).symm.trans h)

theorem Extends.of_append {xs : Nat → VideoIn} {samples samples' : List VideoIn} (h : Extends xs (samples ++ samples')) :
    Extends xs samples := by
  intro k x hk
  have hlt : k < samples.length := (List.getElem?_eq_some_iff.1 hk).1
  exact h k x ((List.getElem?_append_left hlt).trans hk)

theorem Extends.last {xs : Nat → VideoIn} {samples : List VideoIn} {x : VideoIn} (h : Extends xs (samples ++ [x])) :
    xs samples.length = x := h _ _ List.getElem?_concat_length

theorem extends_range (xs : Nat → VideoIn) (n : Nat) : Extends xs ((List.range n).map xs) := by
  intro k x hk
  rw [List.getElem?_map] at hk
  obtain ⟨j, hj, rfl⟩ := Option.map_eq_some_iff.1 hk
  rw [(List.getElem?_eq_some_iff.1 hj).2.symm, List.getElem_range]

namespace StatusPath

variable (cfg : Bt656Cfg)

/-- The receiver and its bytes follow the samples, and the counter that is sampled behind a frame start is the number of
the frame. -/
structure Numbered (cnts : BitVec 32) (r : Logged) (xs : Nat → VideoIn) : Prop where
  rx : r.1.rx = Bt656.trace cfg xs r.2.samples.length
  bytes : r.2.bytes = Bt656.written cfg xs r.2.samples.length
  starts : r.2.starts = rises xs (r.2.samples.length - 1)
  number : ∀ k, k + 1 < r.2.samples.length → Rise xs k → (xs (k + 1)).frameCnts = cnts + BitVec.ofNat 32 (rises xs k)

variable {cfg} {cnts : BitVec 32} {r : Logged} {e : StatusTick}

theorem before {t : Logged} {xs : Nat → VideoIn} (ht : Logged.step cfg r e = some t) (h : Extends xs t.2.samples) :
    Extends xs r.2.samples := by
  obtain ⟨t, g'⟩ := t
  obtain ⟨-, rfl⟩ := withGhost_eq_some.1 ht
  exact h.of_append

theorem written_succ (xs : Nat → VideoIn) (n : Nat) :
    Bt656.written cfg xs (n + 1) = Bt656.written cfg xs n ++ ((Bt656.trace cfg xs n).fifoByte (xs n)).toList := by
  unfold Bt656.written
  rw [List.range_succ, List.filterMap_append]
  cases h : (Bt656.trace cfg xs n).fifoByte (xs n) <;> simp [h]

/-- A frame start is seen in the clock after the edge of VSYNC. -/
theorem Numbered.newFrame {xs : Nat → VideoIn} (h : Numbered cfg cnts r xs) (hp : cfg.pureBt656 = false) :
    r.1.rx.inNewFrame cfg = (decide (0 < r.2.samples.length) && decide (Rise xs (r.2.samples.length - 1))) := by
  rw [h.rx]
  cases r.2.samples.length with
  | zero => cases hp' : cfg.pureBt656 <;> simp [Bt656.trace, Bt656.reset, Bt656.inNewFrame]
  | succ k =>
    rw [Bt656.trace_inNewFrame xs hp]
    simp

theorem Numbered.sample {xs : Nat → VideoIn} {s : StatusPath} {g : StatusLog} {x : StatusIn} {aclk : Option Bool}
    (h : Numbered cfg cnts (s, g) xs) (hp : cfg.pureBt656 = false) (hc : Counted cnts (s, g))
    (hpaced : Paced cfg (s, g) ⟨some x, aclk⟩) (hx : xs g.samples.length = s.videoIn x) :
    Numbered cfg cnts (s.clock cfg ⟨some x, aclk⟩, g.note cfg s ⟨some x, aclk⟩) xs := by
  have hrx : s.rx = Bt656.trace cfg xs g.samples.length := h.rx
  have hlen : (g.note cfg s ⟨some x, aclk⟩).samples.length = g.samples.length + 1 := List.length_append
  have hnew : s.rx.inNewFrame cfg = _ := h.newFrame hp
  have hstarts : g.starts = rises xs (g.samples.length - 1) := h.starts
  refine ⟨?_, ?_, ?_, fun k hk hr => ?_⟩
  · rw [hlen, Bt656.trace_succ, ← hrx, hx]
    rfl
  · rw [hlen, written_succ, ← hrx, hx]
    exact congrArg (· ++ _) h.bytes
  · show g.starts + (s.rx.inNewFrame cfg).toNat = _
    rw [hlen, hnew, hstarts, Nat.add_sub_cancel]
    cases hn : g.samples.length with
    | zero => rfl
    | succ n => simp [rises_succ]
  · rw [hlen] at hk
    obtain hlt | heq : k + 1 < g.samples.length ∨ g.samples.length = k + 1 := by omega
    · exact h.number k hlt hr
    · -- the sample behind the edge is the one of this instant
      have hstart : s.frameStarts cfg ⟨some x, aclk⟩ = true := by
        show s.rx.inNewFrame cfg = true
        rw [hnew, heq]
        simp [hr]
      have hsettled : s.counts.rxFrameCnts = cnts + BitVec.ofNat 32 g.starts := (hc.settled hpaced hstart).2
      rw [heq] at hx
      rw [hx]
      show s.counts.rxFrameCnts = _
      rw [hsettled, hstarts, heq, Nat.add_sub_cancel]

theorem Numbered.step {r t : Logged} {xs : Nat → VideoIn} (hp : cfg.pureBt656 = false) (hc : Counted cnts r)
    (hpaced : Paced cfg r e) (ht : Logged.step cfg r e = some t) (h : Numbered cfg cnts r xs)
    (hx : Extends xs t.2.samples) : Numbered cfg cnts t xs := by
  obtain ⟨s, g⟩ := r
  obtain ⟨t, g'⟩ := t
  obtain ⟨pclk, aclk⟩ := e
  obtain ⟨ht, rfl⟩ := withGhost_eq_some.1 ht
  obtain rfl := Option.some.inj ht
  cases pclk with
  | some x => exact h.sample hp hc hpaced hx.last
  | none =>
    have hsamples : (g.note cfg s ⟨none, aclk⟩).samples = g.samples := List.append_nil _
    have hbytes : (g.note cfg s ⟨none, aclk⟩).bytes = g.bytes := List.append_nil _
    refine ⟨?_, ?_, ?_, ?_⟩
    · rw [hsamples]
      exact h.rx
    · rw [hsamples, hbytes]
      exact h.bytes
    · rw [hsamples]
      exact h.starts
    · rw [hsamples]
      exact h.number

/-! ### Runs -/

variable (mem : BitVec 2 → BitVec 32) (sizeStatus : BitVec 32) (counts : FrameLength)

theorem numbered_enabled (xs : Nat → VideoIn) :
    Numbered cfg counts.rxFrameCnts (enabled mem sizeStatus counts, .start) xs where
  rx := rfl
  bytes := rfl
  starts := rfl
  number _ h := absurd h (Nat.not_lt_zero _)

theorem run_numbered (hp : cfg.pureBt656 = false) {es : List StatusTick} {t : Logged} {xs : Nat → VideoIn}
    (hpaced : StepsMeet (Logged.step cfg) (Paced cfg) (enabled mem sizeStatus counts, .start) es)
    (h : exec (Logged.step cfg) (enabled mem sizeStatus counts, .start) es = some t) (hx : Extends xs t.2.samples) :
    Numbered cfg counts.rxFrameCnts t xs := by
  let Inv (r : Logged) : Prop :=
    Counted counts.rxFrameCnts r ∧ (Extends xs r.2.samples → Numbered cfg counts.rxFrameCnts r xs)
  have hkeep (r : Logged) (e : StatusTick) (u : Logged) (hi : Inv r) (hpe : Paced cfg r e)
      (hu : Logged.step cfg r e = some u) : Inv u :=
    ⟨hi.1.step hpe hu, fun hxu => (hi.2 (before hu hxu)).step hp hi.1 hpe hu hxu⟩
  have hend : Inv t :=
    exec_invariant hkeep ⟨counted_enabled mem counts, fun _ => numbered_enabled mem sizeStatus counts xs⟩ hpaced h
  exact hend.2 hx

/-- The numbers in the first two bytes of the frames of a trace are those of the frames. -/
theorem expectedByte_eq_numberedByte (he : cfg.embFrameCnt = true) {xs : Nat → VideoIn} {k : Nat}
    (hn : ∀ r ≤ k, Rise xs r → (xs (r + 1)).frameCnts = cnts + BitVec.ofNat 32 (rises xs r)) :
    expectedByte cfg xs k = numberedByte cnts xs k := by
  unfold expectedByte numberedByte
  cases hf : frameStart xs k with
  | none => rfl
  | some r =>
    have hnumber := hn r (frameStart_le hf) (rise_of_frameStart hf)
    simp only [he, hnumber, Bool.true_and, beq_iff_eq]

/-- The bytes of the first clocks, with the numbers that are sampled in them. -/
theorem written_eq_numbered (hp : cfg.pureBt656 = false) (he : cfg.embFrameCnt = true) {xs : Nat → VideoIn}
    (hl : LongLines xs) (hq : QuietStarts xs) (hfull : ∀ k, (xs k).dataFifoFull = false) {n : Nat}
    (hn : ∀ r < n, Rise xs r → (xs (r + 1)).frameCnts = cnts + BitVec.ofNat 32 (rises xs r)) :
    Bt656.written cfg xs (n + 1) = (List.range n).filterMap (numberedByte cnts xs) := by
  induction n with
  | zero => rfl
  | succ n ih =>
    have hbyte : expectedByte cfg xs n = numberedByte cnts xs n :=
      expectedByte_eq_numberedByte he fun r hr => hn r (Nat.lt_succ_of_le hr)
    rw [written_succ, ih fun r hr => hn r (Nat.lt_succ_of_lt hr), Bt656.fifoByte_succ hp hl hq hfull, hbyte,
      List.range_succ, List.filterMap_append]
    cases hnb : numberedByte cnts xs n <;> simp [hnb]

/-- In every run in which the AXI clock has an edge between any two of PCLK and frame starts are eight PCLKs apart, for pins
whose lines have two bytes at least and keep clear of the frame starts, with `emb_frame_cnt` set and a data FIFO that is never
full: the bytes that the receiver writes are those of the video, but for the first two of each frame, which are the number of
the frame, counted from where the frame counter stood. -/
theorem frames_numbered (hp : cfg.pureBt656 = false) (he : cfg.embFrameCnt = true) {es : List StatusTick} {t : Logged}
    {xs : Nat → VideoIn}
    (hpaced : StepsMeet (Logged.step cfg) (Paced cfg) (enabled mem sizeStatus counts, .start) es)
    (h : exec (Logged.step cfg) (enabled mem sizeStatus counts, .start) es = some t) (hx : Extends xs t.2.samples)
    (hl : LongLines xs) (hq : QuietStarts xs) (hfull : ∀ k, (xs k).dataFifoFull = false) :
    t.2.bytes = (List.range (t.2.samples.length - 1)).filterMap (numberedByte counts.rxFrameCnts xs) := by
  have hnum := run_numbered mem sizeStatus counts hp hpaced h hx
  rw [hnum.bytes]
  cases hn : t.2.samples.length with
  | zero => rfl
  | succ n =>
    apply written_eq_numbered hp he hl hq hfull
    intro r hr hrise
    exact hnum.number r (by omega) hrise

/-- Two frames of one line of three bytes, on pins that are low behind them. -/
def twoFramesPins (k : Nat) : StatusIn :=
  ⟨k % 10 == 1 && decide (k < 20), decide (5 ≤ k % 10 ∧ k % 10 ≤ 7 ∧ k < 20), BitVec.ofNat 8 k, false⟩

def twoFramesTicks : List StatusTick :=
  (List.range 20).flatMap fun k => [⟨none, some false⟩, ⟨some (twoFramesPins k), none⟩, ⟨none, some false⟩]

/-- What the receiver samples, with a frame counter that stands at 255 before. -/
def twoFramesVideo (k : Nat) : VideoIn where
  vsync := (twoFramesPins k).vsync
  href := (twoFramesPins k).href
  data := (twoFramesPins k).data
  frameCnts := if k < 4 then 255 else if k < 14 then 256 else 257
  syncRstSizeErr := false
  dataFifoFull := false

deriving instance DecidableEq for VideoIn

theorem longLines_twoFrames : LongLines twoFramesVideo := by
  intro k h
  simp only [twoFramesVideo, twoFramesPins, decide_eq_true_eq] at h ⊢
  omega

theorem quietStarts_twoFrames : QuietStarts twoFramesVideo := by
  rintro r ⟨-, -, h⟩
  simp only [twoFramesVideo, twoFramesPins, Bool.and_eq_true, beq_iff_eq, decide_eq_true_eq, decide_eq_false_iff_not] at h ⊢
  omega

/-- The frames carry the numbers 255 and 256. -/
theorem frames_numbered_twoFrames : ∃ t,
    exec (Logged.step ⟨false, true⟩) (enabled (fun _ => 0) 0 ⟨0, 0, 255⟩, .start) twoFramesTicks = some t ∧
      t.2.bytes = [0, 255, 7, 1, 0, 17] ∧
      t.2.bytes = (List.range (t.2.samples.length - 1)).filterMap (numberedByte 255 twoFramesVideo) := by
  obtain ⟨t, ht, hbytes, hsamples⟩ := @exists_exec _ _ (Logged.step ⟨false, true⟩)
    (fun t => t.2.bytes = [0, 255, 7, 1, 0, 17] ∧ t.2.samples = (List.range 20).map twoFramesVideo) _
    (enabled (fun _ => 0) 0 ⟨0, 0, 255⟩, .start) twoFramesTicks (by decide)
  refine ⟨t, ht, hbytes, ?_⟩
  apply frames_numbered (fun _ => 0) 0 ⟨0, 0, 255⟩ rfl rfl (by decide +kernel) ht ?_ longLines_twoFrames quietStarts_twoFrames
    (fun _ => rfl)
  rw [hsamples]
  exact extends_range _ _

end StatusPath

end RcCarControl.Fpga
