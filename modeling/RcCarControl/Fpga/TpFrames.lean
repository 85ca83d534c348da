import RcCarControl.Fpga.AxiStreamTpGen
import RcCarControl.Lib.Framing
import RcCarControl.Lib.Runs

/-!
# The frames of the test pattern generator

The beats transferred are logged with the size sampled at the last start.  They form well-formed frames as long as a
start finds the pixel counter at 0, or comes between two frames, or samples the size of the frame it comes into
(`GoodStart`).  Nothing clears the pixel counter when the blanking ends in a stop, and the configuration registers
are loaded at a start whatever the state is.
-/

namespace RcCarControl.Fpga

open Lts Framing

/-- A size of frames: `tp_width_i` and `tp_height_i`. -/
structure TpSize where
  width : Nat
  height : Nat
deriving DecidableEq

/-- The beat for pixel `p` of line `l`. -/
def tpBeat (c : TpSize) (l p : Nat) : Beat where
  tdata := BitVec.ofNat 4 l ++ BitVec.ofNat 4 p
  tlast := p + 1 == c.width
  tuser := l == 0 && p == 0

/-- A frame: `height` lines of `width` beats. -/
def tpFrame (c : TpSize) : List Beat :=
  (List.range c.height).flatMap fun l => (List.range c.width).map fun p => tpBeat c l p

/-- The size sampled at the last start, and the beats transferred with the size sampled before each of them. -/
structure TpLog where
  sampled : TpSize
  beats : List (Beat × TpSize)
deriving DecidableEq

def TpLog.note (s : TpGen) (x : TpGenIn) (m : TpLog) : TpLog where
  sampled := if s.genStart then ⟨x.tpWidth.toNat, x.tpHeight.toNat⟩ else m.sampled
  beats := m.beats ++ (s.beat x).toList.map fun b => (b, m.sampled)

namespace TpGen

/-- A clock of the generator and of the log. -/
def step : TpGen × TpLog → TpGenIn → Option (TpGen × TpLog) := withGhost (fun s x => some (s.clock x)) TpLog.note

/-- Out of reset. -/
def start : TpGen × TpLog := (reset, ⟨⟨0, 0⟩, []⟩)

/-- A width and a height sampled at a start are at least 1. -/
def SizedStart (r : TpGen × TpLog) (x : TpGenIn) : Prop := r.1.genStart = true → 1 ≤ x.tpWidth ∧ 1 ≤ x.tpHeight

/-- After the clock a frame is begun and not complete. -/
def FrameOpen (s : TpGen) (x : TpGenIn) : Prop :=
  s.state = .vdata ∧
    if x.tready then ¬ (s.lastPixel = true ∧ s.lastLine = true) else ¬ (s.pixelCnt = 0 ∧ s.lineCnt = 0)

/-- A start from idle finds the pixel counter at 0, and a start inside a frame samples the size of the frame. -/
def GoodStart (r : TpGen × TpLog) (x : TpGenIn) : Prop :=
  r.1.genStart = true → (r.1.state = .idle → r.1.pixelCnt = 0) ∧
    (r.1.FrameOpen x → x.tpWidth = r.1.widthR ∧ x.tpHeight = r.1.heightR)

/-- What holds before every clock: the registers hold the sampled size, and in the data state the counters are the
position in the frame that is being sent. -/
structure Framed (s : TpGen) (m : TpLog) : Prop where
  sampled : m.sampled = ⟨s.widthR.toNat, s.heightR.toNat⟩
  sized : s.state ≠ .idle → 0 < s.widthR.toNat ∧ 0 < s.heightR.toNat
  position : s.state = .vdata → s.pixelCnt.toNat < s.widthR.toNat ∧ s.lineCnt.toNat < s.heightR.toNat ∧
    Sent tpFrame m.sampled (s.lineCnt.toNat * s.widthR.toNat + s.pixelCnt.toNat) m.beats
  between : s.state ≠ .vdata → s.lineCnt = 0 ∧ Sent tpFrame m.sampled 0 m.beats

end TpGen

/-! ### The frame -/

theorem tpFrame_eq_map (c : TpSize) (hc : 0 < c.width) :
    tpFrame c = (List.range (c.height * c.width)).map fun i => tpBeat c (i / c.width) (i % c.width) := by
  obtain ⟨w, h⟩ := c
  have line (l : Nat) : (List.range w).map (fun p => tpBeat ⟨w, h⟩ l p) =
      (List.range w).map fun p => tpBeat ⟨w, h⟩ ((l * w + p) / w) ((l * w + p) % w) := by
    refine List.map_congr_left fun p hp => ?_
    have hp : p < w := List.mem_range.1 hp
    rw [Nat.mul_comm l w, Nat.mul_add_div hc, Nat.div_eq_of_lt hp, Nat.mul_add_mod, Nat.mod_eq_of_lt hp, Nat.add_zero]
  have lines (n : Nat) : ((List.range n).flatMap fun l => (List.range w).map fun p => tpBeat ⟨w, h⟩ l p) =
      (List.range (n * w)).map fun i => tpBeat ⟨w, h⟩ (i / w) (i % w) := by
    induction n with
    | zero => simp
    | succ n ih =>
      rw [List.range_succ, List.flatMap_append, ih, Nat.succ_mul, List.range_add, List.map_append, List.map_map]
      simp only [List.flatMap_cons, List.flatMap_nil, List.append_nil, line]
      rfl
  exact lines h

theorem tpFrame_length (c : TpSize) : (tpFrame c).length = c.height * c.width := by simp [tpFrame]

theorem tpFrame_getElem? {c : TpSize} {l p : Nat} (hl : l < c.height) (hp : p < c.width) :
    (tpFrame c)[l * c.width + p]? = some (tpBeat c l p) := by
  have hc : 0 < c.width := Nat.zero_lt_of_lt hp
  have hlt : l * c.width + p < c.height * c.width := by
    calc l * c.width + p < l * c.width + c.width := Nat.add_lt_add_left hp _
      _ = (l + 1) * c.width := (Nat.succ_mul l c.width).symm
      _ ≤ c.height * c.width := Nat.mul_le_mul_right _ hl
  rw [tpFrame_eq_map c hc, List.getElem?_map, List.getElem?_range hlt, Option.map_some, Nat.mul_comm l,
    Nat.mul_add_div hc, Nat.div_eq_of_lt hp, Nat.mul_add_mod, Nat.mod_eq_of_lt hp, Nat.add_zero]

namespace TpGen

variable {s : TpGen} {x : TpGenIn} {m : TpLog}

/-! ### The clocks of the data state -/

theorem lastPixel_iff (hw : 0 < s.widthR.toNat) : s.lastPixel = true ↔ s.pixelCnt.toNat + 1 = s.widthR.toNat := by
  rw [lastPixel, beq_iff_eq]
  exact cnt_eq_sub_one_iff (by omega) (by omega) hw

theorem lastLine_iff (hh : 0 < s.heightR.toNat) : s.lastLine = true ↔ s.lineCnt.toNat + 1 = s.heightR.toNat := by
  rw [lastLine, beq_iff_eq]
  exact cnt_eq_sub_one_iff (by omega) (by omega) hh

/-- A pixel that is not the last of its line has a next one. -/
theorem next_pixel (hp : s.pixelCnt.toNat < s.widthR.toNat) (hlp : s.lastPixel = false) :
    s.pixelCnt.toNat + 1 < s.widthR.toNat ∧ (s.pixelCnt + 1).toNat = s.pixelCnt.toNat + 1 := by
  have hne : s.pixelCnt.toNat + 1 ≠ s.widthR.toNat := fun he => by
    rw [(lastPixel_iff (Nat.zero_lt_of_lt hp)).2 he] at hlp
    cases hlp
  have hbound := s.widthR.isLt
  refine ⟨by omega, ?_⟩
  rw [BitVec.toNat_add, show (1 : BitVec 24).toNat = 1 from rfl]
  omega

/-- A line that is not the last of its frame has a next one. -/
theorem next_line (hl : s.lineCnt.toNat < s.heightR.toNat) (hll : s.lastLine = false) :
    s.lineCnt.toNat + 1 < s.heightR.toNat ∧ (s.lineCnt + 1).toNat = s.lineCnt.toNat + 1 := by
  have hne : s.lineCnt.toNat + 1 ≠ s.heightR.toNat := fun he => by
    rw [(lastLine_iff (Nat.zero_lt_of_lt hl)).2 he] at hll
    cases hll
  have hbound := s.heightR.isLt
  refine ⟨by omega, ?_⟩
  rw [BitVec.toNat_add, show (1 : BitVec 11).toNat = 1 from rfl]
  omega

theorem beat_eq_none (h : s.state ≠ .vdata ∨ x.tready = false) : s.beat x = none := by
  obtain h | h := h
  · cases hs : s.state with
    | idle => simp [beat, comb, hs]
    | blanking => simp only [beat, comb, hs]; split <;> [skip; split] <;> rfl
    | vdata => exact absurd hs h
  · simp [beat, h]

/-- A transfer carries the beat of the position. -/
theorem beat_vdata (hst : s.state = .vdata) (hr : x.tready = true) (hw : 0 < s.widthR.toNat) :
    s.beat x = some (tpBeat ⟨s.widthR.toNat, s.heightR.toNat⟩ s.lineCnt.toNat s.pixelCnt.toNat) := by
  have hlast : s.lastPixel = (s.pixelCnt.toNat + 1 == s.widthR.toNat) := by
    rw [Bool.eq_iff_iff, lastPixel_iff hw, beq_iff_eq]
  have hfirst : (s.pixelCnt == 0 && s.lineCnt == 0) = (s.lineCnt.toNat == 0 && s.pixelCnt.toNat == 0) := by
    rw [Bool.eq_iff_iff]
    simp [BitVec.toNat_eq, and_comm]
  simp [beat, comb, hst, hr, tpBeat, tdata, hlast, ← hfirst, BitVec.ofNat_toNat]

/-- Without TREADY the position stays. -/
theorem clock_wait (hst : s.state = .vdata) (hr : x.tready = false) :
    (s.clock x).state = .vdata ∧ (s.clock x).pixelCnt = s.pixelCnt ∧ (s.clock x).lineCnt = s.lineCnt := by
  simp [clock, comb, hst, hr]

/-- A transfer inside a line. -/
theorem clock_pixel (hst : s.state = .vdata) (hr : x.tready = true) (hp : s.lastPixel = false) :
    (s.clock x).state = .vdata ∧ (s.clock x).pixelCnt = s.pixelCnt + 1 ∧ (s.clock x).lineCnt = s.lineCnt := by
  simp [clock, comb, hst, hr, hp]

/-- The transfer at the end of a line that is not the last. -/
theorem clock_line (hst : s.state = .vdata) (hr : x.tready = true) (hp : s.lastPixel = true)
    (hl : s.lastLine = false) :
    (s.clock x).state = .vdata ∧ (s.clock x).pixelCnt = 0 ∧ (s.clock x).lineCnt = s.lineCnt + 1 := by
  simp [clock, comb, hst, hr, hp, hl]

/-- The last transfer of a frame. -/
theorem clock_frame (hst : s.state = .vdata) (hr : x.tready = true) (hp : s.lastPixel = true)
    (hl : s.lastLine = true) : (s.clock x).state = .blanking ∧ (s.clock x).lineCnt = 0 := by
  simp [clock, comb, hst, hr, hp, hl]

/-! ### One clock -/

/-- The size in the registers after a clock is the one sampled last. -/
theorem sampled_note (h : m.sampled = ⟨s.widthR.toNat, s.heightR.toNat⟩) :
    (TpLog.note s x m).sampled = ⟨(s.clock x).widthR.toNat, (s.clock x).heightR.toNat⟩ := by
  cases hg : s.genStart <;> simp [TpLog.note, clock, hg, h]

/-- A start that samples the size in the registers, or no start, keeps them. -/
theorem clock_sameSize (h : s.genStart = true → x.tpWidth = s.widthR ∧ x.tpHeight = s.heightR) :
    (s.clock x).widthR = s.widthR ∧ (s.clock x).heightR = s.heightR := by
  cases hg : s.genStart with
  | false => simp [clock, hg]
  | true => simp [clock, hg, h hg]

/-- Sizes stay at least 1. -/
theorem clock_sized (h : s.genStart = true → 1 ≤ x.tpWidth ∧ 1 ≤ x.tpHeight)
    (h' : s.genStart = true ∨ 0 < s.widthR.toNat ∧ 0 < s.heightR.toNat) :
    0 < (s.clock x).widthR.toNat ∧ 0 < (s.clock x).heightR.toNat := by
  cases hg : s.genStart with
  | false =>
    obtain h' | h' := h'
    · rw [hg] at h'
      cases h'
    · simpa [clock, hg] using h'
  | true =>
    obtain ⟨hw, hh⟩ := h hg
    rw [BitVec.le_def] at hw hh
    simpa [clock, hg] using ⟨hw, hh⟩

/-- A clock that transfers nothing only takes a sample. -/
theorem note_of_no_beat (h : s.beat x = none) : (TpLog.note s x m).beats = m.beats := by simp [TpLog.note, h]

theorem note_of_beat {b : Beat} (h : s.beat x = some b) : (TpLog.note s x m).beats = m.beats ++ [(b, m.sampled)] := by
  simp [TpLog.note, h]

theorem framed_start : Framed reset ⟨⟨0, 0⟩, []⟩ :=
  ⟨rfl, fun h => absurd rfl h, nofun, fun _ => ⟨rfl, sent_nil⟩⟩

/-- Between two frames a sample of the size takes effect for the next one. -/
theorem Framed.between_note (h : Framed s m) (x : TpGenIn) (hst : s.state ≠ .vdata) :
    s.lineCnt = 0 ∧ Sent tpFrame (TpLog.note s x m).sampled 0 (TpLog.note s x m).beats := by
  obtain ⟨hline, hsent⟩ := h.between hst
  refine ⟨hline, ?_⟩
  rw [note_of_no_beat (beat_eq_none (Or.inl hst))]
  exact hsent.reformat _

/-- A clock of a generator that is idle. -/
theorem Framed.idle (h : Framed s m) (hs : SizedStart (s, m) x) (hg : GoodStart (s, m) x) (hst : s.state = .idle) :
    Framed (s.clock x) (TpLog.note s x m) := by
  obtain ⟨hline, hsent'⟩ := h.between_note x (by rw [hst]; nofun)
  have hnext : (s.clock x).state = if s.genStart then .vdata else .idle := by simp [clock, comb, hst]
  have hcnts : (s.clock x).lineCnt = s.lineCnt ∧ (s.clock x).pixelCnt = s.pixelCnt := by simp [clock, comb, hst]
  cases hgs : s.genStart with
  | false =>
    rw [hgs] at hnext
    refine ⟨sampled_note h.sampled, fun hn => absurd hnext hn, fun hn => ?_, fun _ => ⟨hcnts.1.trans hline, hsent'⟩⟩
    rw [hnext] at hn
    cases hn
  | true =>
    rw [hgs] at hnext
    have hsized := clock_sized hs (Or.inl hgs)
    have hpixel : (s.clock x).pixelCnt = 0 := hcnts.2.trans ((hg hgs).1 hst)
    refine ⟨sampled_note h.sampled, fun _ => hsized, fun _ => ?_, fun hn => absurd hnext hn⟩
    rw [hcnts.1, hline, hpixel]
    exact ⟨hsized.1, hsized.2, by simpa using hsent'⟩

/-- A clock of the blanking. -/
theorem Framed.blanking (h : Framed s m) (hs : SizedStart (s, m) x) (hst : s.state = .blanking) :
    Framed (s.clock x) (TpLog.note s x m) := by
  obtain ⟨hline, hsent'⟩ := h.between_note x (by rw [hst]; nofun)
  have hsized := clock_sized hs (Or.inr (h.sized (by rw [hst]; nofun)))
  have hline' : (s.clock x).lineCnt = 0 := by
    rw [← hline]
    simp only [clock, comb, hst]
    split <;> [skip; split] <;> rfl
  refine ⟨sampled_note h.sampled, fun _ => hsized, fun hn => ?_, fun _ => ⟨hline', hsent'⟩⟩
  -- the blanking ends in a frame by clearing the pixel counter
  have hpixel : (s.clock x).pixelCnt = 0 := by
    by_cases hb : s.blankingR ≤ s.pixelCnt
    · simp [clock, comb, hst, hb]
    · have hno : (s.clock x).state ≠ .vdata := by
        simp only [clock, comb, hst, hb, if_false]
        split <;> nofun
      exact absurd hn hno
  rw [hline', hpixel]
  exact ⟨hsized.1, hsized.2, by simpa using hsent'⟩

/-- Inside a frame the size stays what it is. -/
theorem Framed.sameSize (h : Framed s m) (hg : GoodStart (s, m) x) (ho : s.FrameOpen x) :
    (s.clock x).widthR = s.widthR ∧ (s.clock x).heightR = s.heightR ∧ (TpLog.note s x m).sampled = m.sampled := by
  obtain ⟨hw, hh⟩ := clock_sameSize (x := x) fun hgs => (hg hgs).2 ho
  exact ⟨hw, hh, by rw [sampled_note h.sampled, hw, hh, h.sampled]⟩

/-- A clock of the data state without TREADY. -/
theorem Framed.wait (h : Framed s m) (hs : SizedStart (s, m) x) (hg : GoodStart (s, m) x) (hst : s.state = .vdata)
    (hr : x.tready = false) : Framed (s.clock x) (TpLog.note s x m) := by
  obtain ⟨hp, hl, hsent⟩ := h.position hst
  have hsized := clock_sized hs (Or.inr (h.sized (by rw [hst]; nofun)))
  obtain ⟨hst', hpix, hlin⟩ := clock_wait hst hr
  have hbeat : (TpLog.note s x m).beats = m.beats := note_of_no_beat (beat_eq_none (Or.inr hr))
  refine ⟨sampled_note h.sampled, fun _ => hsized, fun _ => ?_, fun hn => absurd hst' hn⟩
  rw [hpix, hlin, hbeat]
  by_cases hzero : s.pixelCnt = 0 ∧ s.lineCnt = 0
  · -- no beat of the frame was sent, so it may get a new size
    have hsent₀ : Sent tpFrame m.sampled 0 m.beats := by simpa [hzero] using hsent
    rw [hzero.1, hzero.2]
    exact ⟨hsized.1, hsized.2, by simpa using hsent₀.reformat _⟩
  · obtain ⟨hw, hh, hsame⟩ := h.sameSize hg ⟨hst, by simpa [hr] using hzero⟩
    rw [hw, hh, hsame]
    exact ⟨hp, hl, hsent⟩

/-- A transfer sends the next beat of the frame. -/
theorem Framed.transfer (h : Framed s m) (hst : s.state = .vdata) (hr : x.tready = true) :
    Sent tpFrame m.sampled (s.lineCnt.toNat * s.widthR.toNat + s.pixelCnt.toNat + 1) (TpLog.note s x m).beats := by
  obtain ⟨hp, hl, hsent⟩ := h.position hst
  rw [note_of_beat (beat_vdata hst hr (Nat.zero_lt_of_lt hp))]
  refine hsent.append ?_ fun _ => rfl
  rw [h.sampled]
  exact tpFrame_getElem? hl hp

/-- A transfer inside a line. -/
theorem Framed.pixel (h : Framed s m) (hs : SizedStart (s, m) x) (hg : GoodStart (s, m) x) (hst : s.state = .vdata)
    (hr : x.tready = true) (hlp : s.lastPixel = false) : Framed (s.clock x) (TpLog.note s x m) := by
  obtain ⟨hw, hh⟩ := h.sized (by rw [hst]; nofun)
  obtain ⟨hp, hl, -⟩ := h.position hst
  obtain ⟨hst', hpix, hlin⟩ := clock_pixel hst hr hlp
  obtain ⟨hw', hh', hsame⟩ := h.sameSize hg ⟨hst, by simp [hr, hlp]⟩
  obtain ⟨hmore, hadd⟩ := next_pixel hp hlp
  refine ⟨sampled_note h.sampled, fun _ => clock_sized hs (Or.inr ⟨hw, hh⟩), fun _ => ?_, fun hn => absurd hst' hn⟩
  rw [hpix, hlin, hw', hh', hsame, hadd]
  exact ⟨hmore, hl, h.transfer hst hr⟩

/-- The transfer at the end of a line that is not the last. -/
theorem Framed.line (h : Framed s m) (hs : SizedStart (s, m) x) (hg : GoodStart (s, m) x) (hst : s.state = .vdata)
    (hr : x.tready = true) (hlp : s.lastPixel = true) (hll : s.lastLine = false) :
    Framed (s.clock x) (TpLog.note s x m) := by
  obtain ⟨hw, hh⟩ := h.sized (by rw [hst]; nofun)
  obtain ⟨hp, hl, -⟩ := h.position hst
  obtain ⟨hst', hpix, hlin⟩ := clock_line hst hr hlp hll
  obtain ⟨hw', hh', hsame⟩ := h.sameSize hg ⟨hst, by simp [hr, hll]⟩
  have hpe := (lastPixel_iff hw).1 hlp
  obtain ⟨hmore, hadd⟩ := next_line hl hll
  have hidx : s.lineCnt.toNat * s.widthR.toNat + s.pixelCnt.toNat + 1 = (s.lineCnt.toNat + 1) * s.widthR.toNat := by
    rw [Nat.succ_mul]
    omega
  have hsent := h.transfer hst hr
  rw [hidx] at hsent
  refine ⟨sampled_note h.sampled, fun _ => clock_sized hs (Or.inr ⟨hw, hh⟩), fun _ => ?_, fun hn => absurd hst' hn⟩
  rw [hpix, hlin, hw', hh', hsame, hadd]
  exact ⟨hw, hmore, hsent⟩

/-- The last transfer of a frame. -/
theorem Framed.frame (h : Framed s m) (hs : SizedStart (s, m) x) (hst : s.state = .vdata) (hr : x.tready = true)
    (hlp : s.lastPixel = true) (hll : s.lastLine = true) : Framed (s.clock x) (TpLog.note s x m) := by
  obtain ⟨hw, hh⟩ := h.sized (by rw [hst]; nofun)
  obtain ⟨hst', hlin⟩ := clock_frame hst hr hlp hll
  have hpe := (lastPixel_iff hw).1 hlp
  have hle := (lastLine_iff hh).1 hll
  have hlen : s.lineCnt.toNat * s.widthR.toNat + s.pixelCnt.toNat + 1 = (tpFrame m.sampled).length := by
    rw [tpFrame_length, h.sampled, ← hle, Nat.succ_mul]
    show _ = s.lineCnt.toNat * s.widthR.toNat + s.widthR.toNat
    omega
  refine ⟨sampled_note h.sampled, fun _ => clock_sized hs (Or.inr ⟨hw, hh⟩), fun hn => ?_, fun _ => ⟨hlin, ?_⟩⟩
  · rw [hst'] at hn
    cases hn
  · exact (h.transfer hst hr).complete hlen (Nat.succ_pos _) _

/-! ### Runs -/

/-- A clock in which starts are sized and good keeps the frames. -/
theorem Framed.step {r t : TpGen × TpLog} (h : Framed r.1 r.2) (hs : SizedStart r x) (hg : GoodStart r x)
    (ht : step r x = some t) : Framed t.1 t.2 := by
  cases ht
  cases hst : r.1.state with
  | idle => exact h.idle hs hg hst
  | blanking => exact h.blanking hs hst
  | vdata =>
    cases hr : x.tready with
    | false => exact h.wait hs hg hst hr
    | true =>
      cases hlp : r.1.lastPixel with
      | false => exact h.pixel hs hg hst hr hlp
      | true =>
        cases hll : r.1.lastLine with
        | false => exact h.line hs hg hst hr hlp hll
        | true => exact h.frame hs hst hr hlp hll

/-- After every run in which the sizes sampled are at least 1 and the starts are good, the beats transferred form
well-formed frames. -/
theorem wellFormed_of_goodStart {t : TpGen × TpLog} {xs : List TpGenIn} (hs : StepsMeet step SizedStart start xs)
    (hg : StepsMeet step GoodStart start xs) (h : exec step start xs = some t) : WellFormed tpFrame t.2.beats := by
  have keep : ∀ r x t, Framed r.1 r.2 → SizedStart r x ∧ GoodStart r x → step r x = some t → Framed t.1 t.2 :=
    fun r x t hr hx ht => hr.step hx.1 hx.2 ht
  have hframed : Framed t.1 t.2 := exec_invariant keep framed_start (hs.and hg) h
  cases hst : t.1.state with
  | vdata => exact (hframed.position hst).2.2.wellFormed
  | idle => exact (hframed.between (by rw [hst]; nofun)).2.wellFormed
  | blanking => exact (hframed.between (by rw [hst]; nofun)).2.wellFormed

/-- A stop leaves the pixel counter above 0, so the next start from idle is not good. -/
theorem pixelCnt_of_stop (hst : s.state = .blanking) (hstop : (s.clock x).state = .idle) :
    0 < (s.clock x).pixelCnt.toNat := by
  have hb : ¬ s.blankingR ≤ s.pixelCnt := fun hb => by simp [clock, comb, hst, hb] at hstop
  have hpixel : (s.clock x).pixelCnt = s.pixelCnt + 1 := by
    simp only [clock, comb, hst, hb, if_false]
    split <;> rfl
  have hlt := s.blankingR.isLt
  rw [BitVec.not_le, BitVec.lt_def] at hb
  rw [hpixel, BitVec.toNat_add, show (1 : BitVec 24).toNat = 1 from rfl]
  omega

instance (r : TpGen × TpLog) (x : TpGenIn) : Decidable (SizedStart r x) := inferInstanceAs (Decidable (_ → _))

instance (s : TpGen) (x : TpGenIn) : Decidable (s.FrameOpen x) := inferInstanceAs (Decidable (_ ∧ ite _ _ _))

instance (r : TpGen × TpLog) (x : TpGenIn) : Decidable (GoodStart r x) := inferInstanceAs (Decidable (_ → _ ∧ _))

/-- The inputs of a run with frames of one line and a blanking of 4: `tp_enable_i`, the width and TREADY. -/
def inputs (xs : List (Bool × BitVec 11 × Bool)) : List TpGenIn :=
  xs.map fun (tpEnable, tpWidth, tready) => ⟨tpEnable, tpWidth, 1, 0, 3, tready⟩

/-- Two frames of two pixels, the second one after the blanking. -/
def twoFrames : List TpGenIn := inputs (List.replicate 12 (true, 2, true))

theorem wellFormed_twoFrames : ∃ t, exec step start twoFrames = some t ∧ t.2.beats.length = 4 ∧
    WellFormed tpFrame t.2.beats := by
  have hlen : (exec step start twoFrames).map (fun t => t.2.beats.length) = some 4 := by decide
  obtain ⟨t, ht, hbeats⟩ := Option.map_eq_some_iff.1 hlen
  exact ⟨t, ht, hbeats, wellFormed_of_goodStart (by decide) (by decide) ht⟩

/-- Frames of one pixel; the generator is stopped in the blanking and started again. -/
def restart : List TpGenIn :=
  inputs [(true, 1, true), (false, 1, true), (false, 1, true), (false, 1, true), (true, 1, true), (true, 1, true),
    (true, 1, true), (true, 1, true)]

/-- A frame of two pixels; between them the enable falls and rises, with a width of 1. -/
def resize : List TpGenIn :=
  inputs [(true, 2, true), (true, 2, true), (true, 2, true), (false, 2, true), (true, 1, false), (true, 1, false),
    (true, 1, false), (true, 1, true)]

/-- After the restart the first beat of a frame has no `TUSER[0]`, after the new width the frame goes on beyond its
last pixel without TLAST. -/
theorem not_wellFormed_restart_resize :
    (StepsMeet step SizedStart start restart ∧
      ∃ t, exec step start restart = some t ∧ ¬ WellFormed tpFrame t.2.beats) ∧
    StepsMeet step SizedStart start resize ∧
      ∃ t, exec step start resize = some t ∧ ¬ WellFormed tpFrame t.2.beats := by
  refine ⟨⟨by decide, ?_⟩, by decide, ?_⟩
  · have hbeats : (exec step start restart).map (fun t => t.2.beats) =
        some [(⟨0, true, true⟩, ⟨1, 1⟩), (⟨1, false, false⟩, ⟨1, 1⟩)] := by decide
    obtain ⟨t, ht, hlog⟩ := Option.map_eq_some_iff.1 hbeats
    refine ⟨t, ht, fun h => ?_⟩
    rw [hlog] at h
    exact absurd (h.forall_mem (P := fun b => b.tuser = true) (by decide)) (by decide)
  · have hbeats : (exec step start resize).map (fun t => t.2.beats) =
        some [(⟨0, false, true⟩, ⟨2, 1⟩), (⟨1, false, false⟩, ⟨1, 1⟩)] := by decide
    obtain ⟨t, ht, hlog⟩ := Option.map_eq_some_iff.1 hbeats
    refine ⟨t, ht, fun h => ?_⟩
    rw [hlog] at h
    exact absurd (h.forall_mem (P := fun b => (b.tuser || b.tlast) = true) (by decide)) (by decide)

end TpGen

end RcCarControl.Fpga
