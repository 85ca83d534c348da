import RcCarControl.Fpga.SysCtrlTop
import Mathlib.Data.List.Induction

/-!
# What `video_meas` measures

`fpga/rtl/sys_ctrl/video_meas.sv` beside a log of the beats that pass: the frames, their lines and their beats.  The
counter of the frame length is cleared at the start-of-frame beat and so does not count it, and every fall of TVALID
clears it once more: the length reported is below the length of the frame whatever passes (`not_reports`), and one
short where TVALID does not fall (`frameLen_of_steady`).
-/

namespace RcCarControl.Fpga

namespace MeasIn

variable (i : MeasIn)

def isBeat : Bool := i.tready && i.tvalid

/-- A start-of-frame beat. -/
def isSof : Bool := i.isBeat && i.tuser

/-- An end-of-line beat. -/
def isEol : Bool := i.isBeat && i.tlast

end MeasIn

/-- The beats that passed: the frames begun, the beats and lines of the frame and the line under way, and those of the
last frame and the last line that ended. -/
structure MeasLog where
  frames : Nat
  beats : Nat
  lines : Nat
  lineBeats : Nat
  endedBeats : Nat
  endedLines : Nat
  endedLineBeats : Nat
deriving DecidableEq

namespace MeasLog

def empty : MeasLog := ⟨0, 0, 0, 0, 0, 0, 0⟩

/-- A frame begins with the beat, and with it a line. -/
def begin (l : MeasLog) : MeasLog :=
  { l with
    frames := l.frames + 1
    beats := 0
    lines := 0
    lineBeats := 0
    endedBeats := l.beats
    endedLines := l.lines }

/-- A beat is counted in its frame and its line, which it may end. -/
def count (l : MeasLog) (eol : Bool) : MeasLog :=
  if eol then
    { l with beats := l.beats + 1, lines := l.lines + 1, lineBeats := 0, endedLineBeats := l.lineBeats + 1 }
  else { l with beats := l.beats + 1, lineBeats := l.lineBeats + 1 }

def note (l : MeasLog) (i : MeasIn) : MeasLog :=
  if i.isBeat then (if i.isSof then l.begin else l).count i.isEol else l

end MeasLog

namespace VideoMeasRegs

/-- The registers and the log after the clocks, with `video_meas_en_i` at 1 from reset. -/
def measured : List MeasIn → VideoMeasRegs × MeasLog :=
  List.foldl (fun r i => (r.1.clock true i, r.2.note i)) (reset, .empty)

/-- The outputs are those of the frame and the line that ended last, and of the frames begun. -/
structure Reports (m : VideoMeasRegs) (l : MeasLog) : Prop where
  lines : m.videoLinesCntO.toNat = l.endedLines
  frameLen : m.videoFrameLenO.toNat = l.endedBeats
  pixels : m.videoPixelCntO.toNat = l.endedLineBeats
  frames : m.frameCnt = BitVec.ofNat 8 l.frames

variable {m : VideoMeasRegs} {l : MeasLog} {i : MeasIn}

theorem measured_concat (is : List MeasIn) (i : MeasIn) :
    measured (is ++ [i]) = ((measured is).1.clock true i, (measured is).2.note i) :=
  List.foldl_concat _ _ _ _

/-! ### The frame length -/

/-- The counter at a clock: cleared by a start-of-frame beat and by a fall of TVALID, and counting the other beats. -/
theorem clock_frameLen (m : VideoMeasRegs) (i : MeasIn) :
    (m.clock true i).frameLen =
      if i.isSof || m.tvalidD && !i.tvalid then 0 else if i.isBeat then m.frameLen + 1 else m.frameLen := by
  obtain ⟨tready, tvalid, tuser, tlast⟩ := i
  cases hd : m.tvalidD <;> cases tready <;> cases tvalid <;> cases tuser <;> cases tlast <;>
    simp [clock, hd, MeasIn.isSof, MeasIn.isBeat]

/-- A start-of-frame beat shows the counter. -/
theorem clock_videoFrameLenO (m : VideoMeasRegs) (h : i.isSof = true) :
    (m.clock true i).videoFrameLenO = m.frameLen := by
  obtain ⟨hbeat, htuser⟩ := Bool.and_eq_true_iff.1 h
  obtain ⟨htready, htvalid⟩ := Bool.and_eq_true_iff.1 hbeat
  cases htlast : i.tlast <;> simp [clock, htready, htvalid, htuser, htlast]

theorem note_sof (l : MeasLog) (h : i.isSof = true) :
    (l.note i).beats = 1 ∧ (l.note i).frames = l.frames + 1 ∧ (l.note i).endedBeats = l.beats := by
  have hbeat : i.isBeat = true := (Bool.and_eq_true_iff.1 h).1
  unfold MeasLog.note
  rw [if_pos hbeat, if_pos h]
  cases i.isEol <;> exact ⟨rfl, rfl, rfl⟩

theorem note_beat (l : MeasLog) (hbeat : i.isBeat = true) (hsof : i.isSof = false) :
    (l.note i).beats = l.beats + 1 ∧ (l.note i).frames = l.frames := by
  unfold MeasLog.note
  rw [if_pos hbeat, hsof]
  cases i.isEol <;> exact ⟨rfl, rfl⟩

theorem note_no_beat (l : MeasLog) (hbeat : i.isBeat = false) : l.note i = l := by
  unfold MeasLog.note
  rw [hbeat]
  rfl

/-- The counter is behind the beats of a frame that has begun. -/
def Behind (m : VideoMeasRegs) (l : MeasLog) : Prop := 1 ≤ l.frames → m.frameLen.toNat + 1 ≤ l.beats

theorem Behind.clock (h : Behind m l) (i : MeasIn) : Behind (m.clock true i) (l.note i) := by
  unfold Behind at h ⊢
  rw [clock_frameLen]
  cases hsof : i.isSof with
  | true =>
    intro _
    rw [(note_sof l hsof).1, Bool.true_or, if_pos rfl]
    exact Nat.le_refl _
  | false =>
    rw [Bool.false_or]
    cases hbeat : i.isBeat with
    | true =>
      have htvalid : i.tvalid = true := (Bool.and_eq_true_iff.1 hbeat).2
      obtain ⟨hbeats, hframes⟩ := note_beat l hbeat hsof
      rw [hbeats, hframes, htvalid, Bool.not_true, Bool.and_false, if_neg Bool.false_ne_true, if_pos rfl]
      intro hone
      have hle := h hone
      have hnext : (m.frameLen + 1).toNat = (m.frameLen.toNat + 1) % 2 ^ 24 := BitVec.toNat_add _ _
      omega
    | false =>
      rw [note_no_beat l hbeat, if_neg Bool.false_ne_true]
      intro hone
      have hle := h hone
      split
      · change 0 + 1 ≤ l.beats
        omega
      · exact hle

theorem behind_measured (is : List MeasIn) : Behind (measured is).1 (measured is).2 := by
  induction is using List.reverseRecOn with
  | nil => nofun
  | append_singleton is i ih =>
    rw [measured_concat]
    exact ih.clock i

/-- Whatever passes, after a start-of-frame beat from the second on the frame length is below that of the frame that has
ended. -/
theorem frameLen_lt (is : List MeasIn) (hsof : i.isSof = true) (hone : 1 ≤ (measured is).2.frames) :
    (measured (is ++ [i])).1.videoFrameLenO.toNat < (measured (is ++ [i])).2.endedBeats := by
  rw [measured_concat]
  rw [clock_videoFrameLenO _ hsof, (note_sof _ hsof).2.2]
  exact behind_measured is hone

/-- After no start-of-frame beat from the second on the outputs are right. -/
theorem not_reports (is : List MeasIn) (hsof : i.isSof = true) (hone : 1 ≤ (measured is).2.frames) :
    ¬ Reports (measured (is ++ [i])).1 (measured (is ++ [i])).2 := by
  intro h
  have hlt := frameLen_lt is hsof hone
  rw [h.frameLen] at hlt
  exact Nat.lt_irrefl _ hlt

/-- A beat without gaps before it. -/
def beatOf (tuser tlast : Bool) : MeasIn := ⟨true, true, tuser, tlast⟩

theorem not_reports_second_frame :
    ¬ Reports (measured ([beatOf true false, beatOf false true] ++ [beatOf true false])).1
      (measured ([beatOf true false, beatOf false true] ++ [beatOf true false])).2 :=
  not_reports [beatOf true false, beatOf false true] (by decide) (by decide)

/-- After a frame of two beats, and no gap anywhere, the frame length is 1, and so far the line of two beats has 0. -/
theorem two_beats_reported_short :
    (measured [beatOf true false, beatOf false true, beatOf true false]).1.videoFrameLenO = 1 ∧
      (measured [beatOf true false, beatOf false true, beatOf true false]).2.endedBeats = 2 ∧
      (measured [beatOf true false, beatOf false true, beatOf true false]).1.videoPixelCntO = 0 ∧
      (measured [beatOf true false, beatOf false true, beatOf true false]).2.endedLineBeats = 2 := by
  decide

/-! ### Without gaps of TVALID -/

theorem exists_of_tvalidD (is : List MeasIn) (h : (measured is).1.tvalidD = true) : ∃ a ∈ is, a.tvalid = true := by
  induction is using List.reverseRecOn with
  | nil => cases h
  | append_singleton is i _ =>
    rw [measured_concat] at h
    exact ⟨i, List.mem_append_right _ List.mem_cons_self, h⟩

/-- Where TVALID stays up once it is up, the counter is one behind the beats of the frame. -/
theorem frameLen_of_steady {is : List MeasIn} (h : is.Pairwise fun a b => a.tvalid = true → b.tvalid = true)
    (hone : 1 ≤ (measured is).2.frames) : (measured is).1.frameLen + 1 = BitVec.ofNat 24 (measured is).2.beats := by
  induction is using List.reverseRecOn with
  | nil => cases hone
  | append_singleton is i ih =>
    obtain ⟨his, -, hup⟩ := List.pairwise_append.1 h
    rw [measured_concat] at hone ⊢
    change ((measured is).1.clock true i).frameLen + 1 = BitVec.ofNat 24 ((measured is).2.note i).beats
    have hfall : ((measured is).1.tvalidD && !i.tvalid) = false := by
      cases hd : (measured is).1.tvalidD with
      | false => rfl
      | true =>
        obtain ⟨a, ha, htvalid⟩ := exists_of_tvalidD is hd
        rw [hup a ha i List.mem_cons_self htvalid]
        rfl
    rw [clock_frameLen, hfall, Bool.or_false]
    cases hsof : i.isSof with
    | true =>
      rw [(note_sof _ hsof).1]
      rfl
    | false =>
      rw [if_neg Bool.false_ne_true]
      cases hbeat : i.isBeat with
      | true =>
        obtain ⟨hbeats, hframes⟩ := note_beat (measured is).2 hbeat hsof
        rw [hbeats, if_pos rfl, ih his (by rw [← hframes]; exact hone)]
        exact (BitVec.ofNat_add _ _).symm
      | false =>
        rw [note_no_beat _ hbeat] at hone ⊢
        rw [if_neg Bool.false_ne_true]
        exact ih his hone

end VideoMeasRegs

end RcCarControl.Fpga
