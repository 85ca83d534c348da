import RcCarControl.Fpga.FifoDrain
import RcCarControl.Fpga.FrameSize
import RcCarControl.Fpga.SyncRing
import RcCarControl.Lib.Runs

/-!
# The status of the receiver on the AXI clock

The three crossings of `fpga/rtl/video_ctrl/bt656_to_axi_stream.sv` between PCLK and the AXI clock: `size_status_fifo_i`
with the size words, `sync_new_frame_i` with the frame starts that the counters of the AXI clock count, and
`sync_rst_size_err_i` in the other direction.  The frame counter goes back to PCLK without a synchroniser and is embedded
in the picture.

When the AXI clock has an edge between any two of PCLK and frame starts are eight PCLKs apart, nothing is lost on the way:
the frame counter is three AXI clocks late and the size word two (`StatusPath.status_late`), and at every frame start the
counter that is embedded stands still at the number of the frame.
-/

namespace RcCarControl.Fpga

open Lts

/-- The pins and `data_fifo_full` at a rising PCLK. -/
structure StatusIn where
  vsync : Bool
  href : Bool
  data : BitVec 8
  dataFifoFull : Bool

/-- An instant at which PCLK, the AXI clock (with `rx_cfg.rst_size_err`) or both rise. -/
structure StatusTick where
  pclk : Option StatusIn
  aclk : Option Bool

theorem FrameLength.rxFrameCnts_clock (f : FrameLength) (pulse : Bool) :
    (f.clock true pulse).rxFrameCnts = f.rxFrameCnts + if pulse then 1 else 0 := by
  cases pulse
  · exact (BitVec.add_zero _).symm
  · rfl

structure StatusPath where
  rx : Bt656
  errSync : SyncPulse
  frameSync : SyncPulse
  sizeFifo : AsyncFifo 32 2
  counts : FrameLength

namespace StatusPath

/-- Enabled.  The counters of the AXI clock and the output of the FIFO are not reset with `rx_enable`. -/
def enabled (mem : BitVec 2 → BitVec 32) (sizeStatus : BitVec 32) (counts : FrameLength) : StatusPath :=
  ⟨.reset, .idle, .idle, .cleared mem sizeStatus, counts⟩

variable (cfg : Bt656Cfg) (s : StatusPath) (e : StatusTick)

/-- What the receiver samples. -/
def videoIn (x : StatusIn) : VideoIn :=
  ⟨x.vsync, x.href, x.data, s.counts.rxFrameCnts, s.errSync.bPulse, x.dataFifoFull⟩

/-- The write port of the size FIFO. -/
def sizeIn : Option (Bool × BitVec 32) := e.pclk.map fun _ => (s.rx.fifoWrite, s.rx.sizeFifoData)

def clock : StatusPath where
  rx :=
    match e.pclk with
    | none => s.rx
    | some x => s.rx.clock cfg (s.videoIn x)
  errSync := s.errSync.clock e.aclk e.pclk.isSome
  frameSync := s.frameSync.clock (e.pclk.map fun _ => s.rx.inNewFrame cfg) e.aclk.isSome
  sizeFifo := s.sizeFifo.clock (s.sizeIn e) (s.sizeFifo.drain e.aclk.isSome)
  counts := if e.aclk.isSome then s.counts.clock true s.frameSync.bPulse else s.counts

def step : Option StatusPath := some (s.clock cfg e)

/-- A frame starts at the instant. -/
def frameStarts : Bool := e.pclk.isSome && s.rx.inNewFrame cfg

/-- A size word is written at the instant. -/
def wordWritten : Bool := e.pclk.isSome && s.rx.fifoWrite

end StatusPath

/-- What has happened since enabling: the samples of the receiver, its bytes, the receiver at each size word that it wrote,
the queue of the FIFO and the frame starts, with the edges since the last start, the last word and the last PCLK. -/
structure StatusLog where
  samples : List VideoIn
  bytes : List (BitVec 8)
  words : List Bt656
  queue : FifoLog 32
  starts : Nat
  pclksSinceStart : Nat
  aclksSinceStart : Nat
  aclksSinceWord : Nat
  aclkSeen : Bool

/-- The first frame may start at once. -/
def StatusLog.start : StatusLog := ⟨[], [], [], .start, 0, 8, 3, 8, true⟩

def StatusLog.note (cfg : Bt656Cfg) (s : StatusPath) (e : StatusTick) (g : StatusLog) : StatusLog where
  samples := g.samples ++ (e.pclk.map s.videoIn).toList
  bytes := g.bytes ++ (e.pclk.bind fun x => s.rx.fifoByte (s.videoIn x)).toList
  words := if s.wordWritten e then g.words ++ [s.rx] else g.words
  queue := g.queue.clock s.sizeFifo (s.sizeIn e) (s.sizeFifo.drain e.aclk.isSome)
  starts := g.starts + (s.frameStarts cfg e).toNat
  pclksSinceStart := if s.frameStarts cfg e then 0 else g.pclksSinceStart + e.pclk.isSome.toNat
  aclksSinceStart := if s.frameStarts cfg e then 0 else g.aclksSinceStart + e.aclk.isSome.toNat
  aclksSinceWord := if s.wordWritten e then 0 else g.aclksSinceWord + e.aclk.isSome.toNat
  aclkSeen := !e.pclk.isSome && (e.aclk.isSome || g.aclkSeen)

namespace StatusPath

variable (cfg : Bt656Cfg)

abbrev Logged := StatusPath × StatusLog

def Logged.step : Logged → StatusTick → Option Logged := withGhost (StatusPath.step cfg) (StatusLog.note cfg)

/-- The AXI clock is the faster one, and frames are longer than eight PCLKs. -/
def Paced (r : Logged) (e : StatusTick) : Prop :=
  e.pclk.isSome = true → r.2.aclkSeen = true ∧ (r.1.rx.inNewFrame cfg = true → 8 ≤ r.2.pclksSinceStart)

instance (r : Logged) (e : StatusTick) : Decidable (Paced cfg r e) := inferInstanceAs (Decidable (_ → _))

/-- The frame counter is behind by the start that is on its way. -/
structure Counted (cnts : BitVec 32) (r : Logged) : Prop where
  round : r.1.frameSync.Round r.2.pclksSinceStart r.2.aclksSinceStart r.2.aclkSeen
  count : r.1.counts.rxFrameCnts + (if r.2.aclksSinceStart < 3 then 1 else 0) = cnts + BitVec.ofNat 32 r.2.starts

/-- The size words go through the FIFO. -/
structure Handed (sizeStatus : BitVec 32) (r : Logged) : Prop where
  fifo : Draining r.1.sizeFifo r.2.queue r.2.aclksSinceWord
  words : r.2.queue.written = r.2.words.map Bt656.sizeFifoData
  shown : r.1.sizeFifo.dataOut =
    ((if r.2.aclksSinceWord < 2 then r.2.words.dropLast else r.2.words).getLast?.map Bt656.sizeFifoData).getD sizeStatus
  write : r.1.rx.fifoWrite = true → r.2.pclksSinceStart = 0 ∧ 2 ≤ r.2.aclksSinceWord
  apart : r.2.pclksSinceStart + r.2.aclkSeen.toNat ≤ r.2.aclksSinceWord + 1

variable {cfg} {cnts sizeStatus : BitVec 32} {r : Logged} {e : StatusTick}

/-! ### The frame counter -/

/-- At a frame start the round of the frame before is over, and the counter has counted all the starts before. -/
theorem Counted.settled (h : Counted cnts r) (hp : Paced cfg r e) (hs : r.1.frameStarts cfg e = true) :
    r.1.frameSync = .idle ∧ r.1.counts.rxFrameCnts = cnts + BitVec.ofNat 32 r.2.starts := by
  obtain ⟨hpclk, hnew⟩ := Bool.and_eq_true_iff.1 hs
  obtain ⟨hidle, h3⟩ := h.round.over ((hp hpclk).2 hnew)
  have hcount := h.count
  rw [if_neg (Nat.not_lt.2 h3)] at hcount
  exact ⟨hidle, (BitVec.add_zero _).symm.trans hcount⟩

theorem Counted.start (h : Counted cnts r) (hp : Paced cfg r e) (hs : r.1.frameStarts cfg e = true) :
    Counted cnts (r.1.clock cfg e, r.2.note cfg r.1 e) := by
  obtain ⟨hidle, hcount⟩ := h.settled hp hs
  obtain ⟨s, g⟩ := r
  obtain ⟨pclk, aclk⟩ := e
  obtain ⟨hpclk, hnew⟩ := Bool.and_eq_true_iff.1 hs
  obtain ⟨x, rfl⟩ := Option.isSome_iff_exists.1 hpclk
  have hs' : s.frameStarts cfg ⟨some x, aclk⟩ = true := hs
  have hcount' : s.counts.rxFrameCnts = cnts + BitVec.ofNat 32 g.starts := hcount
  constructor
  · have hround := h.round.pulse ((hp rfl).2 hnew) aclk.isSome
    have hsync : (s.clock cfg ⟨some x, aclk⟩).frameSync = s.frameSync.clock (some true) aclk.isSome := by
      show s.frameSync.clock (some (s.rx.inNewFrame cfg)) aclk.isSome = _
      rw [show s.rx.inNewFrame cfg = true from hnew]
    rw [← hsync] at hround
    simpa [StatusLog.note, hs'] using hround
  · have hsame : (s.clock cfg ⟨some x, aclk⟩).counts.rxFrameCnts = s.counts.rxFrameCnts := by
      have hb : s.frameSync.bPulse = false := by
        rw [show s.frameSync = .idle from hidle]
        rfl
      cases aclk <;> simp [clock, FrameLength.clock, hb]
    simp only [StatusLog.note, hs', if_true, Nat.zero_lt_succ, hsame, Bool.toNat_true, BitVec.ofNat_add]
    rw [← BitVec.add_assoc, ← hcount']
    rfl

/-- The pulse is counted in the third clock. -/
theorem count_clock (n : Nat) : (if n = 2 then 1 else 0 : BitVec 32) + (if n + 1 < 3 then 1 else 0) =
    if n < 3 then 1 else 0 := by
  obtain hn | rfl | hn : n < 2 ∨ n = 2 ∨ 3 ≤ n := by omega
  · rw [if_neg (by omega), if_pos (by omega), if_pos (by omega)]
    rfl
  · rfl
  · rw [if_neg (by omega), if_neg (by omega), if_neg (by omega)]
    rfl

theorem Counted.keep (h : Counted cnts r) (hp : Paced cfg r e) (hs : r.1.frameStarts cfg e = false) :
    Counted cnts (r.1.clock cfg e, r.2.note cfg r.1 e) := by
  obtain ⟨s, g⟩ := r
  obtain ⟨pclk, aclk⟩ := e
  have hs' : s.frameStarts cfg ⟨pclk, aclk⟩ = false := hs
  have hno : (pclk.map fun _ => s.rx.inNewFrame cfg) ≠ some true := by
    intro hc
    obtain ⟨x, rfl, hnew⟩ := Option.map_eq_some_iff.1 hc
    simp [frameStarts, hnew] at hs'
  have hstart : (g.note cfg s ⟨pclk, aclk⟩).aclksSinceStart = g.aclksSinceStart + aclk.isSome.toNat := by
    simp [StatusLog.note, hs']
  constructor
  · have hround := h.round.keep hno (fun hpclk => (hp (Option.isSome_map ▸ hpclk)).1) aclk.isSome
    rw [Option.isSome_map] at hround
    simpa [StatusLog.note, hs', clock] using hround
  · have hcount : s.counts.rxFrameCnts + (if g.aclksSinceStart < 3 then 1 else 0) = cnts + BitVec.ofNat 32 g.starts :=
      h.count
    have hstarts : (g.note cfg s ⟨pclk, aclk⟩).starts = g.starts := by simp [StatusLog.note, hs']
    rw [hstart, hstarts, ← hcount]
    cases aclk with
    | none => rfl
    | some rstSizeErr =>
      have hcnts : (s.clock cfg ⟨pclk, some rstSizeErr⟩).counts.rxFrameCnts =
          s.counts.rxFrameCnts + if g.aclksSinceStart = 2 then 1 else 0 := by
        show (s.counts.clock true s.frameSync.bPulse).rxFrameCnts = _
        rw [FrameLength.rxFrameCnts_clock, show s.frameSync.bPulse = _ from h.round.bPulse_eq]
        simp only [beq_iff_eq]
      rw [hcnts, BitVec.add_assoc]
      exact congrArg _ (count_clock g.aclksSinceStart)

theorem Counted.step {r t : Logged} (h : Counted cnts r) (hp : Paced cfg r e) (ht : Logged.step cfg r e = some t) :
    Counted cnts t := by
  obtain ⟨t, g'⟩ := t
  obtain ⟨ht, rfl⟩ := withGhost_eq_some.1 ht
  obtain rfl := Option.some.inj ht
  cases hs : r.1.frameStarts cfg e with
  | true => exact h.start hp hs
  | false => exact h.keep hp hs

/-! ### The size words -/

/-- A size word is written in the clock after a frame start. -/
theorem newFrame_of_fifoWrite {s : Bt656} {x : VideoIn} (h : (s.clock cfg x).fifoWrite = true) :
    s.inNewFrame cfg = true := (Bool.and_eq_true_iff.1 h).1

theorem Handed.word (h : Handed sizeStatus r) (hp : Paced cfg r e) (hw : r.1.wordWritten e = true) :
    Handed sizeStatus (r.1.clock cfg e, r.2.note cfg r.1 e) := by
  obtain ⟨s, g⟩ := r
  obtain ⟨pclk, aclk⟩ := e
  obtain ⟨hpclk, hwrite⟩ := Bool.and_eq_true_iff.1 hw
  obtain ⟨x, rfl⟩ := Option.isSome_iff_exists.1 hpclk
  obtain ⟨hzero, htwo⟩ := h.write hwrite
  have hold : s.rx.inNewFrame cfg = false := by
    rw [← Bool.not_eq_true]
    intro hnew
    have h8 : 8 ≤ g.pclksSinceStart := (hp rfl).2 hnew
    have hzero' : g.pclksSinceStart = 0 := hzero
    omega
  have hw' : s.wordWritten ⟨some x, aclk⟩ = true := hw
  have hs : s.frameStarts cfg ⟨some x, aclk⟩ = false := hold
  have hin : s.sizeIn ⟨some x, aclk⟩ = some (true, s.rx.sizeFifoData) := congrArg (fun b => some (b, _)) hwrite
  obtain ⟨hfifo, hwritten, hout⟩ := h.fifo.write (by decide) htwo s.rx.sizeFifoData aclk.isSome
  have hwords : (g.note cfg s ⟨some x, aclk⟩).words = g.words ++ [s.rx] := by simp [StatusLog.note, hw']
  have hafter : (g.note cfg s ⟨some x, aclk⟩).aclksSinceWord = 0 := by simp [StatusLog.note, hw']
  rw [← hin] at hfifo hwritten hout
  refine ⟨?_, ?_, ?_, fun hwrite' => ?_, ?_⟩
  · rw [hafter]
    exact hfifo
  · rw [hwords, List.map_append]
    exact hwritten.trans (congrArg (· ++ _) h.words)
  · rw [hwords, hafter, if_pos (by decide), List.dropLast_concat]
    have hshown := h.shown
    rw [if_neg (by have : 2 ≤ g.aclksSinceWord := htwo; show ¬ g.aclksSinceWord < 2; omega)] at hshown
    exact hout.trans hshown
  · rw [newFrame_of_fifoWrite hwrite'] at hold
    cases hold
  · rw [hafter]
    have hzero' : g.pclksSinceStart = 0 := hzero
    simp [StatusLog.note, hs, hzero']

/-- The register shows a word from the second clock of the reader on. -/
theorem Handed.keep_shown (h : Handed sizeStatus r) : (r.1.clock cfg e).sizeFifo.dataOut =
    ((if r.2.aclksSinceWord + e.aclk.isSome.toNat < 2 then r.2.words.dropLast else r.2.words).getLast?.map
      Bt656.sizeFifoData).getD sizeStatus := by
  have hshown := h.shown
  refine (h.fifo.wait_dataOut (r.1.sizeIn e) e.aclk.isSome).trans ?_
  rw [h.words, List.getLast?_map]
  cases e.aclk.isSome with
  | false =>
    rw [if_neg fun hc => Bool.false_ne_true hc.2]
    exact hshown
  | true =>
    obtain hn | hn | hn : r.2.aclksSinceWord = 0 ∨ r.2.aclksSinceWord = 1 ∨ 2 ≤ r.2.aclksSinceWord := by omega
    · rw [hn] at hshown
      rw [hn, if_neg (by simp)]
      exact hshown
    · -- the word is taken, and there is one
      have hne : r.2.words ≠ [] := by
        have hlen := (h.fifo.waiting (show r.2.aclksSinceWord < 2 by omega)).1
        rw [h.words, List.length_map] at hlen
        exact List.ne_nil_of_length_eq_add_one hlen
      rw [hn, if_pos ⟨rfl, rfl⟩, if_neg (by decide), List.getLast?_eq_some_getLast hne]
      rfl
    · have hnone : ¬ (r.2.aclksSinceWord = 1 ∧ true = true) := fun hc => by omega
      have hold : ¬ r.2.aclksSinceWord < 2 := by omega
      have hnew : ¬ r.2.aclksSinceWord + true.toNat < 2 := fun hc => hold (Nat.lt_of_succ_lt hc)
      rw [if_neg hold] at hshown
      rw [if_neg hnone, if_neg hnew]
      exact hshown

/-- When the next word comes, the one before is through. -/
theorem Handed.keep_write (h : Handed sizeStatus r) (hp : Paced cfg r e)
    (hwrite : (r.1.clock cfg e).rx.fifoWrite = true) :
    (r.2.note cfg r.1 e).pclksSinceStart = 0 ∧ 2 ≤ r.2.aclksSinceWord + e.aclk.isSome.toNat := by
  obtain ⟨s, g⟩ := r
  obtain ⟨pclk, aclk⟩ := e
  have hapart : g.pclksSinceStart + g.aclkSeen.toNat ≤ g.aclksSinceWord + 1 := h.apart
  cases pclk with
  | none =>
    obtain ⟨hzero, htwo⟩ := h.write hwrite
    refine ⟨?_, htwo.trans (Nat.le_add_right _ _)⟩
    simpa [StatusLog.note, frameStarts] using hzero
  | some x =>
    have hnew : s.rx.inNewFrame cfg = true := newFrame_of_fifoWrite hwrite
    have hs : s.frameStarts cfg ⟨some x, aclk⟩ = true := hnew
    have h8 : 8 ≤ g.pclksSinceStart := (hp rfl).2 hnew
    refine ⟨by simp [StatusLog.note, hs], ?_⟩
    show 2 ≤ g.aclksSinceWord + aclk.isSome.toNat
    omega

/-- Between two of PCLK there is one of the AXI clock. -/
theorem Handed.keep_apart (h : Handed sizeStatus r) (hp : Paced cfg r e) :
    (r.2.note cfg r.1 e).pclksSinceStart + (r.2.note cfg r.1 e).aclkSeen.toNat ≤
      r.2.aclksSinceWord + e.aclk.isSome.toNat + 1 := by
  obtain ⟨s, g⟩ := r
  obtain ⟨pclk, aclk⟩ := e
  have hapart : g.pclksSinceStart + g.aclkSeen.toNat ≤ g.aclksSinceWord + 1 := h.apart
  have hseen : (g.note cfg s ⟨pclk, aclk⟩).aclkSeen = (!pclk.isSome && (aclk.isSome || g.aclkSeen)) := rfl
  rw [hseen]
  cases hs : s.frameStarts cfg ⟨pclk, aclk⟩ with
  | true =>
    have hpclk : pclk.isSome = true := (Bool.and_eq_true_iff.1 hs).1
    simp [StatusLog.note, hs, hpclk]
  | false =>
    have hpclks : (g.note cfg s ⟨pclk, aclk⟩).pclksSinceStart = g.pclksSinceStart + pclk.isSome.toNat := by
      simp [StatusLog.note, hs]
    rw [hpclks]
    cases pclk with
    | some x =>
      have hnow : g.aclkSeen = true := (hp rfl).1
      rw [hnow] at hapart
      simp only [Option.isSome_some, Bool.not_true, Bool.false_and, Bool.toNat_true, Bool.toNat_false] at hapart ⊢
      omega
    | none =>
      cases aclk.isSome with
      | false => simpa using hapart
      | true =>
        simp only [Option.isSome_none, Bool.not_false, Bool.true_and, Bool.true_or, Bool.toNat_true, Bool.toNat_false]
        omega

theorem Handed.keep (h : Handed sizeStatus r) (hp : Paced cfg r e) (hw : r.1.wordWritten e = false) :
    Handed sizeStatus (r.1.clock cfg e, r.2.note cfg r.1 e) := by
  have hin : ∀ x ∈ r.1.sizeIn e, x.1 = false := by
    intro x hx
    obtain ⟨y, hy, rfl⟩ := Option.map_eq_some_iff.1 hx
    have hw' : (e.pclk.isSome && r.1.rx.fifoWrite) = false := hw
    rwa [hy] at hw'
  have hwords : (r.2.note cfg r.1 e).words = r.2.words := by simp [StatusLog.note, hw]
  have hafter : (r.2.note cfg r.1 e).aclksSinceWord = r.2.aclksSinceWord + e.aclk.isSome.toNat := by
    simp [StatusLog.note, hw]
  refine ⟨?_, ?_, ?_, fun hwrite => ?_, ?_⟩
  · rw [hafter]
    exact h.fifo.wait (by decide) hin e.aclk.isSome
  · rw [hwords]
    exact (r.1.sizeFifo.written_wait r.2.queue hin _).trans h.words
  · rw [hwords, hafter]
    exact h.keep_shown
  · rw [hafter]
    exact h.keep_write hp hwrite
  · rw [hafter]
    exact h.keep_apart hp

theorem Handed.step {r t : Logged} (h : Handed sizeStatus r) (hp : Paced cfg r e) (ht : Logged.step cfg r e = some t) :
    Handed sizeStatus t := by
  obtain ⟨t, g'⟩ := t
  obtain ⟨ht, rfl⟩ := withGhost_eq_some.1 ht
  obtain rfl := Option.some.inj ht
  cases hw : r.1.wordWritten e with
  | true => exact h.word hp hw
  | false => exact h.keep hp hw

/-! ### Runs -/

variable (mem : BitVec 2 → BitVec 32) (counts : FrameLength)

theorem counted_enabled : Counted counts.rxFrameCnts (enabled mem sizeStatus counts, .start) where
  round := SyncPulse.round_idle
  count := rfl

theorem handed_enabled : Handed sizeStatus (enabled mem sizeStatus counts, .start) where
  fifo := draining_cleared mem sizeStatus (show 2 ≤ 8 by decide)
  words := rfl
  shown := rfl
  write h := absurd (show false = true from h) Bool.false_ne_true
  apart := Nat.le_refl 9

/-- In every run in which the AXI clock has an edge between any two of PCLK and frame starts are eight PCLKs apart, no
frame start and no size word is lost: the frame counter has counted all starts but the one that is less than three AXI
clocks old, and the size register shows the last word but the one that is less than two AXI clocks old. -/
theorem status_late {es : List StatusTick} {t : Logged}
    (hp : StepsMeet (Logged.step cfg) (Paced cfg) (enabled mem sizeStatus counts, .start) es)
    (h : exec (Logged.step cfg) (enabled mem sizeStatus counts, .start) es = some t) :
    t.1.counts.rxFrameCnts + (if t.2.aclksSinceStart < 3 then 1 else 0) =
        counts.rxFrameCnts + BitVec.ofNat 32 t.2.starts ∧
      t.1.sizeFifo.dataOut =
        ((if t.2.aclksSinceWord < 2 then t.2.words.dropLast else t.2.words).getLast?.map
          Bt656.sizeFifoData).getD sizeStatus := by
  have hcounted : Counted counts.rxFrameCnts t :=
    exec_invariant (fun _ _ _ hi hp ht => hi.step hp ht) (counted_enabled mem counts) hp h
  have hhanded : Handed sizeStatus t :=
    exec_invariant (fun _ _ _ hi hp ht => hi.step hp ht) (handed_enabled mem counts) hp h
  exact ⟨hcounted.count, hhanded.shown⟩

/-- Two edges of the AXI clock for each of PCLK, and VSYNC up every ninth time. -/
def vsyncs (n : Nat) : List StatusTick :=
  (List.range n).flatMap fun k => [⟨none, some false⟩, ⟨some ⟨k % 9 == 1, false, 0, false⟩, none⟩, ⟨none, some false⟩]

/-- Two frames without lines are counted, and the word of the second one is shown. -/
theorem status_late_vsyncs : ∃ t,
    exec (Logged.step ⟨false, false⟩) (enabled (fun _ => 0) 7 .reset, .start) (vsyncs 15) = some t ∧
      (t.2.starts = 2 ∧ t.2.words.length = 1) ∧
      t.1.counts.rxFrameCnts + (if t.2.aclksSinceStart < 3 then 1 else 0) =
        FrameLength.reset.rxFrameCnts + BitVec.ofNat 32 t.2.starts ∧
      t.1.sizeFifo.dataOut =
        ((if t.2.aclksSinceWord < 2 then t.2.words.dropLast else t.2.words).getLast?.map
          Bt656.sizeFifoData).getD 7 := by
  obtain ⟨t, ht, hcounts⟩ := @exists_exec _ _ (Logged.step ⟨false, false⟩)
    (fun t => t.2.starts = 2 ∧ t.2.words.length = 1) _ (enabled (fun _ => 0) 7 .reset, .start) (vsyncs 15) (by decide)
  exact ⟨t, ht, hcounts, status_late (fun _ => 0) .reset (by decide) ht⟩

end StatusPath

end RcCarControl.Fpga
