import RcCarControl.Fpga.Bt656
import RcCarControl.Fpga.StreamOrder
import RcCarControl.Fpga.SyncPulse
import RcCarControl.Lib.Runs

/-!
# The start-of-frame mark

`bt656_to_axi_stream` as a whole: the receiver on the pixel clock writes the data FIFO, the reader empties it, and
`sync_stream_new_frame_i` takes a frame start over to the stream clock, where it raises `stream_frame_latch` and the
next beat carries TUSER.  The mark travels beside the FIFO and knows nothing of the bytes in it.
-/

namespace RcCarControl.Fpga

open Lts

/-- What the receiver samples at a rising PCLK besides `data_fifo_full`. -/
structure PclkIn where
  vsync : Bool
  href : Bool
  data : BitVec 8
  frameCnts : BitVec 32
  syncRstSizeErr : Bool

/-- An instant at which PCLK, ACLK (with TREADY) or both rise. -/
structure RxTick where
  pclk : Option PclkIn
  aclk : Option Bool

structure Receiver where
  rx : Bt656
  sync : SyncPulse
  stream : VideoStream
  /-- For each VSYNC edge the number of bytes written before it, which is the position of the first byte after it. -/
  starts : List Nat

namespace Receiver

/-- Out of reset. -/
def reset (mem : BitVec 11 → BitVec 8) (dataOut : BitVec 8) : Receiver :=
  ⟨.reset, .idle, .reset mem dataOut, []⟩

variable (rxCfg : Bt656Cfg) (cfg : FifoCtrl) (s : Receiver) (e : RxTick)

def videoIn (x : PclkIn) : VideoIn :=
  ⟨x.vsync, x.href, x.data, x.frameCnts, x.syncRstSizeErr, s.stream.fifo.fullOut⟩

/-- What the FIFO and its reader see of an instant. -/
def tick : Tick where
  pclk := e.pclk.map fun x => (s.rx.dataFifoWrite (s.videoIn x), s.rx.inData0)
  aclk := e.aclk.map fun tready => (tready, s.sync.bPulse)

/-- A frame starts at the instant. -/
def newFrame : Bool := e.pclk.isSome && s.rx.inNewFrame rxCfg

def clock : Receiver where
  rx :=
    match e.pclk with
    | none => s.rx
    | some x => s.rx.clock rxCfg (s.videoIn x)
  sync := s.sync.clock (e.pclk.map fun _ => s.rx.inNewFrame rxCfg) e.aclk.isSome
  stream := s.stream.clock cfg (s.tick e)
  starts := if s.newFrame rxCfg e then s.starts ++ [s.stream.log.written.length] else s.starts

def step : Option Receiver := some (s.clock rxCfg cfg e)

/-- The beats carry the captured bytes in order, and TUSER is up on exactly those that are the first after a VSYNC
edge. -/
structure Marked (s : Receiver) : Prop where
  tdata : s.stream.beats.map Beat.tdata <+: s.stream.log.written
  tuser : ∀ i beat, s.stream.beats[i]? = some beat → (beat.tuser = true ↔ i ∈ s.starts)

/-- The data FIFO takes every byte, and a frame starts after whole lines with the synchroniser idle. -/
structure Framed : Prop where
  notFull : s.stream.fifo.fullOut = false
  frame : s.newFrame rxCfg e = true →
    s.sync = .idle ∧ cfg.dataFifoLineLen.toNat ∣ s.stream.log.written.length

/-- The reader finds the words it asks for, a mark arrives when the bytes of the frames before have left, and, which
only start values of one or two words leave open, before the first byte of its own frame leaves. -/
structure Aligned : Prop where
  wordThere : ∀ tready ∈ e.aclk, (s.stream.reader.comb cfg tready).dataFifoRead = true → s.stream.fifo.emptyOut = false
  notEarly : e.aclk.isSome = true → s.sync.bPulse = true →
    ∀ p ∈ s.starts.getLast?, p ≤ s.stream.beats.length + (s.stream.beat cfg (s.tick e)).isSome.toNat
  notLate : min cfg.dataFifoLineLen.toNat 2 < cfg.dataFifoStart.toNat ∨
    (s.sync.underWay = true → (s.stream.beat cfg (s.tick e)).isSome = true →
      ∀ p ∈ s.starts.getLast?, s.stream.beats.length ≠ p)

instance : Decidable (s.Framed rxCfg cfg e) :=
  decidable_of_iff (s.stream.fifo.fullOut = false ∧ (s.newFrame rxCfg e = true →
    s.sync = .idle ∧ cfg.dataFifoLineLen.toNat ∣ s.stream.log.written.length))
    ⟨fun h => ⟨h.1, h.2⟩, fun h => ⟨h.notFull, h.frame⟩⟩

instance : Decidable (s.Aligned cfg e) :=
  decidable_of_iff ((∀ tready ∈ e.aclk, (s.stream.reader.comb cfg tready).dataFifoRead = true →
      s.stream.fifo.emptyOut = false) ∧
    (e.aclk.isSome = true → s.sync.bPulse = true →
      ∀ p ∈ s.starts.getLast?, p ≤ s.stream.beats.length + (s.stream.beat cfg (s.tick e)).isSome.toNat) ∧
    (min cfg.dataFifoLineLen.toNat 2 < cfg.dataFifoStart.toNat ∨
      (s.sync.underWay = true → (s.stream.beat cfg (s.tick e)).isSome = true →
        ∀ p ∈ s.starts.getLast?, s.stream.beats.length ≠ p)))
    ⟨fun h => ⟨h.1, h.2.1, h.2.2⟩, fun h => ⟨h.wordThere, h.notEarly, h.notLate⟩⟩

end Receiver

/-! ### The latch -/

variable {cfg : FifoCtrl} {v : VideoStream}

/-- A transfer hands the latch to TUSER and clears it. -/
theorem transfer_latch {tready : Bool} (h : ((v.reader.comb cfg tready).tvalid && tready) = true) :
    v.reader.axiState = .data ∧ (v.reader.comb cfg tready).tuser = v.reader.streamFrameLatch ∧
      (v.reader.comb cfg tready).streamClearFrameLatch = v.reader.streamFrameLatch := by
  revert h
  unfold StreamReader.comb
  cases v.reader.axiState with
  | idle =>
    simp only
    split <;> simp
  | data =>
    simp only
    split_ifs <;> simp

theorem no_transfer_latch {tready : Bool} (h : ((v.reader.comb cfg tready).tvalid && tready) = false) :
    (v.reader.comb cfg tready).streamClearFrameLatch = false := by
  revert h
  unfold StreamReader.comb
  cases v.reader.axiState with
  | idle =>
    simp only
    split <;> simp
  | data =>
    simp only
    split_ifs with hgo <;> simp_all

/-- Whether a clock transfers a byte. -/
theorem isSome_beat (pclk : Option (Bool × BitVec 8)) (tready newFrame : Bool) :
    (v.beat cfg ⟨pclk, some (tready, newFrame)⟩).isSome = ((v.reader.comb cfg tready).tvalid && tready) := by
  show (if (v.reader.comb cfg tready).tvalid && tready then
    some (⟨v.fifo.dataOut, (v.reader.comb cfg tready).tlast, (v.reader.comb cfg tready).tuser⟩ : Beat)
    else none).isSome = _
  cases (v.reader.comb cfg tready).tvalid && tready <;> rfl

/-- A beat leaves within a line and takes the latch along. -/
theorem beat_latch {e : Tick} {beat : Beat} (hbeat : v.beat cfg e = some beat) :
    v.reader.axiState = .data ∧ beat.tuser = v.reader.streamFrameLatch := by
  rcases e with ⟨pclk, _ | ⟨tready, newFrame⟩⟩
  · cases hbeat
  · have hgo : ((v.reader.comb cfg tready).tvalid && tready) = true := by
      rw [← isSome_beat pclk tready newFrame, hbeat]
      rfl
    obtain ⟨hst, htuser, -⟩ := transfer_latch hgo
    have hb : (if (v.reader.comb cfg tready).tvalid && tready then
      some (⟨v.fifo.dataOut, (v.reader.comb cfg tready).tlast, (v.reader.comb cfg tready).tuser⟩ : Beat)
      else none) = some beat := hbeat
    rw [if_pos hgo] at hb
    cases hb
    exact ⟨hst, htuser⟩

/-- The marks that have arrived are for bytes of the past or for the next one, and the latch is up exactly for the
next. -/
structure Latched (v : VideoStream) (arrived : List Nat) : Prop where
  latch : v.reader.streamFrameLatch = true ↔ v.beats.length ∈ arrived
  passed : ∀ p ∈ arrived, p ≤ v.beats.length

/-- How many bytes have left after a clock. -/
theorem beats_length_clock (e : Tick) :
    (v.clock cfg e).beats.length = v.beats.length + (v.beat cfg e).isSome.toNat :=
  length_append_toList _ _

/-- Without a new mark the latch stays up until the byte it is for leaves. -/
theorem Latched.clock {arrived : List Nat} (h : Latched v arrived) (pclk : Option (Bool × BitVec 8)) (tready : Bool) :
    Latched (v.clock cfg ⟨pclk, some (tready, false)⟩) arrived := by
  have hlatch : (v.clock cfg ⟨pclk, some (tready, false)⟩).reader.streamFrameLatch =
    if (v.reader.comb cfg tready).streamClearFrameLatch then false else v.reader.streamFrameLatch := rfl
  have hlen : (v.clock cfg ⟨pclk, some (tready, false)⟩).beats.length =
    v.beats.length + (v.beat cfg ⟨pclk, some (tready, false)⟩).isSome.toNat := beats_length_clock _
  rw [isSome_beat] at hlen
  cases hgo : (v.reader.comb cfg tready).tvalid && tready with
  | false =>
    rw [hgo] at hlen
    rw [no_transfer_latch hgo] at hlatch
    have hsame : (v.clock cfg ⟨pclk, some (tready, false)⟩).beats.length = v.beats.length := hlen
    constructor
    · rw [hlatch, hsame]
      exact h.latch
    · rw [hsame]
      exact h.passed
  | true =>
    rw [hgo] at hlen
    rw [(transfer_latch hgo).2.2] at hlatch
    have hnext : (v.clock cfg ⟨pclk, some (tready, false)⟩).beats.length = v.beats.length + 1 := hlen
    have hlow : (v.clock cfg ⟨pclk, some (tready, false)⟩).reader.streamFrameLatch = false := by
      rw [hlatch]
      cases v.reader.streamFrameLatch <;> rfl
    constructor
    · rw [hlow, hnext]
      constructor
      · intro hup
        cases hup
      · intro hin
        have := h.passed _ hin
        omega
    · intro p hp
      have := h.passed p hp
      omega

theorem Latched.keep {arrived : List Nat} (h : Latched v arrived) {e : Tick} (he : ∀ x ∈ e.aclk, x.2 = false) :
    Latched (v.clock cfg e) arrived := by
  rcases e with ⟨pclk, _ | ⟨tready, newFrame⟩⟩
  · have hbeats : (v.clock cfg ⟨pclk, none⟩).beats = v.beats := List.append_nil _
    refine ⟨?_, ?_⟩
    · rw [hbeats]
      exact h.latch
    · rw [hbeats]
      exact h.passed
  · obtain rfl : newFrame = false := he _ rfl
    exact h.clock pclk tready

/-- A mark that arrives when the bytes before its own have left raises the latch for that byte. -/
theorem Latched.arrive {arrived : List Nat} (h : Latched v arrived) (pclk : Option (Bool × BitVec 8))
    (tready : Bool) {p : Nat} (hp : (v.clock cfg ⟨pclk, some (tready, true)⟩).beats.length = p) :
    Latched (v.clock cfg ⟨pclk, some (tready, true)⟩) (arrived ++ [p]) := by
  have hlen : (v.clock cfg ⟨pclk, some (tready, true)⟩).beats.length =
    v.beats.length + (v.beat cfg ⟨pclk, some (tready, true)⟩).isSome.toNat := beats_length_clock _
  have hup : (v.clock cfg ⟨pclk, some (tready, true)⟩).reader.streamFrameLatch = true := rfl
  constructor
  · rw [hup, hp]
    simp
  · intro q hq
    rcases List.mem_append.1 hq with hq | hq
    · have := h.passed q hq
      omega
    · obtain rfl : q = p := by simpa using hq
      omega

/-! ### The mark is not late -/

/-- The words a reader may know of by the time the mark is in a phase: both are taken over at the clocks of the reader,
the mark through two registers, the words through the pointer samples, the word count and the comparison. -/
def SyncPulse.Phase.horizon (v : VideoStream) : SyncPulse.Phase → Nat
  | .quiet => 0
  | .held => v.log.syncWritten
  | .seen => v.counted.1
  | .out => v.compared.1

/-- The mark of the frame that starts at byte `p` is under way. -/
structure Coming (cfg : FifoCtrl) (v : VideoStream) (ph : SyncPulse.Phase) (p : Nat) : Prop where
  lines : cfg.dataFifoLineLen.toNat ∣ p
  beats : v.beats.length ≤ p
  inTime : min cfg.dataFifoLineLen.toNat 2 < cfg.dataFifoStart.toNat → v.log.read ≤ p ∧ ph.horizon v ≤ p

theorem compared_le_horizon (hp : Pipeline cfg v) {ph : SyncPulse.Phase} (hph : ph ≠ .quiet) :
    v.compared.1 ≤ ph.horizon v := by
  have hcompared := hp.compared_le
  have hcounted := hp.counted_le
  cases ph with
  | quiet => exact absurd rfl hph
  | held => exact hcompared.trans hcounted
  | seen => exact hcompared
  | out => exact Nat.le_refl _

/-- The horizon follows the mark. -/
theorem horizon_clock {ph : SyncPulse.Phase} (hph : ph ≠ .quiet) (hout : ph ≠ .out)
    (pclk : Option (Bool × BitVec 8)) (tready newFrame : Bool) :
    (ph.next false true).horizon (v.clock cfg ⟨pclk, some (tready, newFrame)⟩) = ph.horizon v := by
  cases ph with
  | quiet => exact absurd rfl hph
  | held => rfl
  | seen => rfl
  | out => exact absurd rfl hout

/-- The reader does not start the first line of a frame that the start condition cannot have seen. -/
theorem read_le_clock (h : Flow cfg v) (hp : Pipeline cfg v) (hL : 1 ≤ cfg.dataFifoLineLen.toNat)
    (hS : min cfg.dataFifoLineLen.toNat 2 < cfg.dataFifoStart.toNat) {p : Nat}
    (hlines : cfg.dataFifoLineLen.toNat ∣ p) (hread : v.log.read ≤ p) (hcompared : v.compared.1 ≤ p) {tready : Bool}
    {t : VideoStream} (he : ReadEdge cfg v t tready) : t.log.read ≤ p := by
  have hcnt := h.pixelCnt
  cases he.move hL with
  | wait hst state pixel beats read => omega
  | start hst hgo state pixel beats read word =>
    obtain ⟨-, -, -, -, hlate⟩ := h.idle hst
    have hstart := hp.start hgo
    omega
  | stall hst state pixel beats read held => omega
  | last hst hc state pixel beats read => omega
  | next hst hc state pixel beats read word =>
    -- a frame starts with a line, so its first byte is not read inside one
    have hne : v.log.read ≠ p := by
      intro heq
      obtain ⟨hone, -⟩ := h.data hst
      have hmod := mod_succ (t := v.beats.length) hL
      have hzero : p % cfg.dataFifoLineLen.toNat = 0 := Nat.mod_eq_zero_of_dvd hlines
      rw [← heq, hone] at hzero
      omega
    omega

/-- A byte that leaves while a mark is under way is one of the frame before. -/
theorem Coming.beat_lt {ph : SyncPulse.Phase} {p : Nat} (hm : Coming cfg v ph p) (h : Flow cfg v) {e : Tick}
    (hlate : min cfg.dataFifoLineLen.toNat 2 < cfg.dataFifoStart.toNat ∨ v.beats.length ≠ p)
    (hbeat : (v.beat cfg e).isSome = true) : v.beats.length < p := by
  have hle := hm.beats
  rcases hlate with hS | hne
  · obtain ⟨beat, hb⟩ := Option.isSome_iff_exists.1 hbeat
    obtain ⟨hone, -⟩ := h.data (beat_latch hb).1
    have hread := (hm.inTime hS).1
    omega
  · omega

/-- Before the mark arrives no byte of its frame leaves. -/
theorem Coming.beats_clock {ph : SyncPulse.Phase} {p : Nat} (hm : Coming cfg v ph p) (h : Flow cfg v) {e : Tick}
    (hlate : min cfg.dataFifoLineLen.toNat 2 < cfg.dataFifoStart.toNat ∨
      ((v.beat cfg e).isSome = true → v.beats.length ≠ p)) : (v.clock cfg e).beats.length ≤ p := by
  have hle := hm.beats
  rw [beats_length_clock]
  cases hbeat : (v.beat cfg e).isSome with
  | false => exact hle
  | true => exact hm.beat_lt h (hlate.imp_right fun hne => hne hbeat) hbeat

/-- A clock of the reader takes the mark on, and the bytes of its frame stay behind it. -/
theorem Coming.clock {ph : SyncPulse.Phase} {p : Nat} (hm : Coming cfg v ph p) (h : Flow cfg v)
    (hp : Pipeline cfg v) (hL : 1 ≤ cfg.dataFifoLineLen.toNat) (hph : ph ≠ .quiet) (hout : ph ≠ .out)
    {pclk : Option (Bool × BitVec 8)} {tready newFrame : Bool} (hr : WordThere cfg v tready)
    (hlate : min cfg.dataFifoLineLen.toNat 2 < cfg.dataFifoStart.toNat ∨
      ((v.beat cfg ⟨pclk, some (tready, newFrame)⟩).isSome = true → v.beats.length ≠ p)) :
    Coming cfg (v.clock cfg ⟨pclk, some (tready, newFrame)⟩) (ph.next false true) p := by
  refine ⟨hm.lines, hm.beats_clock h hlate, fun hS => ?_⟩
  obtain ⟨hread, hhorizon⟩ := hm.inTime hS
  constructor
  · have hcompared := (compared_le_horizon hp hph).trans hhorizon
    exact read_le_clock h hp hL hS hm.lines hread hcompared (hp.readEdge pclk newFrame hr)
  · rw [horizon_clock hph hout]
    exact hhorizon

/-- What has left was captured before the instant. -/
theorem beats_le_written (h : Flow cfg v) (hp : Pipeline cfg v) (hL : 1 ≤ cfg.dataFifoLineLen.toNat) (e : Tick) :
    (v.clock cfg e).beats.length ≤ v.log.written.length := by
  have hread := hp.tracks.pointers.read_le
  have hle : v.beats.length ≤ v.log.written.length := by
    cases hst : v.reader.axiState with
    | idle =>
      have hr := (h.idle hst).1
      omega
    | data =>
      have hr := (h.data hst).1
      omega
  rw [beats_length_clock]
  cases hbeat : v.beat cfg e with
  | none => exact hle
  | some beat =>
    rcases e with ⟨pclk, _ | ⟨tready, newFrame⟩⟩
    · cases hbeat
    · exact (List.getElem?_eq_some_iff.1 (h.beat pclk tready newFrame hL hbeat).1).1

/-- A frame start, with the mark entering the synchroniser. -/
theorem coming_start (h : Flow cfg v) (hp : Pipeline cfg v) (hL : 1 ≤ cfg.dataFifoLineLen.toNat)
    (hlines : cfg.dataFifoLineLen.toNat ∣ v.log.written.length) (e : Tick) :
    Coming cfg (v.clock cfg e) .held v.log.written.length := by
  refine ⟨hlines, beats_le_written h hp hL e, fun _ => ⟨?_, ?_⟩⟩
  · have hread := hp.tracks.pointers.read_le
    show v.log.read + (v.fifo.reads (v.rclk cfg e)).toNat ≤ v.log.written.length
    cases hr : v.fifo.reads (v.rclk cfg e) with
    | false => exact hread
    | true => exact hp.tracks.word_of_reads hr
  · have hsync := hp.tracks.syncWritten_le
    show (if (v.rclk cfg e).isSome then v.log.written.length else v.log.syncWritten) ≤ v.log.written.length
    split
    · exact Nat.le_refl _
    · exact hsync

/-! ### One instant -/

/-- Every frame start but one under way has arrived at the latch. -/
structure Receiver.Aims (cfg : FifoCtrl) (s : Receiver) (ph : SyncPulse.Phase) (arrived : List Nat) : Prop where
  sync : s.sync.In ph
  latched : Latched s.stream arrived
  quiet : ph = .quiet → s.starts = arrived
  coming : ph ≠ .quiet → ∃ p, s.starts = arrived ++ [p] ∧ Coming cfg s.stream ph p

structure Receiver.Inv (cfg : FifoCtrl) (s : Receiver) : Prop where
  pipeline : Pipeline cfg s.stream
  flow : Flow cfg s.stream
  inOrder : InOrder cfg.dataFifoLineLen.toNat s.stream.log.written s.stream.beats
  aims : ∃ ph arrived, s.Aims cfg ph arrived
  tuser : ∀ i beat, s.stream.beats[i]? = some beat → (beat.tuser = true ↔ i ∈ s.starts)

namespace Receiver

variable {rxCfg : Bt656Cfg} {s : Receiver} {e : RxTick}

theorem inv_reset (mem : BitVec 11 → BitVec 8) (dataOut : BitVec 8) : (reset mem dataOut).Inv cfg where
  pipeline := pipeline_reset mem dataOut
  flow := flow_reset mem dataOut
  inOrder := inOrder_nil _
  aims := ⟨.quiet, [], SyncPulse.in_idle, ⟨by simp [reset, VideoStream.reset, StreamReader.reset], by simp⟩,
    fun _ => rfl, fun hne => absurd rfl hne⟩
  tuser := by simp [reset, VideoStream.reset]

/-- Before the first byte of a frame leaves its mark is on the way, and then the condition on late marks is about it. -/
theorem Aims.notLate {ph : SyncPulse.Phase} {arrived : List Nat} {p : Nat} (ha : s.Aims cfg ph arrived)
    (hal : s.Aligned cfg e) (hph : ph ≠ .quiet) (hp : s.starts = arrived ++ [p]) :
    min cfg.dataFifoLineLen.toNat 2 < cfg.dataFifoStart.toNat ∨
      ((s.stream.beat cfg (s.tick e)).isSome = true → s.stream.beats.length ≠ p) := by
  rcases hal.notLate with hS | hlate
  · exact .inl hS
  · right
    intro hbeat
    apply hlate (ha.sync.underWay hph) hbeat
    rw [hp]
    simp

/-- A byte that leaves is the first of a frame exactly if its mark has arrived. -/
theorem Aims.mem_starts {ph : SyncPulse.Phase} {arrived : List Nat} (ha : s.Aims cfg ph arrived)
    (hflow : Flow cfg s.stream) (hal : s.Aligned cfg e) (hbeat : (s.stream.beat cfg (s.tick e)).isSome = true) :
    s.stream.beats.length ∈ arrived ↔ s.stream.beats.length ∈ s.starts := by
  by_cases hph : ph = .quiet
  · rw [ha.quiet hph]
  · obtain ⟨p, hp, hm⟩ := ha.coming hph
    have hlt := hm.beat_lt hflow ((ha.notLate hal hph hp).imp_right fun hne => hne hbeat) hbeat
    rw [hp, List.mem_append, List.mem_singleton]
    constructor
    · exact .inl
    · rintro (hin | heq)
      · exact hin
      · omega

/-- The beat of an instant carries TUSER exactly if its byte is the first of a frame. -/
theorem Inv.tuser_beat (h : s.Inv cfg) (hal : s.Aligned cfg e) {beat : Beat}
    (hbeat : s.stream.beat cfg (s.tick e) = some beat) : beat.tuser = true ↔ s.stream.beats.length ∈ s.starts := by
  obtain ⟨ph, arrived, ha⟩ := h.aims
  rw [← ha.mem_starts h.flow hal (by rw [hbeat]; rfl), ← ha.latched.latch, (beat_latch hbeat).2]

/-- The beats stay marked, and a frame start marks none of them. -/
theorem Inv.tuser_clock (h : s.Inv cfg) (hal : s.Aligned cfg e) (hL : 1 ≤ cfg.dataFifoLineLen.toNat) (i : Nat)
    (beat : Beat) (hi : (s.clock rxCfg cfg e).stream.beats[i]? = some beat) :
    beat.tuser = true ↔ i ∈ (s.clock rxCfg cfg e).starts := by
  have hlen : i < (s.clock rxCfg cfg e).stream.beats.length := (List.getElem?_eq_some_iff.1 hi).1
  have hlt : i < s.stream.log.written.length := hlen.trans_le (beats_le_written h.flow h.pipeline hL (s.tick e))
  have hold : beat.tuser = true ↔ i ∈ s.starts := by
    have hi' : (s.stream.beats ++ (s.stream.beat cfg (s.tick e)).toList)[i]? = some beat := hi
    rcases getElem?_append_toList hi' with hleft | ⟨rfl, hbeat⟩
    · exact h.tuser i beat hleft
    · exact h.tuser_beat hal hbeat
  rw [hold]
  show i ∈ s.starts ↔ i ∈ if s.newFrame rxCfg e then s.starts ++ [s.stream.log.written.length] else s.starts
  split
  · rw [List.mem_append, List.mem_singleton]
    constructor
    · exact .inl
    · rintro (hin | heq)
      · exact hin
      · omega
  · exact Iff.rfl

/-- The clock of the synchroniser at an instant. -/
theorem Aims.sync_clock {ph : SyncPulse.Phase} {arrived : List Nat} (ha : s.Aims cfg ph arrived)
    (hf : s.Framed rxCfg cfg e) :
    (s.clock rxCfg cfg e).sync.In (ph.next (s.newFrame rxCfg e) e.aclk.isSome) := by
  have hpulse : (e.pclk.map fun _ => s.rx.inNewFrame rxCfg) = some true ↔ s.newFrame rxCfg e = true := by
    unfold newFrame
    cases e.pclk <;> simp
  have hbeq : ((e.pclk.map fun _ => s.rx.inNewFrame rxCfg) == some true) = s.newFrame rxCfg e := by
    rw [Bool.eq_iff_iff, beq_iff_eq]
    exact hpulse
  have hnext := ha.sync.clock (e.pclk.map fun _ => s.rx.inNewFrame rxCfg) e.aclk.isSome
    (fun hp => (hf.frame (hpulse.1 hp)).1)
  rwa [hbeq] at hnext

theorem Aligned.words (hal : s.Aligned cfg e) {tready : Bool} (he : e.aclk = some tready) :
    WordThere cfg s.stream tready := by
  unfold WordThere
  cases hread : (s.stream.reader.comb cfg tready).dataFifoRead with
  | false => rfl
  | true => simp [AsyncFifo.reads, hal.wordThere tready he hread]

theorem starts_clock_of_not_new (hnew : s.newFrame rxCfg e = false) : (s.clock rxCfg cfg e).starts = s.starts := by
  show (if s.newFrame rxCfg e then s.starts ++ [s.stream.log.written.length] else s.starts) = s.starts
  rw [hnew]
  rfl

/-- A frame start sends a mark on the way. -/
theorem Inv.aims_start (h : s.Inv cfg) (hf : s.Framed rxCfg cfg e) (hL : 1 ≤ cfg.dataFifoLineLen.toNat)
    (hnew : s.newFrame rxCfg e = true) : ∃ ph arrived, (s.clock rxCfg cfg e).Aims cfg ph arrived := by
  obtain ⟨ph, arrived, ha⟩ := h.aims
  obtain ⟨hidle, hlines⟩ := hf.frame hnew
  obtain rfl := ha.sync.eq_quiet hidle
  have hsync := ha.sync_clock hf
  rw [hnew] at hsync
  refine ⟨.held, arrived, hsync, ?_, nofun, fun _ => ⟨s.stream.log.written.length, ?_, ?_⟩⟩
  · apply ha.latched.keep
    intro x hx
    obtain ⟨tready, -, rfl⟩ := Option.map_eq_some_iff.1 hx
    show s.sync.bPulse = false
    rw [hidle]
    rfl
  · show (if s.newFrame rxCfg e then s.starts ++ [s.stream.log.written.length] else s.starts) = _
    rw [hnew, ← ha.quiet rfl]
    rfl
  · exact coming_start h.flow h.pipeline hL hlines (s.tick e)

/-- Without a frame start and without a clock of the reader nothing moves. -/
theorem Inv.aims_write (h : s.Inv cfg) (hf : s.Framed rxCfg cfg e) (hnew : s.newFrame rxCfg e = false)
    (he : e.aclk = none) : ∃ ph arrived, (s.clock rxCfg cfg e).Aims cfg ph arrived := by
  obtain ⟨ph, arrived, ha⟩ := h.aims
  have hsync := ha.sync_clock hf
  have hstarts : (s.clock rxCfg cfg e).starts = s.starts := starts_clock_of_not_new hnew
  rcases e with ⟨pclk, aclk⟩
  obtain rfl : aclk = none := he
  rw [hnew] at hsync
  have hbeats : (s.clock rxCfg cfg ⟨pclk, none⟩).stream.beats = s.stream.beats := List.append_nil _
  refine ⟨ph, arrived, hsync, ?_, ?_, ?_⟩
  · apply ha.latched.keep
    intro x hx
    cases hx
  · rw [hstarts]
    exact ha.quiet
  · intro hph
    obtain ⟨p, hp, hm⟩ := ha.coming hph
    refine ⟨p, hstarts.trans hp, hm.lines, ?_, ?_⟩
    · rw [hbeats]
      exact hm.beats
    · intro hS
      obtain ⟨hread, hhorizon⟩ := hm.inTime hS
      refine ⟨hread, ?_⟩
      cases ph with
      | quiet => exact Nat.zero_le _
      | held => exact hhorizon
      | seen => exact hhorizon
      | out => exact hhorizon

/-- A clock of the reader takes the mark on, or at the latch. -/
theorem Inv.aims_read (h : s.Inv cfg) (hf : s.Framed rxCfg cfg e) (hal : s.Aligned cfg e)
    (hL : 1 ≤ cfg.dataFifoLineLen.toNat) (hnew : s.newFrame rxCfg e = false) {tready : Bool}
    (he : e.aclk = some tready) : ∃ ph arrived, (s.clock rxCfg cfg e).Aims cfg ph arrived := by
  obtain ⟨ph, arrived, ha⟩ := h.aims
  have hsync := ha.sync_clock hf
  have hword := hal.words he
  have hstarts : (s.clock rxCfg cfg e).starts = s.starts := starts_clock_of_not_new hnew
  rcases e with ⟨pclk, aclk⟩
  obtain rfl : aclk = some tready := he
  rw [hnew] at hsync
  by_cases hout : ph = .out
  · subst hout
    have hpulse : s.sync.bPulse = true := ha.sync.bPulse.2 rfl
    obtain ⟨p, hp, hm⟩ := ha.coming (by decide)
    have hupper := hm.beats_clock h.flow (ha.notLate hal (by decide) hp)
    have hlower := hal.notEarly rfl hpulse p (by rw [hp]; simp)
    rw [← beats_length_clock] at hlower
    refine ⟨.quiet, arrived ++ [p], hsync, ?_, fun _ => hstarts.trans hp, fun hne => absurd rfl hne⟩
    have hexact : (s.stream.clock cfg (s.tick ⟨pclk, some tready⟩)).beats.length = p := Nat.le_antisymm hupper hlower
    have htick : s.tick ⟨pclk, some tready⟩ = ⟨(s.tick ⟨pclk, some tready⟩).pclk, some (tready, true)⟩ := by
      rw [← hpulse]
      rfl
    show Latched (s.stream.clock cfg (s.tick ⟨pclk, some tready⟩)) (arrived ++ [p])
    rw [htick] at hexact ⊢
    exact ha.latched.arrive _ tready hexact
  · have hpulse : s.sync.bPulse = false := by
      by_contra hup
      exact hout (ha.sync.bPulse.1 (by simpa using hup))
    refine ⟨ph.next false true, arrived, hsync, ?_, ?_, ?_⟩
    · apply ha.latched.keep
      intro x hx
      cases hx
      exact hpulse
    · intro hq
      have hph : ph = .quiet := by
        cases ph with
        | quiet => rfl
        | held => cases hq
        | seen => cases hq
        | out => exact absurd rfl hout
      exact hstarts.trans (ha.quiet hph)
    · intro hne
      have hph : ph ≠ .quiet := by
        rintro rfl
        exact hne rfl
      obtain ⟨p, hp, hm⟩ := ha.coming hph
      exact ⟨p, hstarts.trans hp, hm.clock h.flow h.pipeline hL hph hout hword (ha.notLate hal hph hp)⟩

/-- An instant inside the domain that keeps the mark on its byte. -/
theorem Inv.clock (h : s.Inv cfg) (hf : s.Framed rxCfg cfg e) (hal : s.Aligned cfg e)
    (hL : 1 ≤ cfg.dataFifoLineLen.toNat) : (s.clock rxCfg cfg e).Inv cfg where
  pipeline := h.pipeline.clock (s.tick e)
  flow := by
    show Flow cfg (s.stream.clock cfg (s.tick e))
    rcases e with ⟨pclk, _ | tready⟩
    · exact h.flow.clock_write _
    · exact h.flow.clock_read _ _ hL h.pipeline (hal.words rfl)
  inOrder := inOrder_clock h.flow hL h.inOrder (s.tick e)
  aims := by
    cases hnew : s.newFrame rxCfg e with
    | true => exact h.aims_start hf hL hnew
    | false =>
      cases he : e.aclk with
      | none => exact h.aims_write hf hnew he
      | some tready => exact h.aims_read hf hal hL hnew he
  tuser := h.tuser_clock hal hL

/-- In every run in which the reader finds its words and each mark arrives when the bytes before its own have left,
TUSER is up on exactly the first byte after each VSYNC edge. -/
theorem marked_of_aligned (cfg : FifoCtrl) (hL : 1 ≤ cfg.dataFifoLineLen.toNat) (mem : BitVec 11 → BitVec 8)
    (dataOut : BitVec 8) (es : List RxTick)
    (hf : StepsMeet (step ⟨false, false⟩ cfg) (Framed ⟨false, false⟩ cfg) (reset mem dataOut) es)
    (hal : StepsMeet (step ⟨false, false⟩ cfg) (Aligned cfg) (reset mem dataOut) es) :
    StatesMeet (step ⟨false, false⟩ cfg) Marked (reset mem dataOut) es := by
  have keep : ∀ s e t, Inv cfg s → Framed ⟨false, false⟩ cfg s e ∧ Aligned cfg s e →
      step ⟨false, false⟩ cfg s e = some t → Inv cfg t := by
    rintro s e t h ⟨hframed, haligned⟩ ht
    cases ht
    exact h.clock hframed haligned hL
  have met : ∀ s, Inv cfg s → Marked s := fun s h => ⟨h.inOrder.tdata, h.tuser⟩
  exact (hf.and hal).statesMeet_of_invariant keep met (inv_reset mem dataOut)

/-- A VSYNC pulse between lines. -/
def vsync : List RxTick := [⟨some ⟨true, false, 0, 0, false⟩, none⟩, ⟨some ⟨false, false, 0, 0, false⟩, none⟩]

/-- A line and the first clock behind it. -/
def line (bytes : List (BitVec 8)) : List RxTick :=
  (bytes.map fun byte => ⟨some ⟨false, true, byte, 0, false⟩, none⟩) ++ [⟨some ⟨false, false, 0, 0, false⟩, none⟩]

/-- Clocks of the reader. -/
def aclks (tready : Bool) (k : Nat) : List RxTick := List.replicate k ⟨none, some tready⟩

/-- Two frames of one line each, and a sink that is always ready. -/
theorem marked_of_aligned_readySink :
    StatesMeet (step ⟨false, false⟩ ⟨3, 3⟩) Marked (reset (fun _ => 0) 0)
      (line [] ++ vsync ++ aclks true 4 ++ line [1, 2, 3] ++ aclks true 8 ++
        line [] ++ vsync ++ aclks true 4 ++ line [4, 5, 6] ++ aclks true 8) :=
  marked_of_aligned ⟨3, 3⟩ (by decide) _ _ _ (by decide +kernel) (by decide +kernel)

/-- The same two frames, with a sink that gets ready in the second. -/
def lateSink : List RxTick :=
  line [] ++ vsync ++ aclks false 4 ++ line [1, 2, 3] ++ aclks false 5 ++
    line [] ++ vsync ++ aclks false 5 ++ line [4, 5, 6] ++ aclks true 12

/-- A sink that is not ready while the second frame starts: its mark joins the first one's in the latch, and the
first byte of the second frame leaves without TUSER. -/
theorem mark_lost_at_waiting_sink :
    ¬ ∀ cfg : FifoCtrl, 1 ≤ cfg.dataFifoLineLen.toNat → cfg.dataFifoLineLen.toNat ≤ cfg.dataFifoStart.toNat →
      ∀ (mem : BitVec 11 → BitVec 8) (dataOut : BitVec 8) (es : List RxTick),
        StepsMeet (step ⟨false, false⟩ cfg) (Framed ⟨false, false⟩ cfg) (reset mem dataOut) es →
        StatesMeet (step ⟨false, false⟩ cfg) Marked (reset mem dataOut) es := by
  intro h
  have hrun := h ⟨3, 3⟩ (by decide) (by decide) (fun _ => 0) 0 lateSink (by decide +kernel)
  have hend : exec (step ⟨false, false⟩ ⟨3, 3⟩) (reset (fun _ => 0) 0) lateSink =
      some (lateSink.foldl (clock ⟨false, false⟩ ⟨3, 3⟩) (reset (fun _ => 0) 0)) := rfl
  have hmark := (statesMeet_iff.1 hrun lateSink [] _ (List.append_nil _).symm hend).tuser 3 ⟨4, false, false⟩ (by decide)
  revert hmark
  decide

end Receiver

end RcCarControl.Fpga
