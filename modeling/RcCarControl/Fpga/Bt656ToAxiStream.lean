import RcCarControl.Fpga.FrameMark
import RcCarControl.Fpga.FrameNumbers

/-!
# From the pins to the video bus

The whole of `fpga/rtl/video_ctrl/bt656_to_axi_stream.sv` with its three clocks: the receiver on PCLK, the status on the AXI
clock and the data FIFO with its reader on the stream clock.  Its parts are `StatusPath` and `Receiver`, which share the
receiver, and a run of the module is a run of both (`clock_status`, `clock_receiver`).

`beats_of_video` says what every beat of the bus is, in terms of the pins: the byte of which clock, with the number of its
frame in the first two bytes, with TUSER on the first byte of each frame and TLAST on the last of each line.
-/

namespace RcCarControl.Fpga

open Lts

/-! ### The clocks whose bytes are captured -/

/-- The clocks before `n` whose byte belongs to a frame. -/
def captured (xs : Nat → VideoIn) (n : Nat) : List Nat :=
  (List.range n).filter fun k => (frameStart xs k).isSome && (xs k).href

section Captured

variable {xs : Nat → VideoIn}

theorem isSome_numberedByte (cnts : BitVec 32) (k : Nat) :
    (numberedByte cnts xs k).isSome = ((frameStart xs k).isSome && (xs k).href) := by
  unfold numberedByte
  cases frameStart xs k with
  | none => rfl
  | some r =>
    cases (xs k).href with
    | false => rfl
    | true =>
      simp only [if_true]
      split_ifs <;> rfl

/-- An entry of a filtered and mapped list comes from the entry of the filtered one. -/
theorem exists_of_getElem?_filterMap {α β : Type*} {f : α → Option β} {l : List α} {j : Nat} {b : β}
    (h : (l.filterMap f)[j]? = some b) : ∃ a, (l.filter fun a => (f a).isSome)[j]? = some a ∧ f a = some b := by
  induction l generalizing j with
  | nil => cases h
  | cons a l ih =>
    cases hf : f a with
    | none =>
      rw [List.filterMap_cons_none hf] at h
      rw [List.filter_cons_of_neg (by simp [hf])]
      exact ih h
    | some c =>
      rw [List.filterMap_cons_some hf] at h
      rw [List.filter_cons_of_pos (by simp [hf])]
      cases j with
      | zero => exact ⟨a, rfl, hf.trans h⟩
      | succ j => exact ih h

theorem captured_succ (n : Nat) :
    captured xs (n + 1) = captured xs n ++ if ((frameStart xs n).isSome && (xs n).href) = true then [n] else [] := by
  unfold captured
  rw [List.range_succ, List.filter_append]
  congr 1
  cases h : (frameStart xs n).isSome && (xs n).href <;> simp [h]

theorem captured_length_mono (xs : Nat → VideoIn) {m n : Nat} (h : m ≤ n) : (captured xs m).length ≤ (captured xs n).length := by
  induction n, h using Nat.le_induction with
  | base => exact Nat.le_refl _
  | succ n _ ih =>
    rw [captured_succ, List.length_append]
    omega

/-- The position of a captured clock is the number of those before it. -/
theorem captured_getElem? {n j k : Nat} (h : (captured xs n)[j]? = some k) :
    k < n ∧ ((frameStart xs k).isSome && (xs k).href) = true ∧ j = (captured xs k).length := by
  induction n with
  | zero => cases h
  | succ n ih =>
    rw [captured_succ] at h
    obtain hlt | hge := Nat.lt_or_ge j (captured xs n).length
    · rw [List.getElem?_append_left hlt] at h
      obtain ⟨hk, hc, hj⟩ := ih h
      exact ⟨by omega, hc, hj⟩
    · rw [List.getElem?_append_right hge] at h
      split_ifs at h with hc
      · rw [List.getElem?_singleton] at h
        split_ifs at h with hz
        obtain rfl := Option.some.inj h
        exact ⟨Nat.lt_succ_self _, hc, by omega⟩
      · cases h

/-- The bytes of a frame follow those of the frames before. -/
theorem captured_length {k r : Nat} (h : frameStart xs k = some r) :
    (captured xs k).length = (captured xs r).length + byteNo xs k := by
  induction k with
  | zero => cases h
  | succ k ih =>
    by_cases hr : Rise xs (k + 1)
    · rw [frameStart_rise hr] at h
      obtain rfl := Option.some.inj h
      rw [byteNo_rise hr]
      rfl
    · have hk : frameStart xs k = some r := (frameStart_succ hr).symm.trans h
      rw [captured_succ, List.length_append, ih hk, byteNo_succ hr, hk]
      cases (xs k).href with
      | false => rfl
      | true => exact Nat.add_assoc _ _ 1

/-- The last frame start is the last edge. -/
theorem le_frameStart {k r r' : Nat} (h : frameStart xs k = some r) (hr : Rise xs r') (hle : r' ≤ k) : r' ≤ r := by
  induction k with
  | zero => cases h
  | succ k ih =>
    by_cases hk : Rise xs (k + 1)
    · rw [frameStart_rise hk] at h
      obtain rfl := Option.some.inj h
      exact hle
    · obtain hlt | rfl := Nat.lt_or_eq_of_le hle
      · exact ih ((frameStart_succ hk).symm.trans h) (by omega)
      · exact absurd hr hk

/-- A captured byte is the first of its frame exactly at the position of a frame start. -/
theorem byteNo_eq_zero_iff {n j k : Nat} (h : (captured xs n)[j]? = some k) :
    byteNo xs k = 0 ↔ ∃ r < n, Rise xs r ∧ j = (captured xs r).length := by
  obtain ⟨hk, hc, rfl⟩ := captured_getElem? h
  obtain ⟨hs, hh⟩ := Bool.and_eq_true_iff.1 hc
  obtain ⟨r, hr⟩ := Option.isSome_iff_exists.1 hs
  have hlen := captured_length hr
  constructor
  · intro hzero
    have hle := frameStart_le hr
    exact ⟨r, by omega, rise_of_frameStart hr, by omega⟩
  · rintro ⟨r', -, hr', hpos⟩
    obtain hgt | hle := Nat.lt_or_ge k r'
    · -- an edge behind the byte has it among the bytes before
      have hmono := captured_length_mono xs (show k + 1 ≤ r' from hgt)
      rw [captured_succ, if_pos hc, List.length_append, List.length_singleton] at hmono
      omega
    · have := captured_length_mono xs (le_frameStart hr hr' hle)
      omega

end Captured

/-! ### The module -/

/-- The pins at a rising PCLK. -/
structure CameraIn where
  vsync : Bool
  href : Bool
  data : BitVec 8

/-- An instant at which PCLK, the stream clock (with TREADY) or the AXI clock (with `rst_size_err`) rise. -/
structure ModuleTick where
  pclk : Option CameraIn
  aclk : Option Bool
  axiClk : Option Bool

structure Bt656ToAxiStream where
  status : StatusPath
  streamSync : SyncPulse
  stream : VideoStream

namespace Bt656ToAxiStream

/-- Enabled. -/
def enabled (sizeMem : BitVec 2 → BitVec 32) (sizeStatus : BitVec 32) (counts : FrameLength) (mem : BitVec 11 → BitVec 8)
    (dataOut : BitVec 8) : Bt656ToAxiStream :=
  ⟨.enabled sizeMem sizeStatus counts, .idle, .reset mem dataOut⟩

variable (rxCfg : Bt656Cfg) (cfg : FifoCtrl) (s : Bt656ToAxiStream) (e : ModuleTick)

/-- What the receiver and the status see of an instant. -/
def statusTick : StatusTick := ⟨e.pclk.map fun x => ⟨x.vsync, x.href, x.data, s.stream.fifo.fullOut⟩, e.axiClk⟩

/-- What the receiver samples. -/
def videoIn (x : CameraIn) : VideoIn := s.status.videoIn ⟨x.vsync, x.href, x.data, s.stream.fifo.fullOut⟩

/-- What the data FIFO and its reader see. -/
def streamTick : Tick where
  pclk := e.pclk.map fun x => (s.status.rx.dataFifoWrite (s.videoIn x), s.status.rx.inData0)
  aclk := e.aclk.map fun tready => (tready, s.streamSync.bPulse)

def clock : Bt656ToAxiStream where
  status := s.status.clock rxCfg (s.statusTick e)
  streamSync := s.streamSync.clock (e.pclk.map fun _ => s.status.rx.inNewFrame rxCfg) e.aclk.isSome
  stream := s.stream.clock cfg (s.streamTick e)

def step : Option Bt656ToAxiStream := some (s.clock rxCfg cfg e)

end Bt656ToAxiStream

/-- The log of the status, the positions of the frame starts in the bytes, and the edges of the stream clock since the last
frame start and since the last PCLK. -/
structure ModuleLog where
  status : StatusLog
  starts : List Nat
  streamSinceStart : Nat
  streamSeen : Bool

def ModuleLog.start : ModuleLog := ⟨.start, [], 3, true⟩

def ModuleLog.note (rxCfg : Bt656Cfg) (s : Bt656ToAxiStream) (e : ModuleTick) (g : ModuleLog) : ModuleLog where
  status := g.status.note rxCfg s.status (s.statusTick e)
  starts :=
    if s.status.frameStarts rxCfg (s.statusTick e) then g.starts ++ [s.stream.log.written.length] else g.starts
  streamSinceStart :=
    if s.status.frameStarts rxCfg (s.statusTick e) then 0 else g.streamSinceStart + e.aclk.isSome.toNat
  streamSeen := !e.pclk.isSome && (e.aclk.isSome || g.streamSeen)

namespace Bt656ToAxiStream

abbrev Logged := Bt656ToAxiStream × ModuleLog

variable (rxCfg : Bt656Cfg) (cfg : FifoCtrl) (r : Logged) (e : ModuleTick)

def Logged.step : Option Logged := withGhost (Bt656ToAxiStream.step rxCfg cfg) (ModuleLog.note rxCfg) r e

/-- The part with the status. -/
def Logged.status : StatusPath.Logged := (r.1.status, r.2.status)

/-- The part with the data. -/
def Logged.receiver : Receiver := ⟨r.1.status.rx, r.1.streamSync, r.1.stream, r.2.starts⟩

def Logged.rxTick : RxTick :=
  ⟨e.pclk.map fun x => ⟨x.vsync, x.href, x.data, r.1.status.counts.rxFrameCnts, r.1.status.errSync.bPulse⟩, e.aclk⟩

/-- Both AXI clocks are faster than PCLK, frames are longer than eight PCLKs and made of whole lines, the data FIFO is never
full, and the reader finds its words and the marks their bytes. -/
structure Regular : Prop where
  paced : StatusPath.Paced rxCfg r.status (r.1.statusTick e)
  streamClock : e.pclk.isSome = true → r.2.streamSeen = true
  notFull : r.1.stream.fifo.fullOut = false
  lines : r.1.status.frameStarts rxCfg (r.1.statusTick e) = true → cfg.dataFifoLineLen.toNat ∣ r.1.stream.log.written.length
  aligned : r.receiver.Aligned cfg (r.rxTick e)

instance : Decidable (Regular rxCfg cfg r e) :=
  decidable_of_iff (StatusPath.Paced rxCfg r.status (r.1.statusTick e) ∧ (e.pclk.isSome = true → r.2.streamSeen = true) ∧
    r.1.stream.fifo.fullOut = false ∧ (r.1.status.frameStarts rxCfg (r.1.statusTick e) = true →
      cfg.dataFifoLineLen.toNat ∣ r.1.stream.log.written.length) ∧ r.receiver.Aligned cfg (r.rxTick e))
    ⟨fun h => ⟨h.1, h.2.1, h.2.2.1, h.2.2.2.1, h.2.2.2.2⟩, fun h => ⟨h.paced, h.streamClock, h.notFull, h.lines, h.aligned⟩⟩

variable {rxCfg cfg r e}

/-! ### The parts -/

theorem clock_status {t : Logged} (h : Logged.step rxCfg cfg r e = some t) :
    StatusPath.Logged.step rxCfg r.status (r.1.statusTick e) = some t.status := by
  obtain ⟨t, g'⟩ := t
  obtain ⟨h, rfl⟩ := withGhost_eq_some.1 h
  obtain rfl := Option.some.inj h
  rfl

theorem clock_receiver {t : Logged} (h : Logged.step rxCfg cfg r e = some t) :
    t.receiver = r.receiver.clock rxCfg cfg (r.rxTick e) := by
  obtain ⟨t, g'⟩ := t
  obtain ⟨h, rfl⟩ := withGhost_eq_some.1 h
  obtain rfl := Option.some.inj h
  obtain ⟨s, g⟩ := r
  obtain ⟨pclk, aclk, axiClk⟩ := e
  cases pclk <;> rfl

/-! ### One instant -/

/-- The positions at which the frames of a trace start in the bytes, for the starts seen before clock `n`. -/
def startPositions (rxCfg : Bt656Cfg) (xs : Nat → VideoIn) (n : Nat) : List Nat :=
  ((List.range (n - 1)).filter fun r => decide (Rise xs r)).map fun r => (Bt656.written rxCfg xs (r + 1)).length

structure Inv (rxCfg : Bt656Cfg) (cfg : FifoCtrl) (cnts : BitVec 32) (xs : Nat → VideoIn) (r : Logged) : Prop where
  counted : StatusPath.Counted cnts r.status
  round : r.1.streamSync.Round r.2.status.pclksSinceStart r.2.streamSinceStart r.2.streamSeen
  receiver : r.receiver.Inv cfg
  bytes : r.1.stream.log.written = r.2.status.bytes
  numbered : Extends xs r.2.status.samples → StatusPath.Numbered rxCfg cnts r.status xs
  starts : Extends xs r.2.status.samples → r.2.starts = startPositions rxCfg xs r.2.status.samples.length

theorem newFrame_eq : r.receiver.newFrame rxCfg (r.rxTick e) = r.1.status.frameStarts rxCfg (r.1.statusTick e) := by
  obtain ⟨pclk, aclk, axiClk⟩ := e
  cases pclk <;> rfl

variable {cnts : BitVec 32} {xs : Nat → VideoIn}

/-- The stream clock follows the frame starts as the AXI clock does. -/
theorem Inv.round_clock {t : Logged} (h : Inv rxCfg cfg cnts xs r) (hr : Regular rxCfg cfg r e)
    (ht : Logged.step rxCfg cfg r e = some t) :
    t.1.streamSync.Round t.2.status.pclksSinceStart t.2.streamSinceStart t.2.streamSeen := by
  obtain ⟨s, g⟩ := r
  obtain ⟨t, g'⟩ := t
  obtain ⟨pclk, aclk, axiClk⟩ := e
  obtain ⟨ht, rfl⟩ := withGhost_eq_some.1 ht
  obtain rfl := Option.some.inj ht
  have hpclks : (pclk.map fun x : CameraIn => (⟨x.vsync, x.href, x.data, s.stream.fifo.fullOut⟩ : StatusIn)).isSome =
      pclk.isSome := Option.isSome_map
  cases hs : s.status.frameStarts rxCfg (s.statusTick ⟨pclk, aclk, axiClk⟩) with
  | true =>
    obtain ⟨hpclk, hnew⟩ := Bool.and_eq_true_iff.1 hs
    have hround := h.round.pulse ((hr.paced hpclk).2 hnew) aclk.isSome
    obtain ⟨x, rfl⟩ := Option.isSome_iff_exists.1 (hpclks.symm.trans hpclk)
    have hsync : (s.clock rxCfg cfg ⟨some x, aclk, axiClk⟩).streamSync = s.streamSync.clock (some true) aclk.isSome := by
      show s.streamSync.clock (some (s.status.rx.inNewFrame rxCfg)) aclk.isSome = _
      rw [show s.status.rx.inNewFrame rxCfg = true from hnew]
    rw [← hsync] at hround
    simpa [ModuleLog.note, StatusLog.note, hs] using hround
  | false =>
    have hno : (pclk.map fun _ => s.status.rx.inNewFrame rxCfg) ≠ some true := by
      intro hc
      obtain ⟨x, rfl, hnew⟩ := Option.map_eq_some_iff.1 hc
      have hs' : s.status.rx.inNewFrame rxCfg = false := hs
      rw [hnew] at hs'
      cases hs'
    have hround := h.round.keep hno (fun hpclk => hr.streamClock (Option.isSome_map ▸ hpclk)) aclk.isSome
    rw [Option.isSome_map] at hround
    have hmore : (g.note rxCfg s ⟨pclk, aclk, axiClk⟩).status.pclksSinceStart =
        g.status.pclksSinceStart + pclk.isSome.toNat := by
      simp only [ModuleLog.note, StatusLog.note, hs]
      rw [← hpclks]
      rfl
    have hsince : (g.note rxCfg s ⟨pclk, aclk, axiClk⟩).streamSinceStart = g.streamSinceStart + aclk.isSome.toNat := by
      simp [ModuleLog.note, hs]
    rw [hmore, hsince]
    exact hround

/-- The receiver with the data is in its domain. -/
theorem Inv.framed (h : Inv rxCfg cfg cnts xs r) (hr : Regular rxCfg cfg r e) :
    r.receiver.Framed rxCfg cfg (r.rxTick e) where
  notFull := hr.notFull
  frame hnew := by
    rw [newFrame_eq] at hnew
    obtain ⟨hpclk, hstart⟩ := Bool.and_eq_true_iff.1 hnew
    exact ⟨(h.round.over ((hr.paced hpclk).2 hstart)).1, hr.lines hnew⟩

/-- The data FIFO takes the bytes of the receiver. -/
theorem written_clock {t : Logged} (h : r.1.stream.log.written = r.2.status.bytes) (ht : Logged.step rxCfg cfg r e = some t) :
    t.1.stream.log.written = t.2.status.bytes := by
  obtain ⟨s, g⟩ := r
  obtain ⟨t, g'⟩ := t
  obtain ⟨pclk, aclk, axiClk⟩ := e
  obtain ⟨ht, rfl⟩ := withGhost_eq_some.1 ht
  obtain rfl := Option.some.inj ht
  cases pclk with
  | none => exact congrArg (· ++ []) h
  | some x =>
    have hbyte : s.stream.fifo.accepted (some (s.status.rx.dataFifoWrite (s.videoIn x), s.status.rx.inData0)) =
        s.status.rx.fifoByte (s.videoIn x) := by
      have hwrite : s.status.rx.dataFifoWrite (s.videoIn x) =
          (s.status.rx.state == .vdata && !s.stream.fifo.fullOut) := rfl
      unfold Bt656.fifoByte AsyncFifo.accepted
      rw [hwrite]
      cases s.status.rx.state == .vdata <;> cases s.stream.fifo.fullOut <;> rfl
    show s.stream.log.written ++ (s.stream.fifo.accepted _).toList = g.status.bytes ++ _
    rw [show s.stream.log.written = g.status.bytes from h]
    exact congrArg (fun o => _ ++ Option.toList o) hbyte

theorem startPositions_succ (xs : Nat → VideoIn) (m : Nat) :
    startPositions rxCfg xs (m + 2) = startPositions rxCfg xs (m + 1) ++
      if Rise xs m then [(Bt656.written rxCfg xs (m + 1)).length] else [] := by
  unfold startPositions
  rw [show m + 2 - 1 = m + 1 from rfl, Nat.add_sub_cancel, List.range_succ, List.filter_append, List.map_append]
  by_cases h : Rise xs m <;> simp [h]

/-- The frame starts are noted where the frames start in the bytes. -/
theorem Inv.starts_clock {t : Logged} (h : Inv rxCfg cfg cnts xs r) (hp : rxCfg.pureBt656 = false)
    (ht : Logged.step rxCfg cfg r e = some t) (hx : Extends xs t.2.status.samples) :
    t.2.starts = startPositions rxCfg xs t.2.status.samples.length := by
  have hold : Extends xs r.2.status.samples := StatusPath.before (clock_status ht) hx
  have hnum := h.numbered hold
  have hstarts := h.starts hold
  have hbytes := h.bytes
  obtain ⟨s, g⟩ := r
  obtain ⟨t, g'⟩ := t
  obtain ⟨pclk, aclk, axiClk⟩ := e
  obtain ⟨ht, rfl⟩ := withGhost_eq_some.1 ht
  obtain rfl := Option.some.inj ht
  have hstarts' : g.starts = startPositions rxCfg xs g.status.samples.length := hstarts
  cases pclk with
  | none =>
    have hsamples : (g.note rxCfg s ⟨none, aclk, axiClk⟩).status.samples = g.status.samples := List.append_nil _
    rw [hsamples]
    exact hstarts'
  | some x =>
    have hlen : (g.note rxCfg s ⟨some x, aclk, axiClk⟩).status.samples.length = g.status.samples.length + 1 :=
      List.length_append
    have hnote : (g.note rxCfg s ⟨some x, aclk, axiClk⟩).starts =
        if s.status.rx.inNewFrame rxCfg then g.starts ++ [s.stream.log.written.length] else g.starts := rfl
    have hnew : s.status.rx.inNewFrame rxCfg = _ := hnum.newFrame hp
    rw [hlen, hnote, hnew, hstarts']
    cases hn : (g.status.samples : List VideoIn).length with
    | zero =>
      rw [show (Logged.status (s, g)).2.samples.length = 0 from hn]
      rfl
    | succ m =>
      have hpos : s.stream.log.written.length = (Bt656.written rxCfg xs (m + 1)).length := by
        rw [show s.stream.log.written = g.status.bytes from hbytes, show g.status.bytes = _ from hnum.bytes]
        rw [show (Logged.status (s, g)).2.samples.length = m + 1 from hn]
      rw [show (Logged.status (s, g)).2.samples.length = m + 1 from hn, startPositions_succ, hpos]
      by_cases hrise : Rise xs m <;> simp [hrise]

theorem Inv.step {t : Logged} (h : Inv rxCfg cfg cnts xs r) (hp : rxCfg.pureBt656 = false)
    (hL : 1 ≤ cfg.dataFifoLineLen.toNat) (hr : Regular rxCfg cfg r e) (ht : Logged.step rxCfg cfg r e = some t) :
    Inv rxCfg cfg cnts xs t where
  counted := h.counted.step hr.paced (clock_status ht)
  round := h.round_clock hr ht
  receiver := by
    rw [clock_receiver ht]
    exact h.receiver.clock (h.framed hr) hr.aligned hL
  bytes := written_clock h.bytes ht
  numbered hx :=
    (h.numbered (StatusPath.before (clock_status ht) hx)).step hp h.counted hr.paced (clock_status ht) hx
  starts hx := h.starts_clock hp ht hx

/-! ### Runs -/

section Runs

variable (sizeMem : BitVec 2 → BitVec 32) (sizeStatus : BitVec 32) (counts : FrameLength) (mem : BitVec 11 → BitVec 8)
  (dataOut : BitVec 8)

theorem inv_enabled (xs : Nat → VideoIn) :
    Inv rxCfg cfg counts.rxFrameCnts xs (enabled sizeMem sizeStatus counts mem dataOut, .start) where
  counted := StatusPath.counted_enabled sizeMem counts
  round := SyncPulse.round_idle
  receiver := Receiver.inv_reset mem dataOut
  bytes := rfl
  numbered _ := StatusPath.numbered_enabled sizeMem sizeStatus counts xs
  starts _ := rfl

/-- The bytes of the first clocks are those of the captured ones. -/
theorem filter_numberedByte (cnts : BitVec 32) (xs : Nat → VideoIn) (n : Nat) :
    ((List.range n).filter fun k => (numberedByte cnts xs k).isSome) = captured xs n :=
  List.filter_congr fun k _ => isSome_numberedByte cnts k

theorem length_numbered (cnts : BitVec 32) (xs : Nat → VideoIn) (n : Nat) :
    ((List.range n).filterMap (numberedByte cnts xs)).length = (captured xs n).length := by
  rw [← filter_numberedByte cnts]
  induction List.range n with
  | nil => rfl
  | cons k l ih =>
    cases hk : numberedByte cnts xs k with
    | none => rw [List.filterMap_cons_none hk, List.filter_cons_of_neg (by simp [hk]), ih]
    | some b => rw [List.filterMap_cons_some hk, List.filter_cons_of_pos (by simp [hk]), List.length_cons, List.length_cons, ih]

/-- What the receiver has written before a clock. -/
theorem written_of_numbered {r : StatusPath.Logged} (hp : rxCfg.pureBt656 = false) (he : rxCfg.embFrameCnt = true)
    (hnum : StatusPath.Numbered rxCfg cnts r xs) (hl : LongLines xs) (hq : QuietStarts xs)
    (hfull : ∀ k, (xs k).dataFifoFull = false) {m : Nat} (hm : m ≤ r.2.samples.length - 1) :
    Bt656.written rxCfg xs (m + 1) = (List.range m).filterMap (numberedByte cnts xs) :=
  StatusPath.written_eq_numbered hp he hl hq hfull fun k hk => hnum.number k (by omega)

theorem Inv.bytes_eq {t : Logged} (h : Inv rxCfg cfg cnts xs t) (hp : rxCfg.pureBt656 = false)
    (he : rxCfg.embFrameCnt = true) (hx : Extends xs t.2.status.samples) (hl : LongLines xs) (hq : QuietStarts xs)
    (hfull : ∀ k, (xs k).dataFifoFull = false) :
    t.1.stream.log.written = (List.range (t.2.status.samples.length - 1)).filterMap (numberedByte cnts xs) := by
  have hnum := h.numbered hx
  have hbytes : t.2.status.bytes = Bt656.written rxCfg xs t.2.status.samples.length := hnum.bytes
  rw [h.bytes, hbytes]
  cases hn : t.2.status.samples.length with
  | zero => rfl
  | succ m =>
    have hlast : m ≤ t.status.2.samples.length - 1 := by
      show m ≤ t.2.status.samples.length - 1
      omega
    exact written_of_numbered hp he hnum hl hq hfull hlast

/-- The marked positions are those of the first bytes. -/
theorem Inv.mem_starts {t : Logged} (h : Inv rxCfg cfg cnts xs t) (hp : rxCfg.pureBt656 = false)
    (he : rxCfg.embFrameCnt = true) (hx : Extends xs t.2.status.samples) (hl : LongLines xs) (hq : QuietStarts xs)
    (hfull : ∀ k, (xs k).dataFifoFull = false) (j : Nat) :
    j ∈ t.2.starts ↔ ∃ r < t.2.status.samples.length - 1, Rise xs r ∧ j = (captured xs r).length := by
  have hpos (r : Nat) (hr : r < t.2.status.samples.length - 1) :
      (Bt656.written rxCfg xs (r + 1)).length = (captured xs r).length := by
    rw [written_of_numbered hp he (h.numbered hx) hl hq hfull hr.le, length_numbered]
  rw [h.starts hx, startPositions, List.mem_map]
  constructor
  · rintro ⟨r, hr, rfl⟩
    obtain ⟨hlt, hrise⟩ := List.mem_filter.1 hr
    exact ⟨r, List.mem_range.1 hlt, of_decide_eq_true hrise, hpos r (List.mem_range.1 hlt)⟩
  · rintro ⟨r, hlt, hrise, rfl⟩
    exact ⟨r, List.mem_filter.2 ⟨List.mem_range.2 hlt, decide_eq_true hrise⟩, hpos r hlt⟩

/-- A beat of the bus is the byte of the captured clock at its position. -/
theorem Inv.beat {t : Logged} (h : Inv rxCfg cfg cnts xs t) (hp : rxCfg.pureBt656 = false)
    (he : rxCfg.embFrameCnt = true) (hx : Extends xs t.2.status.samples) (hl : LongLines xs) (hq : QuietStarts xs)
    (hfull : ∀ k, (xs k).dataFifoFull = false) {j : Nat} {beat : Beat} (hj : t.1.stream.beats[j]? = some beat) :
    ∃ k, (captured xs (t.2.status.samples.length - 1))[j]? = some k ∧ numberedByte cnts xs k = some beat.tdata ∧
      (beat.tuser = true ↔ byteNo xs k = 0) ∧ (beat.tlast = true ↔ (j + 1) % cfg.dataFifoLineLen.toNat = 0) := by
  have hbyte : (t.1.stream.log.written)[j]? = some beat.tdata := by
    have hprefix : t.1.stream.beats.map Beat.tdata <+: t.1.stream.log.written := h.receiver.inOrder.tdata
    obtain ⟨more, hmore⟩ := hprefix
    have hsent : (t.1.stream.beats.map Beat.tdata)[j]? = some beat.tdata := by
      rw [List.getElem?_map, hj]
      rfl
    rw [← hmore, List.getElem?_append_left (List.getElem?_eq_some_iff.1 hsent).1]
    exact hsent
  rw [h.bytes_eq hp he hx hl hq hfull] at hbyte
  obtain ⟨k, hk, hdata⟩ := exists_of_getElem?_filterMap hbyte
  rw [filter_numberedByte] at hk
  refine ⟨k, hk, hdata, ?_, h.receiver.inOrder.tlast j beat hj⟩
  have htuser : beat.tuser = true ↔ j ∈ t.2.starts := h.receiver.tuser j beat hj
  rw [htuser, h.mem_starts hp he hx hl hq hfull, byteNo_eq_zero_iff hk]

/-- In every run with regular instants, for pins whose lines have two bytes at least and keep clear of the frame starts, and
with `emb_frame_cnt` set: every beat of the bus is the byte of one clock of PCLK, in the order of the clocks and without a
gap; the first two bytes of a frame are its number; TUSER is up on exactly the first byte of each frame, and TLAST on exactly
each `data_fifo_line_len`-th beat. -/
theorem beats_of_video (hp : rxCfg.pureBt656 = false) (he : rxCfg.embFrameCnt = true)
    (hL : 1 ≤ cfg.dataFifoLineLen.toNat) {es : List ModuleTick} {t : Logged} {xs : Nat → VideoIn}
    (hr : StepsMeet (Logged.step rxCfg cfg) (Regular rxCfg cfg) (enabled sizeMem sizeStatus counts mem dataOut, .start) es)
    (h : exec (Logged.step rxCfg cfg) (enabled sizeMem sizeStatus counts mem dataOut, .start) es = some t)
    (hx : Extends xs t.2.status.samples) (hl : LongLines xs) (hq : QuietStarts xs)
    (hfull : ∀ k, (xs k).dataFifoFull = false) {j : Nat} {beat : Beat} (hj : t.1.stream.beats[j]? = some beat) :
    ∃ k, (captured xs (t.2.status.samples.length - 1))[j]? = some k ∧
      numberedByte counts.rxFrameCnts xs k = some beat.tdata ∧ (beat.tuser = true ↔ byteNo xs k = 0) ∧
      (beat.tlast = true ↔ (j + 1) % cfg.dataFifoLineLen.toNat = 0) := by
  have hinv : Inv rxCfg cfg counts.rxFrameCnts xs t :=
    exec_invariant (fun _ _ _ hi hr ht => hi.step hp hL hr ht)
      (inv_enabled sizeMem sizeStatus counts mem dataOut xs) hr h
  exact hinv.beat hp he hx hl hq hfull hj

/-- The two frames of one line of `StatusPath.twoFramesPins`, with both AXI clocks on either side of each PCLK and a sink
that is always ready. -/
def twoFrames : List ModuleTick :=
  (List.range 24).flatMap fun k => [⟨none, some true, some false⟩,
    ⟨some ⟨(StatusPath.twoFramesPins k).vsync, (StatusPath.twoFramesPins k).href, (StatusPath.twoFramesPins k).data⟩, none, none⟩,
    ⟨none, some true, some false⟩]

/-- The first byte of the second frame leaves as the fourth beat, with TUSER and the upper half of 256. -/
theorem beats_of_video_twoFrames : ∃ t k,
    exec (Logged.step ⟨false, true⟩ ⟨3, 3⟩) (enabled (fun _ => 0) 0 ⟨0, 0, 255⟩ (fun _ => 0) 0, .start) twoFrames = some t ∧
      t.1.stream.beats[3]? = some ⟨1, false, true⟩ ∧
      (captured StatusPath.twoFramesVideo (t.2.status.samples.length - 1))[3]? = some k ∧
      numberedByte 255 StatusPath.twoFramesVideo k = some 1 ∧ byteNo StatusPath.twoFramesVideo k = 0 := by
  obtain ⟨t, ht, hbeat, hsamples⟩ := @exists_exec _ _ (Logged.step ⟨false, true⟩ ⟨3, 3⟩)
    (fun t => t.1.stream.beats[3]? = some ⟨1, false, true⟩ ∧
      t.2.status.samples = (List.range 24).map StatusPath.twoFramesVideo) _
    (enabled (fun _ => 0) 0 ⟨0, 0, 255⟩ (fun _ => 0) 0, .start) twoFrames (by decide +kernel)
  have hx : Extends StatusPath.twoFramesVideo t.2.status.samples := by
    rw [hsamples]
    exact extends_range _ _
  obtain ⟨k, hk, hdata, htuser, -⟩ := beats_of_video (fun _ => 0) 0 ⟨0, 0, 255⟩ (fun _ => 0) 0 rfl rfl (by decide)
    (by decide +kernel) ht hx StatusPath.longLines_twoFrames StatusPath.quietStarts_twoFrames (fun _ => rfl) hbeat
  exact ⟨t, k, ht, hbeat, hk, hdata, htuser.1 rfl⟩

end Runs

end Bt656ToAxiStream

end RcCarControl.Fpga
