import RcCarControl.Fpga.StreamReader

/-!
# The stream carries the FIFO's bytes, line by line

With the start value at least `min L 2` words above the line length `L`, the transferred bytes are the accepted bytes in
order, and TLAST ends every `L`-th beat (`beats_in_order`).

The reader keeps one word in flight: in a line it has read one word more than it has transferred.  It starts a line on a
word count that is some clocks old; in those clocks the previous line ends with at most `min L 2` reads
(`Reads.data`, `Reads.idle`), so the start value has to cover them besides the line itself.  With a start value of just
the line length the reader starts a line the FIFO does not hold yet, runs dry in it and repeats a byte.
-/

namespace RcCarControl.Fpga

variable {cfg : FifoCtrl}

/-- Bytes in order and TLAST on every `lineLen`-th beat. -/
structure InOrder (lineLen : Nat) (written : List (BitVec 8)) (beats : List Beat) : Prop where
  tdata : beats.map Beat.tdata <+: written
  tlast : ∀ i beat, beats[i]? = some beat → (beat.tlast = true ↔ (i + 1) % lineLen = 0)

theorem inOrder_nil (lineLen : Nat) : InOrder lineLen [] [] :=
  ⟨List.nil_prefix, by simp⟩

theorem InOrder.mono {lineLen : Nat} {written : List (BitVec 8)} {beats : List Beat}
    (h : InOrder lineLen written beats) (more : List (BitVec 8)) : InOrder lineLen (written ++ more) beats :=
  ⟨h.tdata.trans (List.prefix_append _ _), h.tlast⟩

/-- The next beat carries the next byte. -/
theorem InOrder.snoc {lineLen : Nat} {written : List (BitVec 8)} {beats : List Beat} {beat : Beat}
    (h : InOrder lineLen written beats) (hdata : written[beats.length]? = some beat.tdata)
    (hlast : beat.tlast = true ↔ (beats.length + 1) % lineLen = 0) : InOrder lineLen written (beats ++ [beat]) := by
  constructor
  · obtain ⟨rest, hrest⟩ := h.tdata
    have hlen : beats.length = (beats.map Beat.tdata).length := (List.length_map _).symm
    rw [← hrest, hlen, List.getElem?_append_right (Nat.le_refl _), Nat.sub_self] at hdata
    cases rest with
    | nil => simp at hdata
    | cons byte rest =>
      obtain rfl : byte = beat.tdata := by simpa using hdata
      exact ⟨rest, by rw [← hrest]; simp⟩
  · intro i b hb
    rcases getElem?_append_toList (o := some beat) hb with hold | ⟨rfl, hnew⟩
    · exact h.tlast i b hold
    · cases hnew
      exact hlast

/-! ### The start condition is late but not wrong -/

/-- What the word count and the start condition say about the counts behind them. -/
structure Pipeline (cfg : FifoCtrl) (s : VideoStream) : Prop where
  tracks : Tracks s.fifo s.log
  wordCount : s.fifo.readWordCountOut = BitVec.ofNat 11 (s.counted.1 - s.counted.2)
  start : s.reader.fifoStartRead = true → cfg.dataFifoStart.toNat ≤ s.compared.1 - s.compared.2
  counted_le : s.counted.1 ≤ s.log.syncWritten
  compared_le : s.compared.1 ≤ s.counted.1

theorem pipeline_reset (mem : BitVec 11 → BitVec 8) (dataOut : BitVec 8) : Pipeline cfg (.reset mem dataOut) :=
  ⟨tracks_cleared mem dataOut, rfl, fun h => (by cases h), Nat.le_refl 0, Nat.le_refl 0⟩

theorem Pipeline.clock {s : VideoStream} (h : Pipeline cfg s) (e : Tick) : Pipeline cfg (s.clock cfg e) := by
  have ht : Tracks (s.clock cfg e).fifo (s.clock cfg e).log := tracks_clock cfg h.tracks e
  have hsync := h.tracks.syncWritten_le
  rcases e with ⟨pclk, _ | ⟨tready, newFrame⟩⟩
  · have hcount := AsyncFifo.clock_readWordCountOut s.fifo pclk none
    exact ⟨ht, hcount.trans h.wordCount, h.start, h.counted_le, h.compared_le⟩
  · have hcount := AsyncFifo.clock_readWordCountOut s.fifo pclk (s.rclk cfg ⟨pclk, some (tready, newFrame)⟩)
    refine ⟨ht, hcount.trans h.tracks.wordCount, ?_, hsync, h.counted_le⟩
    intro hs
    have hle : cfg.dataFifoStart ≤ s.fifo.readWordCountOut := of_decide_eq_true hs
    rw [h.wordCount, BitVec.le_def, BitVec.toNat_ofNat] at hle
    exact hle.trans (Nat.mod_le _ _)

/-! ### How far the reader is -/

/-- In idle all words read are transferred; in a line one word more is read and held in the output register, and the
rest of the line is in the FIFO.  The samples of the read count are late by the reads of the clocks in between. -/
structure Reads (cfg : FifoCtrl) (s : VideoStream) : Prop where
  pixelCnt : s.reader.fifoPixelCnt.toNat = s.beats.length % cfg.dataFifoLineLen.toNat
  idle : s.reader.axiState = .idle → s.log.read = s.beats.length ∧
    s.beats.length % cfg.dataFifoLineLen.toNat = 0 ∧ s.log.syncRead = s.log.read ∧
    s.log.read ≤ s.counted.2 + 1 ∧ s.log.read ≤ s.compared.2 + min cfg.dataFifoLineLen.toNat 2
  data : s.reader.axiState = .data → s.log.read = s.beats.length + 1 ∧
    s.log.written[s.beats.length]? = some s.fifo.dataOut ∧
    s.log.read + cfg.dataFifoLineLen.toNat ≤ s.log.syncWritten + s.beats.length % cfg.dataFifoLineLen.toNat + 1 ∧
    s.log.read ≤ s.log.syncRead + 1 ∧ s.log.read ≤ s.counted.2 + min cfg.dataFifoLineLen.toNat 2

/-- The same without the rest of the line: this the reader keeps as long as every word it asks for is there. -/
structure Flow (cfg : FifoCtrl) (s : VideoStream) : Prop where
  pixelCnt : s.reader.fifoPixelCnt.toNat = s.beats.length % cfg.dataFifoLineLen.toNat
  idle : s.reader.axiState = .idle → s.log.read = s.beats.length ∧
    s.beats.length % cfg.dataFifoLineLen.toNat = 0 ∧ s.log.syncRead = s.log.read ∧
    s.log.read ≤ s.counted.2 + 1 ∧ s.log.read ≤ s.compared.2 + min cfg.dataFifoLineLen.toNat 2
  data : s.reader.axiState = .data → s.log.read = s.beats.length + 1 ∧
    s.log.written[s.beats.length]? = some s.fifo.dataOut ∧
    s.log.read ≤ s.log.syncRead + 1 ∧ s.log.read ≤ s.counted.2 + min cfg.dataFifoLineLen.toNat 2

theorem flow_reset (mem : BitVec 11 → BitVec 8) (dataOut : BitVec 8) : Flow cfg (.reset mem dataOut) :=
  ⟨(Nat.zero_mod _).symm, fun _ => ⟨rfl, Nat.zero_mod _, rfl, Nat.zero_le _, Nat.zero_le _⟩, fun h => by cases h⟩

/-- The rest of the line that is being read is in the FIFO, and the read side has seen it. -/
def LineThere (cfg : FifoCtrl) (s : VideoStream) : Prop :=
  s.reader.axiState = .data →
    s.log.read + cfg.dataFifoLineLen.toNat ≤ s.log.syncWritten + s.beats.length % cfg.dataFifoLineLen.toNat + 1

theorem reads_iff {s : VideoStream} : Reads cfg s ↔ Flow cfg s ∧ LineThere cfg s := by
  constructor
  · intro h
    refine ⟨⟨h.pixelCnt, h.idle, ?_⟩, ?_⟩
    · intro hst
      obtain ⟨hr, hw, -, hseen⟩ := h.data hst
      exact ⟨hr, hw, hseen⟩
    · intro hst
      exact (h.data hst).2.2.1
  · rintro ⟨h, hline⟩
    refine ⟨h.pixelCnt, h.idle, ?_⟩
    intro hst
    obtain ⟨hr, hw, hseen⟩ := h.data hst
    exact ⟨hr, hw, hline hst, hseen⟩

theorem reads_reset (mem : BitVec 11 → BitVec 8) (dataOut : BitVec 8) : Reads cfg (.reset mem dataOut) :=
  reads_iff.2 ⟨flow_reset mem dataOut, fun h => by cases h⟩

/-! ### One instant -/

section Clock

variable {s : VideoStream} (pclk : Option (Bool × BitVec 8)) (tready newFrame : Bool)

theorem comb_idle (h : s.reader.axiState = .idle) (hs : s.reader.fifoStartRead = false) :
    s.reader.comb cfg tready = { axiNstate := .idle } := by
  simp [StreamReader.comb, h, hs]

theorem comb_start (h : s.reader.axiState = .idle) (hs : s.reader.fifoStartRead = true) :
    s.reader.comb cfg tready = { axiNstate := .data, dataFifoRead := true } := by
  simp [StreamReader.comb, h, hs]

theorem comb_stall (h : s.reader.axiState = .data) (hs : (tready && !s.reader.dataFifoEmptyD) = false) :
    s.reader.comb cfg tready = { axiNstate := .data } := by
  simp [StreamReader.comb, h, hs]

/-- The 32-bit comparison of the pixel counter with the line length. -/
theorem lastPixel_iff (hL : 1 ≤ cfg.dataFifoLineLen.toNat) :
    s.reader.fifoPixelCnt.setWidth 32 = cfg.dataFifoLineLen.setWidth 32 - 1 ↔
      s.reader.fifoPixelCnt.toNat + 1 = cfg.dataFifoLineLen.toNat :=
  cnt_eq_sub_one_iff (by omega) (by omega) hL

theorem comb_last (h : s.reader.axiState = .data) (hs : (tready && !s.reader.dataFifoEmptyD) = true)
    (hL : 1 ≤ cfg.dataFifoLineLen.toNat) (hc : s.reader.fifoPixelCnt.toNat + 1 = cfg.dataFifoLineLen.toNat) :
    s.reader.comb cfg tready =
      { axiNstate := .idle, tvalid := true, tuser := s.reader.streamFrameLatch, tlast := true, rstFifoPixelCnt := true,
        incFifoPixelCnt := true, streamClearFrameLatch := s.reader.streamFrameLatch } := by
  simp only [StreamReader.comb, h, hs, if_true, (lastPixel_iff hL).2 hc]

theorem comb_next (h : s.reader.axiState = .data) (hs : (tready && !s.reader.dataFifoEmptyD) = true)
    (hL : 1 ≤ cfg.dataFifoLineLen.toNat) (hc : s.reader.fifoPixelCnt.toNat + 1 ≠ cfg.dataFifoLineLen.toNat) :
    s.reader.comb cfg tready =
      { axiNstate := .data, tvalid := true, tuser := s.reader.streamFrameLatch, dataFifoRead := true,
        incFifoPixelCnt := true, streamClearFrameLatch := s.reader.streamFrameLatch } := by
  simp only [StreamReader.comb, h, hs, if_true, if_neg (mt (lastPixel_iff hL).1 hc)]

end Clock

/-- A clock of the write side alone leaves the reader where it is. -/
theorem Flow.clock_write {s : VideoStream} (h : Flow cfg s) (pclk : Option (Bool × BitVec 8)) :
    Flow cfg (s.clock cfg ⟨pclk, none⟩) := by
  have hbeats : (s.clock cfg ⟨pclk, none⟩).beats = s.beats := List.append_nil _
  have hdata := AsyncFifo.clock_dataOut s.fifo pclk none
  constructor
  · rw [hbeats]
    exact h.pixelCnt
  · rw [hbeats]
    exact h.idle
  · rw [hbeats]
    intro hst
    obtain ⟨hr, hw, hrest⟩ := h.data hst
    refine ⟨hr, ?_, hrest⟩
    have hlt : s.beats.length < s.log.written.length := (List.getElem?_eq_some_iff.1 hw).1
    show (s.log.written ++ _)[s.beats.length]? = some (s.fifo.clock pclk none).dataOut
    rw [List.getElem?_append_left hlt, hdata]
    exact hw

theorem LineThere.clock_write {s : VideoStream} (h : LineThere cfg s) (pclk : Option (Bool × BitVec 8)) :
    LineThere cfg (s.clock cfg ⟨pclk, none⟩) := by
  have hbeats : (s.clock cfg ⟨pclk, none⟩).beats = s.beats := List.append_nil _
  intro hst
  rw [hbeats]
  exact h hst

theorem mod_succ {t L : Nat} (hL : 1 ≤ L) :
    (t % L + 1 = L ∧ (t + 1) % L = 0) ∨ (t % L + 1 < L ∧ (t + 1) % L = t % L + 1) := by
  have hlt := Nat.mod_lt t hL
  rw [Nat.add_mod]
  rcases Nat.lt_or_ge 1 L with h1 | h1
  · rw [Nat.mod_eq_of_lt h1]
    rcases Nat.lt_or_ge (t % L + 1) L with hl | hl
    · exact .inr ⟨hl, Nat.mod_eq_of_lt hl⟩
    · left
      have he : t % L + 1 = L := by omega
      exact ⟨he, by rw [he, Nat.mod_self]⟩
  · obtain rfl : L = 1 := by omega
    left
    omega

/-- What a clock of the read side leaves behind, by what the reader puts on its outputs. -/
structure ReadEdge (cfg : FifoCtrl) (s t : VideoStream) (tready : Bool) : Prop where
  state : t.reader.axiState = (s.reader.comb cfg tready).axiNstate
  pixel : t.reader.fifoPixelCnt = if (s.reader.comb cfg tready).rstFifoPixelCnt then 0
    else if (s.reader.comb cfg tready).incFifoPixelCnt then s.reader.fifoPixelCnt + 1 else s.reader.fifoPixelCnt
  beats : t.beats.length =
    s.beats.length + if (s.reader.comb cfg tready).tvalid && tready then 1 else 0
  syncWritten : t.log.syncWritten = s.log.written.length
  syncRead : t.log.syncRead = s.log.read
  counted : t.counted.2 = s.log.syncRead
  compared : t.compared.2 = s.counted.2
  read : (s.reader.comb cfg tready).dataFifoRead = true →
    t.log.read = s.log.read + 1 ∧ t.log.written[s.log.read]? = some t.fifo.dataOut
  still : (s.reader.comb cfg tready).dataFifoRead = false →
    t.log.read = s.log.read ∧ t.fifo.dataOut = s.fifo.dataOut
  written : ∀ (i : Nat) (byte : BitVec 8), s.log.written[i]? = some byte → t.log.written[i]? = some byte

/-- What the reader does at a clock of the read side: it waits in idle, reads the first word of a line, stalls in the
line, transfers its last byte, or transfers a byte and reads the next. -/
inductive ReadMove (cfg : FifoCtrl) (s t : VideoStream) : Prop where
  | wait (hst : s.reader.axiState = .idle) (state : t.reader.axiState = .idle)
      (pixel : t.reader.fifoPixelCnt = s.reader.fifoPixelCnt) (beats : t.beats.length = s.beats.length)
      (read : t.log.read = s.log.read)
  | start (hst : s.reader.axiState = .idle) (hgo : s.reader.fifoStartRead = true) (state : t.reader.axiState = .data)
      (pixel : t.reader.fifoPixelCnt = s.reader.fifoPixelCnt) (beats : t.beats.length = s.beats.length)
      (read : t.log.read = s.log.read + 1) (word : t.log.written[s.log.read]? = some t.fifo.dataOut)
  | stall (hst : s.reader.axiState = .data) (state : t.reader.axiState = .data)
      (pixel : t.reader.fifoPixelCnt = s.reader.fifoPixelCnt) (beats : t.beats.length = s.beats.length)
      (read : t.log.read = s.log.read) (held : t.fifo.dataOut = s.fifo.dataOut)
  | last (hst : s.reader.axiState = .data) (hc : s.reader.fifoPixelCnt.toNat + 1 = cfg.dataFifoLineLen.toNat)
      (state : t.reader.axiState = .idle) (pixel : t.reader.fifoPixelCnt = 0)
      (beats : t.beats.length = s.beats.length + 1) (read : t.log.read = s.log.read)
  | next (hst : s.reader.axiState = .data) (hc : s.reader.fifoPixelCnt.toNat + 1 ≠ cfg.dataFifoLineLen.toNat)
      (state : t.reader.axiState = .data) (pixel : t.reader.fifoPixelCnt = s.reader.fifoPixelCnt + 1)
      (beats : t.beats.length = s.beats.length + 1) (read : t.log.read = s.log.read + 1)
      (word : t.log.written[s.log.read]? = some t.fifo.dataOut)

theorem ReadEdge.move {s t : VideoStream} {tready : Bool} (he : ReadEdge cfg s t tready)
    (hL : 1 ≤ cfg.dataFifoLineLen.toNat) : ReadMove cfg s t := by
  cases hst : s.reader.axiState with
  | idle =>
    cases hgo : s.reader.fifoStartRead with
    | false =>
      have hout : s.reader.comb cfg tready = _ := comb_idle tready hst hgo
      obtain ⟨hread, -⟩ := he.still (by rw [hout])
      exact .wait hst (by rw [he.state, hout]) (by rw [he.pixel, hout]; rfl) (by rw [he.beats, hout]; rfl) hread
    | true =>
      have hout : s.reader.comb cfg tready = _ := comb_start tready hst hgo
      obtain ⟨hread, hword⟩ := he.read (by rw [hout])
      exact .start hst hgo (by rw [he.state, hout]) (by rw [he.pixel, hout]; rfl) (by rw [he.beats, hout]; rfl) hread
        hword
  | data =>
    cases hgo : tready && !s.reader.dataFifoEmptyD with
    | false =>
      have hout : s.reader.comb cfg tready = _ := comb_stall tready hst hgo
      obtain ⟨hread, hheld⟩ := he.still (by rw [hout])
      exact .stall hst (by rw [he.state, hout]) (by rw [he.pixel, hout]; rfl) (by rw [he.beats, hout]; rfl) hread hheld
    | true =>
      have htready : tready = true := (Bool.and_eq_true_iff.1 hgo).1
      by_cases hc : s.reader.fifoPixelCnt.toNat + 1 = cfg.dataFifoLineLen.toNat
      · have hout := comb_last tready hst hgo hL hc
        obtain ⟨hread, -⟩ := he.still (by rw [hout])
        exact .last hst hc (by rw [he.state, hout]) (by rw [he.pixel, hout]; rfl) (by rw [he.beats, hout, htready]; rfl)
          hread
      · have hout := comb_next tready hst hgo hL hc
        obtain ⟨hread, hword⟩ := he.read (by rw [hout])
        exact .next hst hc (by rw [he.state, hout]) (by rw [he.pixel, hout]; rfl) (by rw [he.beats, hout, htready]; rfl)
          hread hword

/-- What the reader asks for at a clock is there. -/
def WordThere (cfg : FifoCtrl) (s : VideoStream) (tready : Bool) : Prop :=
  s.fifo.reads (some (s.reader.comb cfg tready).dataFifoRead) = (s.reader.comb cfg tready).dataFifoRead

section ReadClock

variable {s : VideoStream} (pclk : Option (Bool × BitVec 8)) {tready : Bool} (newFrame : Bool)

/-- What the reader asked for is in the output register after the clock. -/
theorem dataOut_clock (hp : Pipeline cfg s) (hr : WordThere cfg s tready)
    (hread : (s.reader.comb cfg tready).dataFifoRead = true) :
    (s.clock cfg ⟨pclk, some (tready, newFrame)⟩).log.read = s.log.read + 1 ∧
      (s.clock cfg ⟨pclk, some (tready, newFrame)⟩).log.written[s.log.read]? =
        some (s.clock cfg ⟨pclk, some (tready, newFrame)⟩).fifo.dataOut := by
  rw [WordThere, hread] at hr
  have hlt := hp.tracks.word_of_reads hr
  have hdata : s.log.written[s.log.read]? = some (s.fifo.clock pclk (some true)).dataOut := hp.tracks.dataOut hr
  constructor
  · show s.log.read + (s.fifo.reads (some (s.reader.comb cfg tready).dataFifoRead)).toNat = _
    rw [hread, hr]
    rfl
  · show (s.log.written ++ _)[s.log.read]? = some (s.fifo.clock pclk (some (s.reader.comb cfg tready).dataFifoRead)).dataOut
    rw [List.getElem?_append_left hlt, hread]
    exact hdata

variable (cfg) in
theorem dataOut_still (hread : (s.reader.comb cfg tready).dataFifoRead = false) :
    (s.clock cfg ⟨pclk, some (tready, newFrame)⟩).log.read = s.log.read ∧
      (s.clock cfg ⟨pclk, some (tready, newFrame)⟩).fifo.dataOut = s.fifo.dataOut := by
  have hr : s.fifo.reads (some (s.reader.comb cfg tready).dataFifoRead) = false := by rw [hread]; rfl
  constructor
  · show s.log.read + (s.fifo.reads (some (s.reader.comb cfg tready).dataFifoRead)).toNat = _
    rw [hr]
    rfl
  · show (s.fifo.clock pclk (some (s.reader.comb cfg tready).dataFifoRead)).dataOut = _
    rw [AsyncFifo.clock_dataOut, hr, if_neg Bool.false_ne_true]

theorem Pipeline.readEdge (hp : Pipeline cfg s) (hr : WordThere cfg s tready) :
    ReadEdge cfg s (s.clock cfg ⟨pclk, some (tready, newFrame)⟩) tready where
  state := rfl
  pixel := rfl
  beats := by
    show (s.beats ++ (if (s.reader.comb cfg tready).tvalid && tready then
      some (⟨s.fifo.dataOut, (s.reader.comb cfg tready).tlast, (s.reader.comb cfg tready).tuser⟩ : Beat)
      else none).toList).length = _
    rw [List.length_append]
    split <;> rfl
  syncWritten := rfl
  syncRead := rfl
  counted := rfl
  compared := rfl
  read := dataOut_clock pclk newFrame hp hr
  still := dataOut_still cfg pclk newFrame
  written := by
    intro i byte hi
    have hlt : i < s.log.written.length := (List.getElem?_eq_some_iff.1 hi).1
    show (s.log.written ++ (s.fifo.accepted pclk).toList)[i]? = some byte
    rw [List.getElem?_append_left hlt]
    exact hi

variable {t : VideoStream} (h : Flow cfg s) (hL : 1 ≤ cfg.dataFifoLineLen.toNat)
include h hL

/-- A clock of the read side keeps the reader on its line. -/
theorem Flow.clock_edge (he : ReadEdge cfg s t tready) : Flow cfg t := by
  have hcnt := h.pixelCnt
  have hsr := he.syncRead
  have hcd := he.counted
  have hcp := he.compared
  have hmod := mod_succ (t := s.beats.length) hL
  cases he.move hL with
  | wait hst state pixel beats read =>
    obtain ⟨hr, hzero, hseen, hcounted, hcompared⟩ := h.idle hst
    refine ⟨?_, ?_, fun hd => ?_⟩
    · rw [pixel, beats]
      exact hcnt
    · intro _
      rw [beats]
      omega
    · rw [state] at hd
      cases hd
  | start hst hgo state pixel beats read word =>
    obtain ⟨hr, hzero, hseen, hcounted, hcompared⟩ := h.idle hst
    refine ⟨?_, fun hi => ?_, ?_⟩
    · rw [pixel, beats]
      exact hcnt
    · rw [state] at hi
      cases hi
    · intro _
      rw [beats]
      exact ⟨by omega, hr ▸ word, by omega, by omega⟩
  | stall hst state pixel beats read held =>
    obtain ⟨hr, hword, hseen, hcounted⟩ := h.data hst
    refine ⟨?_, fun hi => ?_, ?_⟩
    · rw [pixel, beats]
      exact hcnt
    · rw [state] at hi
      cases hi
    · intro _
      rw [beats, held]
      exact ⟨by omega, he.written _ _ hword, by omega, by omega⟩
  | last hst hc state pixel beats read =>
    obtain ⟨hr, -, hseen, hcounted⟩ := h.data hst
    have hzero : (s.beats.length + 1) % cfg.dataFifoLineLen.toNat = 0 := by omega
    refine ⟨?_, ?_, fun hd => ?_⟩
    · rw [pixel, beats, hzero]
      rfl
    · intro _
      rw [beats]
      omega
    · rw [state] at hd
      cases hd
  | next hst hc state pixel beats read word =>
    obtain ⟨hr, -, hseen, hcounted⟩ := h.data hst
    refine ⟨?_, fun hi => ?_, ?_⟩
    · have hlen := cfg.dataFifoLineLen.isLt
      rw [pixel, beats, BitVec.toNat_add, show (1 : BitVec 11).toNat = 1 from rfl]
      omega
    · rw [state] at hi
      cases hi
    · intro _
      rw [beats]
      exact ⟨by omega, hr ▸ word, by omega, by omega⟩

theorem Flow.clock_read (hp : Pipeline cfg s) (hr : WordThere cfg s tready) :
    Flow cfg (s.clock cfg ⟨pclk, some (tready, newFrame)⟩) :=
  h.clock_edge hL (hp.readEdge pclk newFrame hr)

variable (tready)

/-- The beat of a clock carries the byte in flight. -/
theorem Flow.beat {beat : Beat} (hb : s.beat cfg ⟨pclk, some (tready, newFrame)⟩ = some beat) :
    s.log.written[s.beats.length]? = some beat.tdata ∧
      (beat.tlast = true ↔ (s.beats.length + 1) % cfg.dataFifoLineLen.toNat = 0) := by
  have hcnt := h.pixelCnt
  have hmod := mod_succ (t := s.beats.length) hL
  have hb' : (if (s.reader.comb cfg tready).tvalid && tready then
      some (⟨s.fifo.dataOut, (s.reader.comb cfg tready).tlast, (s.reader.comb cfg tready).tuser⟩ : Beat)
      else none) = some beat := hb
  cases hst : s.reader.axiState with
  | idle =>
    cases hs : s.reader.fifoStartRead with
    | false => rw [comb_idle tready hst hs] at hb'; cases hb'
    | true => rw [comb_start tready hst hs] at hb'; cases hb'
  | data =>
    obtain ⟨-, hword, -⟩ := h.data hst
    cases hs : tready && !s.reader.dataFifoEmptyD with
    | false => rw [comb_stall tready hst hs] at hb'; cases hb'
    | true =>
      obtain rfl : tready = true := (Bool.and_eq_true_iff.1 hs).1
      by_cases hc : s.reader.fifoPixelCnt.toNat + 1 = cfg.dataFifoLineLen.toNat
      · rw [comb_last true hst hs hL hc] at hb'
        cases hb'
        refine ⟨hword, ?_, fun _ => rfl⟩
        intro _
        omega
      · rw [comb_next true hst hs hL hc] at hb'
        cases hb'
        refine ⟨hword, nofun, ?_⟩
        intro hm
        omega

end ReadClock

/-! ### A start value that covers the late reads -/

section StartCovered

variable {s : VideoStream} (h : Flow cfg s) (hline : LineThere cfg s) (hp : Pipeline cfg s)
  (hL : 1 ≤ cfg.dataFifoLineLen.toNat)
  (hS : cfg.dataFifoLineLen.toNat + min cfg.dataFifoLineLen.toNat 2 ≤ cfg.dataFifoStart.toNat)
  (tready : Bool)
include h hp hL hS

/-- When a line starts it is in the FIFO, and the reader has seen it. -/
theorem Flow.line_ready (hst : s.reader.axiState = .idle) (hgo : s.reader.fifoStartRead = true) :
    s.log.read + cfg.dataFifoLineLen.toNat ≤ s.log.syncWritten := by
  obtain ⟨-, -, -, -, hcompared⟩ := h.idle hst
  have := hp.start hgo
  have := hp.compared_le
  have := hp.counted_le
  omega

include hline

/-- A word asked for is there: at the start of a line because of the start value, inside it because the rest of the line
is. -/
theorem Flow.wordThere : WordThere cfg s tready := by
  unfold WordThere
  cases hread : (s.reader.comb cfg tready).dataFifoRead with
  | false => rfl
  | true =>
    have hsync : s.log.read < s.log.syncWritten := by
      cases hst : s.reader.axiState with
      | idle =>
        cases hgo : s.reader.fifoStartRead with
        | false => rw [comb_idle tready hst hgo] at hread; cases hread
        | true =>
          have := h.line_ready hp hL hS hst hgo
          omega
      | data =>
        have hrest := hline hst
        cases hgo : tready && !s.reader.dataFifoEmptyD with
        | false => rw [comb_stall tready hst hgo] at hread; cases hread
        | true =>
          by_cases hc : s.reader.fifoPixelCnt.toNat + 1 = cfg.dataFifoLineLen.toNat
          · rw [comb_last tready hst hgo hL hc] at hread
            cases hread
          · have := h.pixelCnt
            have := Nat.mod_lt s.beats.length hL
            omega
    have hempty : s.fifo.emptyOut = false := by
      by_contra he
      have := hp.tracks.emptyOut (by simpa using he)
      omega
    simp [AsyncFifo.reads, hempty]

/-- The line that is started is there, and the rest of it stays there until it is read. -/
theorem LineThere.clock_read {t : VideoStream} {tready : Bool} (he : ReadEdge cfg s t tready) : LineThere cfg t := by
  intro hd
  have hsync := hp.tracks.syncWritten_le
  have hcnt := h.pixelCnt
  have hsw := he.syncWritten
  have hmod := mod_succ (t := s.beats.length) hL
  cases he.move hL with
  | wait hst state pixel beats read =>
    rw [state] at hd
    cases hd
  | start hst hgo state pixel beats read word =>
    have hready := h.line_ready hp hL hS hst hgo
    obtain ⟨-, hzero, -⟩ := h.idle hst
    rw [beats]
    omega
  | stall hst state pixel beats read held =>
    have hrest := hline hst
    rw [beats]
    omega
  | last hst hc state pixel beats read =>
    rw [state] at hd
    cases hd
  | next hst hc state pixel beats read word =>
    have hrest := hline hst
    rw [beats]
    omega

end StartCovered

/-- A clock with any edges keeps the reader on its line. -/
theorem Reads.clock {s : VideoStream} (h : Reads cfg s) (hp : Pipeline cfg s) (hL : 1 ≤ cfg.dataFifoLineLen.toNat)
    (hS : cfg.dataFifoLineLen.toNat + min cfg.dataFifoLineLen.toNat 2 ≤ cfg.dataFifoStart.toNat) (e : Tick) :
    Reads cfg (s.clock cfg e) := by
  obtain ⟨hflow, hline⟩ := reads_iff.1 h
  rcases e with ⟨pclk, _ | ⟨tready, newFrame⟩⟩
  · exact reads_iff.2 ⟨hflow.clock_write pclk, hline.clock_write pclk⟩
  · have hword := hflow.wordThere hline hp hL hS tready
    have hedge := hp.readEdge pclk newFrame hword
    exact reads_iff.2 ⟨hflow.clock_read pclk newFrame hL hp hword, hline.clock_read hflow hp hL hS hedge⟩

/-! ### Whole runs -/

/-- The start value that leaves room for the reads the word count does not show yet. -/
def StartCovers (cfg : FifoCtrl) : Prop :=
  cfg.dataFifoLineLen.toNat + min cfg.dataFifoLineLen.toNat 2 ≤ cfg.dataFifoStart.toNat

instance : Decidable (StartCovers cfg) :=
  inferInstanceAs (Decidable (_ ≤ _))

theorem inOrder_clock {s : VideoStream} (h : Flow cfg s) (hL : 1 ≤ cfg.dataFifoLineLen.toNat)
    (ho : InOrder cfg.dataFifoLineLen.toNat s.log.written s.beats) (e : Tick) :
    InOrder cfg.dataFifoLineLen.toNat (s.clock cfg e).log.written (s.clock cfg e).beats := by
  apply InOrder.mono
  show InOrder _ _ (s.beats ++ (s.beat cfg e).toList)
  cases hb : s.beat cfg e with
  | none => simpa using ho
  | some beat =>
    rcases e with ⟨pclk, _ | ⟨tready, newFrame⟩⟩
    · cases hb
    · obtain ⟨hdata, hlast⟩ := h.beat pclk tready newFrame hL hb
      exact ho.snoc hdata hlast

/-- With a start value that covers the late reads, every run transfers the accepted bytes in order, none lost or
repeated, with TLAST on exactly every `L`-th beat. -/
theorem beats_in_order (cfg : FifoCtrl) (hL : 1 ≤ cfg.dataFifoLineLen.toNat) (hS : StartCovers cfg)
    (mem : BitVec 11 → BitVec 8) (dataOut : BitVec 8) (es : List Tick) :
    InOrder cfg.dataFifoLineLen.toNat ((VideoStream.reset mem dataOut).run cfg es).log.written
      ((VideoStream.reset mem dataOut).run cfg es).beats := by
  have keep : ∀ s : VideoStream, (Pipeline cfg s ∧ Reads cfg s ∧
      InOrder cfg.dataFifoLineLen.toNat s.log.written s.beats) → ∀ e ∈ es,
      Pipeline cfg (s.clock cfg e) ∧ Reads cfg (s.clock cfg e) ∧
        InOrder cfg.dataFifoLineLen.toNat (s.clock cfg e).log.written (s.clock cfg e).beats := by
    rintro s ⟨hp, hr, ho⟩ e -
    exact ⟨hp.clock e, hr.clock hp hL hS e, inOrder_clock (reads_iff.1 hr).1 hL ho e⟩
  exact (List.foldlRecOn es (VideoStream.clock cfg)
    ⟨pipeline_reset mem dataOut, reads_reset mem dataOut, inOrder_nil _⟩ keep).2.2

/-- Ticks of the two clocks. -/
def wr (byte : BitVec 8) : Tick := ⟨some (true, byte), none⟩
def rd : Tick := ⟨none, some (true, false)⟩

theorem beats_in_order_oneByteLines : InOrder 1
    ((VideoStream.reset (fun _ => 0) 0).run ⟨1, 2⟩ [wr 0xa1, wr 0xa2, rd, rd, rd, rd, rd]).log.written
    ((VideoStream.reset (fun _ => 0) 0).run ⟨1, 2⟩ [wr 0xa1, wr 0xa2, rd, rd, rd, rd, rd]).beats :=
  beats_in_order ⟨1, 2⟩ (by decide) (by decide) _ _ _

/-- Lines of one byte, started with one word in the FIFO: the start condition is still up when the line ends, so the
next line starts on an empty FIFO and transfers the byte again. -/
theorem start_at_line_length_repeats_byte :
    ¬ ∀ cfg : FifoCtrl, 1 ≤ cfg.dataFifoLineLen.toNat → cfg.dataFifoLineLen.toNat ≤ cfg.dataFifoStart.toNat →
      ∀ (mem : BitVec 11 → BitVec 8) (dataOut : BitVec 8) (es : List Tick),
        InOrder cfg.dataFifoLineLen.toNat ((VideoStream.reset mem dataOut).run cfg es).log.written
          ((VideoStream.reset mem dataOut).run cfg es).beats := by
  intro h
  have := (h ⟨1, 1⟩ (by decide) (by decide) (fun _ => 0) 0
    [wr 0xa1, rd, rd, rd, rd, rd, rd, wr 0xa2, rd, rd, rd]).tdata
  revert this
  decide

end RcCarControl.Fpga
