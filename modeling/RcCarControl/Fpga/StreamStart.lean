import RcCarControl.Fpga.StreamReader

/-!
# When the reader starts a line

An idle reader with enough words in the FIFO starts within four stream clocks: the pointers are sampled, their
difference is the word count, the word count is compared, and the state follows (`Due`).  The word count has as many
bits as the pointers, so a completely full FIFO counts 0 words.  If the samples from before it filled up are gone too
(`Stuck`), the reader never starts again: it does not read, and a full FIFO takes no word.
-/

namespace RcCarControl.Fpga

variable (cfg : FifoCtrl)

/-- No instant of `es` writes a word. -/
def NoWrite : VideoStream → List Tick → Prop
  | _, [] => True
  | s, e :: es => s.fifo.accepted e.pclk = none ∧ NoWrite (s.clock cfg e) es

/-- The stream clocks among the instants. -/
def streamClocks (es : List Tick) : Nat := es.countP fun e => e.aclk.isSome

/-- The reader is out of idle after one of the instants. -/
def LeavesIdle (s : VideoStream) (es : List Tick) : Prop :=
  ∃ fs, fs <+: es ∧ (s.run cfg fs).reader.axiState ≠ .idle

/-- Whatever happens but a write, four stream clocks start the reader. -/
def StartsInFour (s : VideoStream) : Prop :=
  ∀ es, NoWrite cfg s es → streamClocks es = 4 → LeavesIdle cfg s es

/-- The FIFO is not completely full, or one of the three stages behind the pointers still shows a count from before it
was. -/
def Unstuck (s : VideoStream) : Prop :=
  s.log.words ≠ 2 ^ 11 ∨ s.reader.fifoStartRead = true ∨ cfg.dataFifoStart ≤ s.fifo.readWordCountOut ∨
    cfg.dataFifoStart ≤ grayToBin s.fifo.syncWritePtrGray - grayToBin s.fifo.readPtrGray

/-- The start of a line is `k` stream clocks away. -/
def Due (s : VideoStream) : Nat → Prop
  | 1 => s.reader.fifoStartRead = true
  | 2 => cfg.dataFifoStart ≤ s.fifo.readWordCountOut
  | 3 => cfg.dataFifoStart ≤ grayToBin s.fifo.syncWritePtrGray - grayToBin s.fifo.readPtrGray
  | 4 => cfg.dataFifoStart ≤ BitVec.ofNat 11 s.log.words
  | _ => False

variable {cfg} {s : VideoStream}

variable (cfg) in
theorem tracks_run (mem : BitVec 11 → BitVec 8) (dataOut : BitVec 8) (es : List Tick) :
    Tracks ((VideoStream.reset mem dataOut).run cfg es).fifo ((VideoStream.reset mem dataOut).run cfg es).log :=
  List.foldlRecOn (motive := fun s => Tracks s.fifo s.log) es (VideoStream.clock cfg) (tracks_cleared mem dataOut)
    fun _ h e _ => tracks_clock cfg h e

/-! ### A clock of an idle reader -/

theorem reads_idle (hst : s.reader.axiState = .idle) (hgo : s.reader.fifoStartRead = false) (e : Tick) :
    s.fifo.reads (s.rclk cfg e) = false := by
  rcases e with ⟨pclk, _ | ⟨tready, newFrame⟩⟩
  · rfl
  · simp [VideoStream.rclk, StreamReader.comb, hst, hgo, AsyncFifo.reads]

variable (cfg) in
theorem words_idle (hst : s.reader.axiState = .idle) (hgo : s.reader.fifoStartRead = false) {e : Tick}
    (hw : s.fifo.accepted e.pclk = none) : (s.clock cfg e).log.words = s.log.words := by
  simp [VideoStream.clock, FifoLog.clock, FifoLog.words, hw, reads_idle hst hgo e]

variable (cfg) in
/-- A stream clock without the start condition stays idle and passes the counts on by one stage. -/
theorem clock_idle (ht : Tracks s.fifo s.log) (hst : s.reader.axiState = .idle)
    (hgo : s.reader.fifoStartRead = false) (pclk : Option (Bool × BitVec 8)) (tready newFrame : Bool) :
    (s.clock cfg ⟨pclk, some (tready, newFrame)⟩).reader.axiState = .idle ∧
    (s.clock cfg ⟨pclk, some (tready, newFrame)⟩).reader.fifoStartRead =
      decide (cfg.dataFifoStart ≤ s.fifo.readWordCountOut) ∧
    (s.clock cfg ⟨pclk, some (tready, newFrame)⟩).fifo.readWordCountOut =
      grayToBin s.fifo.syncWritePtrGray - grayToBin s.fifo.readPtrGray ∧
    grayToBin (s.clock cfg ⟨pclk, some (tready, newFrame)⟩).fifo.syncWritePtrGray -
      grayToBin (s.clock cfg ⟨pclk, some (tready, newFrame)⟩).fifo.readPtrGray = BitVec.ofNat 11 s.log.words := by
  refine ⟨?_, rfl, AsyncFifo.clock_readWordCountOut _ _ _, (tracks_clock cfg ht _).wordCount⟩
  show (s.reader.comb cfg tready).axiNstate = .idle
  simp [StreamReader.comb, hst, hgo]

theorem clock_start (hst : s.reader.axiState = .idle) (hgo : s.reader.fifoStartRead = true)
    (pclk : Option (Bool × BitVec 8)) (tready newFrame : Bool) :
    (s.clock cfg ⟨pclk, some (tready, newFrame)⟩).reader.axiState = .data := by
  show (s.reader.comb cfg tready).axiNstate = .data
  simp [StreamReader.comb, hst, hgo]

variable (cfg) in
/-- A clock of the write side alone that writes no word changes nothing the reader sees. -/
theorem clock_write_idle {pclk : Option (Bool × BitVec 8)} (hw : s.fifo.accepted pclk = none) :
    (s.clock cfg ⟨pclk, none⟩).reader = s.reader ∧ (s.clock cfg ⟨pclk, none⟩).log = s.log ∧
    (s.clock cfg ⟨pclk, none⟩).fifo.readWordCountOut = s.fifo.readWordCountOut ∧
    (s.clock cfg ⟨pclk, none⟩).fifo.syncWritePtrGray = s.fifo.syncWritePtrGray ∧
    (s.clock cfg ⟨pclk, none⟩).fifo.readPtrGray = s.fifo.readPtrGray := by
  refine ⟨rfl, ?_, AsyncFifo.clock_readWordCountOut _ _ _, AsyncFifo.clock_syncWritePtrGray _ _ _,
    AsyncFifo.clock_readPtrGray _ _ _⟩
  simp [VideoStream.clock, VideoStream.rclk, FifoLog.clock, hw, AsyncFifo.reads]

/-! ### A line that is due -/

theorem LeavesIdle.cons {e : Tick} {es : List Tick} (h : LeavesIdle cfg (s.clock cfg e) es) :
    LeavesIdle cfg s (e :: es) := by
  obtain ⟨fs, ⟨gs, rfl⟩, hfs⟩ := h
  exact ⟨e :: fs, ⟨gs, rfl⟩, hfs⟩

/-- Without a stream clock and without a write the start is due as before. -/
theorem Due.write {k : Nat} (h : Due cfg s k) {pclk : Option (Bool × BitVec 8)} (hw : s.fifo.accepted pclk = none) :
    Due cfg (s.clock cfg ⟨pclk, none⟩) k := by
  obtain ⟨hr, hl, hc, hsw, hsr⟩ := clock_write_idle cfg hw
  match k, h with
  | 1, h =>
    show (s.clock cfg ⟨pclk, none⟩).reader.fifoStartRead = true
    rw [hr]
    exact h
  | 2, h =>
    show cfg.dataFifoStart ≤ (s.clock cfg ⟨pclk, none⟩).fifo.readWordCountOut
    rw [hc]
    exact h
  | 3, h =>
    show cfg.dataFifoStart ≤ grayToBin (s.clock cfg ⟨pclk, none⟩).fifo.syncWritePtrGray - grayToBin _
    rw [hsw, hsr]
    exact h
  | 4, h =>
    show cfg.dataFifoStart ≤ BitVec.ofNat 11 (s.clock cfg ⟨pclk, none⟩).log.words
    rw [hl]
    exact h

/-- A stream clock brings it one stage nearer. -/
theorem Due.stage {k : Nat} (h : Due cfg s k) (ht : Tracks s.fifo s.log) (hst : s.reader.axiState = .idle)
    (hgo : s.reader.fifoStartRead = false) (pclk : Option (Bool × BitVec 8)) (tready newFrame : Bool) :
    ∃ j, k = j + 1 ∧ Due cfg (s.clock cfg ⟨pclk, some (tready, newFrame)⟩) j := by
  obtain ⟨-, h₁, h₂, h₃⟩ := clock_idle cfg ht hst hgo pclk tready newFrame
  match k, h with
  | 1, h =>
    rw [Due, hgo] at h
    cases h
  | 2, h => exact ⟨1, rfl, h₁.trans (decide_eq_true h)⟩
  | 3, h => exact ⟨2, rfl, h.trans_eq h₂.symm⟩
  | 4, h => exact ⟨3, rfl, h.trans_eq h₃.symm⟩

/-- A start that is due in `k` stream clocks comes by then. -/
theorem leavesIdle_of_due (es : List Tick) {k : Nat} (ht : Tracks s.fifo s.log) (hdue : Due cfg s k)
    (hw : NoWrite cfg s es) (hk : k ≤ streamClocks es) : LeavesIdle cfg s es := by
  induction es generalizing s k with
  | nil =>
    obtain rfl : k = 0 := by simpa [streamClocks] using hk
    cases hdue
  | cons e es ih =>
    by_cases hst : s.reader.axiState = .idle
    swap
    · exact ⟨[], List.nil_prefix, hst⟩
    obtain ⟨hacc, hw'⟩ := hw
    have ht' := tracks_clock cfg ht e
    rcases e with ⟨pclk, _ | ⟨tready, newFrame⟩⟩
    · exact (ih ht' (hdue.write hacc) hw' (by simpa [streamClocks] using hk)).cons
    · by_cases hgo : s.reader.fifoStartRead = true
      · refine ⟨[⟨pclk, some (tready, newFrame)⟩], ⟨es, rfl⟩, ?_⟩
        show (s.clock cfg _).reader.axiState ≠ .idle
        rw [clock_start hst hgo]
        decide
      · obtain ⟨j, rfl, hj⟩ := hdue.stage ht hst (by simpa using hgo) pclk tready newFrame
        exact (ih ht' hj hw' (by simpa [streamClocks] using hk)).cons

/-! ### A full FIFO -/

/-- Nothing behind the pointers of a full FIFO asks for a start any more. -/
structure Stuck (cfg : FifoCtrl) (s : VideoStream) : Prop where
  idle : s.reader.axiState = .idle
  tracks : Tracks s.fifo s.log
  words : s.log.words = 2 ^ 11
  not_started : s.reader.fifoStartRead = false
  not_counted : ¬ cfg.dataFifoStart ≤ s.fifo.readWordCountOut
  not_sampled : ¬ cfg.dataFifoStart ≤ grayToBin s.fifo.syncWritePtrGray - grayToBin s.fifo.readPtrGray

theorem Stuck.not_accepted (h : Stuck cfg s) (pclk : Option (Bool × BitVec 8)) : s.fifo.accepted pclk = none := by
  have hroom := h.tracks.pointers.room
  have hwords := h.words
  by_contra hne
  have := h.tracks.room_of_accepted (Option.isSome_iff_ne_none.2 hne)
  rw [FifoLog.words] at hwords
  omega

/-- A full FIFO that is stuck stays so at every clock. -/
theorem Stuck.clock (h : Stuck cfg s) (hS : 1 ≤ cfg.dataFifoStart.toNat) (e : Tick) : Stuck cfg (s.clock cfg e) := by
  have hwords := (words_idle cfg h.idle h.not_started (h.not_accepted e.pclk)).trans h.words
  have ht := tracks_clock cfg h.tracks e
  rcases e with ⟨pclk, _ | ⟨tready, newFrame⟩⟩
  · obtain ⟨hr, -, hc, hsw, hsr⟩ := clock_write_idle cfg (h.not_accepted pclk)
    refine ⟨hr ▸ h.idle, ht, hwords, hr ▸ h.not_started, hc ▸ h.not_counted, ?_⟩
    rw [hsw, hsr]
    exact h.not_sampled
  · obtain ⟨h₀, h₁, h₂, h₃⟩ := clock_idle cfg h.tracks h.idle h.not_started pclk tready newFrame
    refine ⟨h₀, ht, hwords, h₁.trans (decide_eq_false h.not_counted), h₂ ▸ h.not_sampled, ?_⟩
    -- the word count of a full FIFO is 0
    rw [h₃, h.words, BitVec.le_def, BitVec.toNat_ofNat]
    omega

theorem Stuck.run (h : Stuck cfg s) (hS : 1 ≤ cfg.dataFifoStart.toNat) (es : List Tick) : Stuck cfg (s.run cfg es) :=
  List.foldlRecOn es (VideoStream.clock cfg) h fun _ h' e _ => h'.clock hS e

theorem Stuck.not_leavesIdle (h : Stuck cfg s) (hS : 1 ≤ cfg.dataFifoStart.toNat) (es : List Tick) :
    ¬ LeavesIdle cfg s es := by
  rintro ⟨fs, -, hfs⟩
  exact hfs (h.run hS fs).idle

/-- No word is written to it, so no input frees it. -/
theorem Stuck.noWrite (h : Stuck cfg s) (hS : 1 ≤ cfg.dataFifoStart.toNat) (es : List Tick) : NoWrite cfg s es := by
  induction es generalizing s with
  | nil => trivial
  | cons e es ih => exact ⟨h.not_accepted e.pclk, ih (h.clock hS e)⟩

/-! ### Reachable states -/

/-- An idle reader with at least the start value in the FIFO starts within four stream clocks exactly if the FIFO is not
completely full or an older count is still on its way. -/
theorem startsInFour_iff (cfg : FifoCtrl) (hS : 1 ≤ cfg.dataFifoStart.toNat) (mem : BitVec 11 → BitVec 8)
    (dataOut : BitVec 8) (es : List Tick)
    (hidle : ((VideoStream.reset mem dataOut).run cfg es).reader.axiState = .idle)
    (hwords : cfg.dataFifoStart.toNat ≤ ((VideoStream.reset mem dataOut).run cfg es).log.words) :
    StartsInFour cfg ((VideoStream.reset mem dataOut).run cfg es) ↔
      Unstuck cfg ((VideoStream.reset mem dataOut).run cfg es) := by
  have ht := tracks_run cfg mem dataOut es
  generalize (VideoStream.reset mem dataOut).run cfg es = s at hidle hwords ht ⊢
  have due : ∀ k, k ≤ 4 → Due cfg s k → StartsInFour cfg s := fun k hk hdue fs hfs hfour =>
    leavesIdle_of_due fs ht hdue hfs (by omega)
  constructor
  · intro h
    by_contra hstuck
    simp only [Unstuck, not_or, not_not] at hstuck
    obtain ⟨hfull, hgo, hcount, hsample⟩ := hstuck
    have hst : Stuck cfg s := ⟨hidle, ht, hfull, by simpa using hgo, hcount, hsample⟩
    exact hst.not_leavesIdle hS _ (h (List.replicate 4 ⟨none, some (true, false)⟩) (hst.noWrite hS _) rfl)
  · rintro (hfull | hgo | hcount | hsample)
    · refine due 4 (Nat.le_refl 4) ?_
      have hroom := ht.pointers.room
      have hlt : s.log.words < 2 ^ 11 := by
        rw [FifoLog.words] at hfull ⊢
        omega
      show cfg.dataFifoStart ≤ BitVec.ofNat 11 s.log.words
      rw [BitVec.le_def, BitVec.toNat_ofNat, Nat.mod_eq_of_lt hlt]
      exact hwords
    · exact due 1 (by omega) hgo
    · exact due 2 (by omega) hcount
    · exact due 3 (by omega) hsample

/-- A line of three bytes in the FIFO. -/
theorem startsInFour_threeBytes : StartsInFour ⟨3, 2⟩ ((VideoStream.reset (fun _ => 0) 0).run ⟨3, 2⟩
    [⟨some (true, 1), none⟩, ⟨some (true, 2), none⟩, ⟨some (true, 3), none⟩]) :=
  (startsInFour_iff ⟨3, 2⟩ (by decide) (fun _ => 0) 0 _ (by decide) (by decide)).2 (.inl (by decide))

/-! ### The FIFO fills up between two stream clocks -/

/-- PCLK ticks that write, without a tick of the stream clock. -/
def fill (k : Nat) : List Tick := List.replicate k ⟨some (true, 0), none⟩

/-- After `k` writes from reset, none of them refused. -/
structure Filled (k : Nat) (s : VideoStream) : Prop where
  tracks : Tracks s.fifo s.log
  reader : s.reader = .reset
  written : s.log.written.length = k
  read : s.log.read = 0
  fullOut : k < 2 ^ 11 → s.fifo.fullOut = false
  wordCount : s.fifo.readWordCountOut = 0
  syncWritePtrGray : s.fifo.syncWritePtrGray = 0
  readPtrGray : s.fifo.readPtrGray = 0

theorem Filled.clock {k : Nat} (h : Filled k s) (hk : k < 2 ^ 11) (byte : BitVec 8) :
    Filled (k + 1) (s.clock cfg ⟨some (true, byte), none⟩) := by
  have ht := tracks_clock cfg h.tracks ⟨some (true, byte), none⟩
  have hacc : s.fifo.accepted (some (true, byte)) = some byte := by
    simp [AsyncFifo.accepted, h.fullOut hk]
  have hw : (s.clock cfg ⟨some (true, byte), none⟩).log.written.length = k + 1 := by
    show (s.log.written ++ (s.fifo.accepted (some (true, byte))).toList).length = k + 1
    rw [hacc, length_append_toList, h.written]
    rfl
  have hr : (s.clock cfg ⟨some (true, byte), none⟩).log.read = 0 := h.read
  refine ⟨ht, h.reader, hw, hr, fun hk' => ?_, ?_, ?_, ?_⟩
  · have hold : s.fifo.presetFull = false := by
      rw [← Bool.not_eq_true, h.tracks.pointers.presetFull_iff (by omega), h.written, h.read]
      omega
    have hnew : (s.clock cfg ⟨some (true, byte), none⟩).fifo.presetFull = false := by
      rw [← Bool.not_eq_true, ht.pointers.presetFull_iff (by omega), hw, hr]
      omega
    exact (AsyncFifo.clock_fullOut _ _ _).trans (Bool.or_eq_false_iff.2 ⟨hold, hnew⟩)
  · exact (AsyncFifo.clock_readWordCountOut _ _ _).trans h.wordCount
  · exact (AsyncFifo.clock_syncWritePtrGray _ _ _).trans h.syncWritePtrGray
  · exact (AsyncFifo.clock_readPtrGray _ _ _).trans h.readPtrGray

theorem filled_run (cfg : FifoCtrl) (mem : BitVec 11 → BitVec 8) (dataOut : BitVec 8) {k : Nat} (hk : k ≤ 2 ^ 11) :
    Filled k ((VideoStream.reset mem dataOut).run cfg (fill k)) := by
  induction k with
  | zero => exact ⟨tracks_cleared mem dataOut, rfl, rfl, rfl, fun _ => rfl, rfl, rfl, rfl⟩
  | succ k ih =>
    rw [fill, List.replicate_succ', VideoStream.run, List.foldl_append]
    exact (ih (by omega)).clock (by omega) 0

/-- A full FIFO in front of an idle reader that never saw a word is stuck, here with lines of 1280 bytes. -/
theorem full_fifo_never_starts :
    ¬ ∀ (cfg : FifoCtrl) (mem : BitVec 11 → BitVec 8) (dataOut : BitVec 8) (es : List Tick),
      1 ≤ cfg.dataFifoLineLen.toNat → 1 ≤ cfg.dataFifoStart.toNat →
      ((VideoStream.reset mem dataOut).run cfg es).reader.axiState = .idle →
      cfg.dataFifoStart.toNat ≤ ((VideoStream.reset mem dataOut).run cfg es).log.words →
      StartsInFour cfg ((VideoStream.reset mem dataOut).run cfg es) := by
  intro h
  have hf := filled_run ⟨1280, 1280⟩ (fun _ => 0) 0 (Nat.le_refl (2 ^ 11))
  have hspec := h ⟨1280, 1280⟩ (fun _ => 0) 0 (fill (2 ^ 11)) (by decide) (by decide)
  generalize (VideoStream.reset (fun _ => 0) 0).run ⟨1280, 1280⟩ (fill (2 ^ 11)) = s at hf hspec
  have hwords : s.log.words = 2 ^ 11 := by
    rw [FifoLog.words, hf.written, hf.read, Nat.sub_zero]
  have hidle : s.reader.axiState = .idle := by rw [hf.reader]; rfl
  have hstuck : Stuck ⟨1280, 1280⟩ s := by
    refine ⟨hidle, hf.tracks, hwords, by rw [hf.reader]; rfl, ?_, ?_⟩
    · rw [hf.wordCount]
      decide
    · rw [hf.syncWritePtrGray, hf.readPtrGray, BitVec.sub_self]
      decide
  have hfour := hspec hidle (by rw [hwords]; decide)
  exact hstuck.not_leavesIdle (by decide) _
    (hfour (List.replicate 4 ⟨none, some (true, false)⟩) (hstuck.noWrite (by decide) _) rfl)

end RcCarControl.Fpga
