import RcCarControl.Fpga.AsyncFifo

/-!
# `async_fifo` is a queue

`FifoLog` is what the FIFO is for: the list of the words written so far and the number of words read.  `Tracks` ties
the registers to it: the Gray pointers are the codes of the two counts, the memory holds the words in between, and the
direction latch tells the two cases of equal pointers apart, because it follows the difference of the quarters in which
the counts are (`Tracks.low`, `Tracks.high`).  Every clock keeps this (`Tracks.clock`), whatever the order of the edges
of the two clocks.
-/

namespace RcCarControl.Fpga

open Gray (quarter)

/-! ### Pointers -/

/-- The Gray pointer after `k` steps. -/
def ptr (aw k : Nat) : BitVec aw := Gray.encode (BitVec.ofNat aw k)

def counterAt (aw k : Nat) : GrayCounter aw := ⟨ptr aw k, BitVec.ofNat aw (k + 1)⟩

variable {dw aw : Nat}

theorem counterAt_zero : counterAt aw 0 = .clear aw := by
  simp [counterAt, ptr, GrayCounter.clear, Gray.encode]

theorem counterAt_clock (k : Nat) (b : Bool) : (counterAt aw k).clock b = counterAt aw (k + b.toNat) := by
  cases b with
  | false => rfl
  | true => simp [counterAt, GrayCounter.clock, ptr, BitVec.ofNat_add]

theorem ptr_eq_iff {w r : Nat} (h : r ≤ w) (h' : w ≤ r + 2 ^ aw) : ptr aw w = ptr aw r ↔ w = r ∨ w = r + 2 ^ aw := by
  unfold ptr
  rw [Gray.encode_injective.eq_iff, ← BitVec.toNat_inj, BitVec.toNat_ofNat, BitVec.toNat_ofNat]
  constructor
  · intro hmod
    obtain ⟨k, hk⟩ := Nat.dvd_of_mod_eq_zero (Nat.sub_mod_eq_zero_of_mod_eq hmod)
    have hk2 : k < 2 := by
      by_contra hge
      have : 2 ^ aw * 2 ≤ 2 ^ aw * k := Nat.mul_le_mul_left _ (by omega)
      have := Nat.two_pow_pos aw
      omega
    rcases Nat.lt_succ_iff_lt_or_eq.1 hk2 with h0 | h1
    · obtain rfl : k = 0 := by omega
      left
      omega
    · subst h1
      right
      omega
  · rintro (rfl | rfl)
    · rfl
    · rw [Nat.add_mod_right]

theorem ptr_ne {j k : Nat} (h : j < k) (h' : k < j + 2 ^ aw) : ptr aw k ≠ ptr aw j := fun he => by
  rcases (ptr_eq_iff (by omega) (by omega)).1 he with h | h <;> omega

theorem grayToBin_ptr (k : Nat) : grayToBin (ptr aw k) = BitVec.ofNat aw k := Gray.decode_encode _

/-! ### One clock, register by register -/

namespace AsyncFifo

variable (f : AsyncFifo dw aw) (wclk : Option (Bool × BitVec dw)) (rclk : Option Bool)

theorem clock_pWr : (f.clock wclk rclk).pWr = f.pWr.clock (f.accepted wclk).isSome := by
  rcases wclk with _ | ⟨_ | _, d⟩ <;> cases hf : f.fullOut <;> cases rclk <;>
    simp [clock, clockWrite, clockRead, latchStatus, preset, accepted, GrayCounter.clock, hf]

theorem clock_pRd : (f.clock wclk rclk).pRd = f.pRd.clock (f.reads rclk) := by
  cases wclk <;> rcases rclk with _ | _ | _ <;>
    simp [clock, clockWrite, clockRead, latchStatus, preset, reads, GrayCounter.clock]

theorem clock_mem : (f.clock wclk rclk).mem =
    match f.accepted wclk with
    | some dataIn => Function.update f.mem f.pNextWordToWrite dataIn
    | none => f.mem := by
  rcases wclk with _ | ⟨_ | _, d⟩ <;> cases hf : f.fullOut <;> cases rclk <;>
    simp [clock, clockWrite, clockRead, latchStatus, preset, accepted, hf]

theorem clock_dataOut : (f.clock wclk rclk).dataOut =
    if f.reads rclk then f.mem f.pNextWordToRead else f.dataOut := by
  cases wclk <;> rcases rclk with _ | _ | _ <;> simp [clock, clockWrite, clockRead, latchStatus, preset, reads]

theorem clock_syncWritePtrGray : (f.clock wclk rclk).syncWritePtrGray =
    if rclk.isSome then f.pNextWordToWrite else f.syncWritePtrGray := by
  cases wclk <;> cases rclk <;> rfl

theorem clock_readPtrGray : (f.clock wclk rclk).readPtrGray =
    if rclk.isSome then f.pNextWordToRead else f.readPtrGray := by
  cases wclk <;> cases rclk <;> rfl

theorem clock_readWordCountOut : (f.clock wclk rclk).readWordCountOut =
    if rclk.isSome then grayToBin f.syncWritePtrGray - grayToBin f.readPtrGray else f.readWordCountOut := by
  cases wclk <;> cases rclk <;> rfl

theorem clock_status : (f.clock wclk rclk).status =
    if (f.clock wclk rclk).rstStatus then false else if (f.clock wclk rclk).setStatus then true else f.status := by
  cases wclk <;> cases rclk <;> rfl

theorem clock_fullOut : (f.clock wclk rclk).fullOut =
    ((if wclk.isSome then f.presetFull else f.fullOut) || (f.clock wclk rclk).presetFull) := by
  cases wclk <;> cases rclk <;> rfl

theorem clock_emptyOut : (f.clock wclk rclk).emptyOut =
    ((if rclk.isSome then f.presetEmpty else f.emptyOut) || (f.clock wclk rclk).presetEmpty) := by
  cases wclk <;> cases rclk <;> rfl

/-! ### The direction latch -/

theorem testBit_mod_four {x i : Nat} (hi : i < 2) : x.testBit i = (x % 4).testBit i := by
  rw [show 4 = 2 ^ 2 from rfl, Nat.testBit_mod_two_pow, decide_eq_true hi, Bool.true_and]

variable {f} {w r : Nat} (haw : 2 ≤ aw) (hw : f.pNextWordToWrite = ptr aw w) (hr : f.pNextWordToRead = ptr aw r)
include haw hw hr

/-- The writer is one quarter ahead of the reader, up to full turns. -/
theorem rstStatus_eq : f.rstStatus = decide (quarter aw w % 4 = (quarter aw r + 1) % 4) := by
  have key : ∀ a < 4, ∀ b < 4, (((a.testBit 0 ^^ a.testBit 1) ^^ b.testBit 1) &&
      (a.testBit 1 == (b.testBit 0 ^^ b.testBit 1))) = decide (a = (b + 1) % 4) := by decide
  unfold rstStatus
  rw [hw, hr, ptr, ptr, Gray.encode_top haw, Gray.encode_top haw, Gray.encode_second haw, Gray.encode_second haw,
    testBit_mod_four (x := quarter aw w) Nat.zero_lt_two, testBit_mod_four (x := quarter aw w) Nat.one_lt_two,
    testBit_mod_four (x := quarter aw r) Nat.zero_lt_two, testBit_mod_four (x := quarter aw r) Nat.one_lt_two,
    key _ (Nat.mod_lt _ (by omega)) _ (Nat.mod_lt _ (by omega)), Nat.mod_add_mod]

/-- The writer is one quarter behind the reader. -/
theorem setStatus_eq : f.setStatus = decide (quarter aw w % 4 = (quarter aw r + 3) % 4) := by
  have key : ∀ a < 4, ∀ b < 4, (((a.testBit 0 ^^ a.testBit 1) == b.testBit 1) &&
      (a.testBit 1 ^^ (b.testBit 0 ^^ b.testBit 1))) = decide (a = (b + 3) % 4) := by decide
  unfold setStatus
  rw [hw, hr, ptr, ptr, Gray.encode_top haw, Gray.encode_top haw, Gray.encode_second haw, Gray.encode_second haw,
    testBit_mod_four (x := quarter aw w) Nat.zero_lt_two, testBit_mod_four (x := quarter aw w) Nat.one_lt_two,
    testBit_mod_four (x := quarter aw r) Nat.zero_lt_two, testBit_mod_four (x := quarter aw r) Nat.one_lt_two,
    key _ (Nat.mod_lt _ (by omega)) _ (Nat.mod_lt _ (by omega)), Nat.mod_add_mod]

end AsyncFifo

/-- The latch rule on the quarters of the two counts: if they differ by at most four turns of one quarter before and
after, and each moves on by at most one, the latch stays on the right side of two. -/
theorem latch_follows {s s' : Bool} {qw qr qw' qr' : Nat}
    (hs' : s' = if decide (qw' % 4 = (qr' + 1) % 4) then false
      else if decide (qw' % 4 = (qr' + 3) % 4) then true else s)
    (low : s = false → qw ≤ qr + 2) (high : s = true → qr + 2 ≤ qw)
    (hqw : qw ≤ qw' ∧ qw' ≤ qw + 1) (hqr : qr ≤ qr' ∧ qr' ≤ qr + 1) (hq : qr' ≤ qw' ∧ qw' ≤ qr' + 4) :
    (s' = false → qw' ≤ qr' + 2) ∧ (s' = true → qr' + 2 ≤ qw') := by
  by_cases h₁ : qw' % 4 = (qr' + 1) % 4
  · rw [decide_eq_true h₁, if_pos rfl] at hs'
    rw [hs']
    exact ⟨fun _ => by omega, fun h => by cases h⟩
  · by_cases h₃ : qw' % 4 = (qr' + 3) % 4
    · rw [decide_eq_false h₁, if_neg Bool.false_ne_true, decide_eq_true h₃, if_pos rfl] at hs'
      rw [hs']
      exact ⟨fun h => (by cases h), fun _ => by omega⟩
    · -- the difference is 0, 2 or 4, and 0 and 4 are out of reach from the other side
      rw [decide_eq_false h₁, if_neg Bool.false_ne_true, decide_eq_false h₃, if_neg Bool.false_ne_true] at hs'
      rw [hs']
      constructor
      · intro h
        have := low h
        omega
      · intro h
        have := high h
        omega

/-- The pointers stand for the counts `w` of words written and `r` of words read, at most a full turn apart, and the
latch is down while the writer is less than two quarters ahead and up when it is more than two. -/
structure Pointers (f : AsyncFifo dw aw) (w r : Nat) : Prop where
  read_le : r ≤ w
  room : w ≤ r + 2 ^ aw
  pWr : f.pWr = counterAt aw w
  pRd : f.pRd = counterAt aw r
  low : f.status = false → quarter aw w ≤ quarter aw r + 2
  high : f.status = true → quarter aw r + 2 ≤ quarter aw w

namespace Pointers

variable {f : AsyncFifo dw aw} {w r : Nat} (h : Pointers f w r)
include h

theorem write_ptr : f.pNextWordToWrite = ptr aw w := by
  rw [AsyncFifo.pNextWordToWrite, h.pWr]
  rfl

theorem read_ptr : f.pNextWordToRead = ptr aw r := by
  rw [AsyncFifo.pNextWordToRead, h.pRd]
  rfl

theorem equalAddresses_iff : f.equalAddresses = true ↔ w = r ∨ w = r + 2 ^ aw := by
  rw [AsyncFifo.equalAddresses, beq_iff_eq, h.write_ptr, h.read_ptr, ptr_eq_iff h.read_le h.room]

variable (haw : 2 ≤ aw)
include haw

omit haw in
theorem status_of_eq (he : w = r) : f.status = false := by
  by_contra hs
  have := h.high (by simpa using hs)
  rw [he] at this
  omega

theorem status_of_turn (he : w = r + 2 ^ aw) : f.status = true := by
  by_contra hs
  have := h.low (by simpa using hs)
  rw [he, Gray.quarter_add haw] at this
  omega

/-- With equal pointers the latch tells an empty FIFO from a full one. -/
theorem presetEmpty_iff : f.presetEmpty = true ↔ w = r := by
  unfold AsyncFifo.presetEmpty
  rw [Bool.and_eq_true, h.equalAddresses_iff, Bool.not_eq_true']
  constructor
  · rintro ⟨hs, he | he⟩
    · exact he
    · rw [h.status_of_turn haw he] at hs
      cases hs
  · exact fun he => ⟨h.status_of_eq he, .inl he⟩

theorem presetFull_iff : f.presetFull = true ↔ w = r + 2 ^ aw := by
  unfold AsyncFifo.presetFull
  rw [Bool.and_eq_true, h.equalAddresses_iff]
  constructor
  · rintro ⟨hs, he | he⟩
    · rw [h.status_of_eq he] at hs
      cases hs
    · exact he
  · exact fun he => ⟨h.status_of_turn haw he, .inr he⟩

/-- The latch follows when each count moves on by at most one. -/
theorem clock {wclk : Option (Bool × BitVec dw)} {rclk : Option Bool}
    (hw : (f.accepted wclk).isSome = true → w < r + 2 ^ aw) (hr : f.reads rclk = true → r < w) :
    Pointers (f.clock wclk rclk) (w + (f.accepted wclk).isSome.toNat) (r + (f.reads rclk).toNat) := by
  have hpWr : (f.clock wclk rclk).pWr = counterAt aw (w + (f.accepted wclk).isSome.toNat) := by
    rw [AsyncFifo.clock_pWr, h.pWr, counterAt_clock]
  have hpRd : (f.clock wclk rclk).pRd = counterAt aw (r + (f.reads rclk).toNat) := by
    rw [AsyncFifo.clock_pRd, h.pRd, counterAt_clock]
  have hww : w + (f.accepted wclk).isSome.toNat = w ∨
      w + (f.accepted wclk).isSome.toNat = w + 1 ∧ w < r + 2 ^ aw := by
    cases hb : (f.accepted wclk).isSome with
    | false => exact .inl rfl
    | true => exact .inr ⟨rfl, hw hb⟩
  have hrr : r + (f.reads rclk).toNat = r ∨ r + (f.reads rclk).toNat = r + 1 ∧ r < w := by
    cases hb : f.reads rclk with
    | false => exact .inl rfl
    | true => exact .inr ⟨rfl, hr hb⟩
  generalize w + (f.accepted wclk).isSome.toNat = w' at hpWr hww ⊢
  generalize r + (f.reads rclk).toNat = r' at hpRd hrr ⊢
  have hread := h.read_le
  have hfree := h.room
  have hle : r' ≤ w' := by omega
  have hroom : w' ≤ r' + 2 ^ aw := by omega
  -- the quarters of both counts move on by at most one, so from below two the difference does not skip it
  have hqw : quarter aw w ≤ quarter aw w' ∧ quarter aw w' ≤ quarter aw w + 1 := Gray.quarter_le_succ (by omega)
  have hqr : quarter aw r ≤ quarter aw r' ∧ quarter aw r' ≤ quarter aw r + 1 := Gray.quarter_le_succ (by omega)
  have hq : quarter aw r' ≤ quarter aw w' ∧ quarter aw w' ≤ quarter aw r' + 4 :=
    ⟨Gray.quarter_mono hle, Gray.quarter_add haw r' ▸ Gray.quarter_mono hroom⟩
  have hst := AsyncFifo.clock_status f wclk rclk
  have hpw : (f.clock wclk rclk).pNextWordToWrite = ptr aw w' := by
    rw [AsyncFifo.pNextWordToWrite, hpWr]
    rfl
  have hpr : (f.clock wclk rclk).pNextWordToRead = ptr aw r' := by
    rw [AsyncFifo.pNextWordToRead, hpRd]
    rfl
  rw [AsyncFifo.rstStatus_eq haw hpw hpr, AsyncFifo.setStatus_eq haw hpw hpr] at hst
  obtain ⟨hlow, hhigh⟩ := latch_follows hst h.low h.high hqw hqr hq
  exact ⟨hle, hroom, hpWr, hpRd, hlow, hhigh⟩

end Pointers

/-! ### The queue -/

/-- The words written so far and the number of words read, and both counts as the read side last sampled them. -/
structure FifoLog (dw : Nat) where
  written : List (BitVec dw)
  read : Nat
  syncWritten : Nat
  syncRead : Nat

def FifoLog.start : FifoLog dw := ⟨[], 0, 0, 0⟩

/-- The occupancy. -/
def FifoLog.words (l : FifoLog dw) : Nat := l.written.length - l.read

/-- What an instant of `f` adds to the log. -/
def FifoLog.clock (l : FifoLog dw) (f : AsyncFifo dw aw) (wclk : Option (Bool × BitVec dw)) (rclk : Option Bool) :
    FifoLog dw where
  written := l.written ++ (f.accepted wclk).toList
  read := l.read + (f.reads rclk).toNat
  syncWritten := if rclk.isSome then l.written.length else l.syncWritten
  syncRead := if rclk.isSome then l.read else l.syncRead

/-- The registers of the FIFO hold the queue of the log. -/
structure Tracks (f : AsyncFifo dw aw) (l : FifoLog dw) : Prop where
  pointers : Pointers f l.written.length l.read
  empty : l.written.length = l.read → f.emptyOut = true
  full : l.written.length = l.read + 2 ^ aw → f.fullOut = true
  mem : ∀ j, l.read ≤ j → j < l.written.length → l.written[j]? = some (f.mem (ptr aw j))
  syncWritePtrGray : f.syncWritePtrGray = ptr aw l.syncWritten
  readPtrGray : f.readPtrGray = ptr aw l.syncRead
  syncWritten_le : l.syncWritten ≤ l.written.length
  syncRead_le : l.syncRead ≤ l.read
  sync_le : l.syncRead ≤ l.syncWritten
  /-- The empty flag is up no longer than until the read side has seen a word. -/
  emptyOut : f.emptyOut = true → l.syncWritten ≤ l.read

theorem tracks_cleared (mem : BitVec aw → BitVec dw) (dataOut : BitVec dw) :
    Tracks (.cleared mem dataOut) .start where
  pointers :=
    ⟨Nat.le_refl 0, Nat.zero_le _, counterAt_zero.symm, counterAt_zero.symm, fun _ => Nat.le_add_right _ 2,
      fun h => by cases h⟩
  empty _ := rfl
  full h := by
    have := Nat.two_pow_pos aw
    simp only [FifoLog.start, List.length_nil] at h
    omega
  mem _ _ h := by simp [FifoLog.start] at h
  syncWritePtrGray := by simp [AsyncFifo.cleared, ptr, FifoLog.start, Gray.encode]
  readPtrGray := by simp [AsyncFifo.cleared, ptr, FifoLog.start, Gray.encode]
  syncWritten_le := Nat.le_refl 0
  syncRead_le := Nat.le_refl 0
  sync_le := Nat.le_refl 0
  emptyOut _ := Nat.le_refl 0

theorem length_append_toList {α : Type*} (l : List α) (o : Option α) :
    (l ++ o.toList).length = l.length + o.isSome.toNat := by
  cases o <;> simp

/-- An entry of an extended list is an old one or the new one. -/
theorem getElem?_append_toList {α : Type*} {l : List α} {o : Option α} {i : Nat} {x : α}
    (h : (l ++ o.toList)[i]? = some x) : l[i]? = some x ∨ i = l.length ∧ o = some x := by
  rcases Nat.lt_or_ge i l.length with hi | hi
  · rw [List.getElem?_append_left hi] at h
    exact .inl h
  · right
    rw [List.getElem?_append_right hi] at h
    cases o with
    | none => cases h
    | some y =>
      rw [Option.toList_some, List.getElem?_singleton] at h
      split at h
      · next hz =>
        cases h
        exact ⟨by omega, rfl⟩
      · cases h

namespace Tracks

variable {f : AsyncFifo dw aw} {l : FifoLog dw} (h : Tracks f l) {wclk : Option (Bool × BitVec dw)}
  {rclk : Option Bool}
include h

theorem room_of_accepted (ha : (f.accepted wclk).isSome = true) : l.written.length < l.read + 2 ^ aw := by
  by_contra hge
  have hfull := h.full (by have := h.pointers.room; omega)
  rcases wclk with _ | ⟨_ | _, d⟩ <;> simp [AsyncFifo.accepted, hfull] at ha

theorem word_of_reads (hr : f.reads rclk = true) : l.read < l.written.length := by
  by_contra hge
  have hempty := h.empty (by have := h.pointers.read_le; omega)
  simp [AsyncFifo.reads, hempty] at hr

/-- The word count of the read side is the difference of the sampled counts, as far as its width goes. -/
theorem wordCount : grayToBin f.syncWritePtrGray - grayToBin f.readPtrGray =
    BitVec.ofNat aw (l.syncWritten - l.syncRead) := by
  obtain ⟨k, hk⟩ := Nat.exists_eq_add_of_le h.sync_le
  rw [h.syncWritePtrGray, h.readPtrGray, grayToBin_ptr, grayToBin_ptr, hk, Nat.add_sub_cancel_left, BitVec.ofNat_add,
    BitVec.add_comm, BitVec.add_sub_cancel]

/-- What is read is the oldest word that was written and not yet read. -/
theorem dataOut (hr : f.reads rclk = true) : l.written[l.read]? = some (f.clock wclk rclk).dataOut := by
  rw [AsyncFifo.clock_dataOut, if_pos hr, h.pointers.read_ptr]
  exact h.mem l.read (Nat.le_refl _) (h.word_of_reads hr)

/-- A word written lands behind the words to be read. -/
theorem mem_clock {j : Nat} (hj : l.read ≤ j) (hj' : j < (l.clock f wclk rclk).written.length) :
    (l.clock f wclk rclk).written[j]? = some ((f.clock wclk rclk).mem (ptr aw j)) := by
  rw [AsyncFifo.clock_mem, h.pointers.write_ptr]
  simp only [FifoLog.clock] at hj' ⊢
  cases ha : f.accepted wclk with
  | none =>
    simp only [ha, Option.toList_none, List.append_nil] at hj' ⊢
    exact h.mem j hj hj'
  | some dataIn =>
    have hroom := h.room_of_accepted (show (f.accepted wclk).isSome = true by rw [ha]; rfl)
    simp only [ha, Option.toList_some, List.length_append, List.length_singleton] at hj' ⊢
    by_cases hjw : j < l.written.length
    · rw [List.getElem?_append_left hjw, Function.update_of_ne (ptr_ne hjw (by omega)).symm]
      exact h.mem j hj hjw
    · obtain rfl : j = l.written.length := by omega
      simp

variable (haw : 2 ≤ aw)
include haw

/-- An instant with any edges keeps the registers on the queue. -/
theorem clock : Tracks (f.clock wclk rclk) (l.clock f wclk rclk) := by
  have hp := h.pointers
  have hp' : Pointers (f.clock wclk rclk) (l.clock f wclk rclk).written.length (l.clock f wclk rclk).read := by
    rw [FifoLog.clock, length_append_toList]
    exact hp.clock haw h.room_of_accepted h.word_of_reads
  have hlen : (l.clock f wclk rclk).written.length = l.written.length + (f.accepted wclk).isSome.toNat :=
    length_append_toList _ _
  have hread : (l.clock f wclk rclk).read = l.read + (f.reads rclk).toNat := rfl
  have hle := hp.read_le
  have hswl := h.syncWritten_le
  have hsrl := h.syncRead_le
  have hsl := h.sync_le
  have hsync : (rclk.isSome = false ∧ (l.clock f wclk rclk).syncWritten = l.syncWritten ∧
        (l.clock f wclk rclk).syncRead = l.syncRead) ∨
      (rclk.isSome = true ∧ (l.clock f wclk rclk).syncWritten = l.written.length ∧
        (l.clock f wclk rclk).syncRead = l.read) := by
    cases rclk with
    | none => exact .inl ⟨rfl, rfl, rfl⟩
    | some _ => exact .inr ⟨rfl, rfl, rfl⟩
  constructor
  · exact hp'
  · intro he
    rw [AsyncFifo.clock_emptyOut, (hp'.presetEmpty_iff haw).2 he, Bool.or_true]
  · intro he
    rw [AsyncFifo.clock_fullOut, (hp'.presetFull_iff haw).2 he, Bool.or_true]
  · exact fun j hj hj' => h.mem_clock (by omega) hj'
  · rw [AsyncFifo.clock_syncWritePtrGray, h.syncWritePtrGray, hp.write_ptr]
    cases rclk <;> rfl
  · rw [AsyncFifo.clock_readPtrGray, h.readPtrGray, hp.read_ptr]
    cases rclk <;> rfl
  · omega
  · omega
  · omega
  · intro he
    rw [AsyncFifo.clock_emptyOut, Bool.or_eq_true, hp'.presetEmpty_iff haw] at he
    rcases he with he | he
    · rcases hsync with ⟨hr, hsw, -⟩ | ⟨hr, hsw, -⟩
      · rw [hr, if_neg Bool.false_ne_true] at he
        have := h.emptyOut he
        omega
      · -- at a read clock the flag is the preset of the instant before, when the FIFO was empty
        rw [hr, if_pos rfl, hp.presetEmpty_iff haw] at he
        omega
    · omega

end Tracks

end RcCarControl.Fpga
