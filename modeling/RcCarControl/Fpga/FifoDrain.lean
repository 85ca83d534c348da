import RcCarControl.Fpga.FifoOrder

/-!
# An `async_fifo` that is read at once

The reader asks for a word in every clock in which the FIFO is not empty, as the size status FIFO of
`fpga/rtl/video_ctrl/bt656_to_axi_stream.sv` is read.  A word needs two clocks of the reader: the first one sees that it is
there, the second one takes it.  When each word comes two clocks behind the one before at least, no word is lost and the
output register shows the last word that is two clocks old (`Draining.write`, `Draining.wait`).
-/

namespace RcCarControl.Fpga

variable {dw aw : Nat}

/-- The read port of such a reader at an edge of its clock, if there is one. -/
def AsyncFifo.drain (f : AsyncFifo dw aw) (rclk : Bool) : Option Bool := if rclk then some (!f.emptyOut) else none

/-- The state `n` edges of the read clock after the last word. -/
structure Draining (f : AsyncFifo dw aw) (l : FifoLog dw) (n : Nat) : Prop where
  tracks : Tracks f l
  notFull : f.fullOut = false
  waiting : n < 2 → l.written.length = l.read + 1 ∧ f.emptyOut = (n == 0)
  drained : 2 ≤ n → l.written.length = l.read

theorem draining_cleared (mem : BitVec aw → BitVec dw) (dataOut : BitVec dw) {n : Nat} (hn : 2 ≤ n) :
    Draining (.cleared mem dataOut) .start n :=
  ⟨tracks_cleared mem dataOut, rfl, fun h => by omega, fun _ => rfl⟩

namespace AsyncFifo

variable (f : AsyncFifo dw aw)

theorem reads_drain (rclk : Bool) : f.reads (f.drain rclk) = (rclk && !f.emptyOut) := by
  cases rclk <;> cases hf : f.emptyOut <;> simp [reads, drain, hf]

theorem isSome_drain (rclk : Bool) : (f.drain rclk).isSome = rclk := by cases rclk <;> rfl

theorem accepted_write (hf : f.fullOut = false) (dataIn : BitVec dw) : f.accepted (some (true, dataIn)) = some dataIn := by
  simp [accepted, hf]

theorem accepted_wait {wclk : Option (Bool × BitVec dw)} (hw : ∀ x ∈ wclk, x.1 = false) : f.accepted wclk = none := by
  rcases wclk with _ | ⟨_ | _, dataIn⟩
  · rfl
  · rfl
  · cases hw _ rfl

variable (l : FifoLog dw)

theorem written_wait {wclk : Option (Bool × BitVec dw)} (hw : ∀ x ∈ wclk, x.1 = false) (rclk : Option Bool) :
    (l.clock f wclk rclk).written = l.written := by
  rw [FifoLog.clock, f.accepted_wait hw]
  exact List.append_nil _

theorem read_drain (wclk : Option (Bool × BitVec dw)) (rclk : Bool) :
    (l.clock f wclk (f.drain rclk)).read = l.read + (rclk && !f.emptyOut).toNat := by
  rw [FifoLog.clock, f.reads_drain]

end AsyncFifo

namespace Draining

variable {f : AsyncFifo dw aw} {l : FifoLog dw} {n : Nat} (h : Draining f l n)
include h

/-- An empty FIFO says so. -/
theorem emptyOut (hn : 2 ≤ n) : f.emptyOut = true := h.tracks.empty (h.drained hn)

theorem room (haw : 2 ≤ aw) : l.written.length + 1 < l.read + 2 ^ aw := by
  have hturn : 2 ^ 2 ≤ 2 ^ aw := Nat.pow_le_pow_right (by omega) haw
  obtain hn | hn := Nat.lt_or_ge n 2
  · have := (h.waiting hn).1
    omega
  · have := h.drained hn
    omega

/-- The second clock takes the word. -/
theorem wait_drained {wclk : Option (Bool × BitVec dw)} (hw : ∀ x ∈ wclk, x.1 = false) (rclk : Bool)
    (hn : 2 ≤ n + rclk.toNat) :
    (l.clock f wclk (f.drain rclk)).written.length = (l.clock f wclk (f.drain rclk)).read := by
  rw [f.written_wait l hw, f.read_drain l]
  obtain hold | hold := Nat.lt_or_ge n 2
  · obtain ⟨hone, he⟩ := h.waiting hold
    have hle := Bool.toNat_le rclk
    obtain rfl : n = 1 := by omega
    obtain rfl : rclk = true := Bool.toNat_eq_one.1 (by omega)
    rw [hone, show f.emptyOut = false from he]
    rfl
  · rw [h.drained hold, h.emptyOut hold, Bool.not_true, Bool.and_false]
    rfl

/-- The output register after an instant. -/
theorem wait_dataOut (wclk : Option (Bool × BitVec dw)) (rclk : Bool) :
    (f.clock wclk (f.drain rclk)).dataOut =
      if n = 1 ∧ rclk = true then (l.written.getLast?).getD f.dataOut else f.dataOut := by
  by_cases htake : n = 1 ∧ rclk = true
  · obtain ⟨rfl, rfl⟩ := htake
    obtain ⟨hone, he⟩ := h.waiting (by omega)
    have hreads : f.reads (f.drain true) = true := by
      rw [f.reads_drain, show f.emptyOut = false from he]
      rfl
    have hlast : l.written.getLast? = some (f.clock wclk (f.drain true)).dataOut := by
      rw [List.getLast?_eq_getElem?, hone, Nat.add_sub_cancel]
      exact h.tracks.dataOut hreads
    rw [if_pos ⟨rfl, rfl⟩, hlast]
    rfl
  · have hreads : f.reads (f.drain rclk) = false := by
      rw [f.reads_drain]
      cases rclk with
      | false => rfl
      | true =>
        obtain hn | hn : n = 0 ∨ 2 ≤ n := by
          have hone : n ≠ 1 := fun hone => htake ⟨hone, rfl⟩
          omega
        · rw [(h.waiting (by omega)).2, hn]
          rfl
        · rw [h.emptyOut hn]
          rfl
    rw [AsyncFifo.clock_dataOut, hreads, if_neg Bool.false_ne_true, if_neg htake]

variable (haw : 2 ≤ aw)
include haw

/-- A FIFO that is far from full before and after an instant does not become full. -/
theorem fullOut_clock {wclk : Option (Bool × BitVec dw)} {rclk : Option Bool}
    (hroom : (l.clock f wclk rclk).written.length < (l.clock f wclk rclk).read + 2 ^ aw) :
    (f.clock wclk rclk).fullOut = false := by
  have hbefore : f.presetFull = false := by
    rw [← Bool.not_eq_true, h.tracks.pointers.presetFull_iff haw]
    have := h.room haw
    omega
  have hafter : (f.clock wclk rclk).presetFull = false := by
    rw [← Bool.not_eq_true, (h.tracks.clock haw).pointers.presetFull_iff haw]
    omega
  rw [AsyncFifo.clock_fullOut, hbefore, hafter, h.notFull, ite_self, Bool.or_false]

/-- A word that comes when the one before is out. -/
theorem write (hn : 2 ≤ n) (dataIn : BitVec dw) (rclk : Bool) :
    Draining (f.clock (some (true, dataIn)) (f.drain rclk)) (l.clock f (some (true, dataIn)) (f.drain rclk)) 0 ∧
      (l.clock f (some (true, dataIn)) (f.drain rclk)).written = l.written ++ [dataIn] ∧
      (f.clock (some (true, dataIn)) (f.drain rclk)).dataOut = f.dataOut := by
  have hempty := h.emptyOut hn
  have hreads : f.reads (f.drain rclk) = false := by rw [f.reads_drain, hempty, Bool.not_true, Bool.and_false]
  have hwritten : (l.clock f (some (true, dataIn)) (f.drain rclk)).written = l.written ++ [dataIn] := by
    rw [FifoLog.clock, f.accepted_write h.notFull]
    rfl
  have hread : (l.clock f (some (true, dataIn)) (f.drain rclk)).read = l.read := by
    rw [FifoLog.clock, hreads]
    rfl
  have hlen : (l.clock f (some (true, dataIn)) (f.drain rclk)).written.length = l.written.length + 1 := by
    rw [hwritten, List.length_append]
    rfl
  have hdrained := h.drained hn
  have hroom := h.room haw
  refine ⟨⟨h.tracks.clock haw, h.fullOut_clock haw (by omega), fun _ => ⟨by omega, ?_⟩, fun hn' => by omega⟩, hwritten, ?_⟩
  · have hpreset : f.presetEmpty = true := (h.tracks.pointers.presetEmpty_iff haw).2 hdrained
    rw [AsyncFifo.clock_emptyOut, hpreset, hempty, ite_self, Bool.true_or]
    rfl
  · rw [AsyncFifo.clock_dataOut, hreads, if_neg Bool.false_ne_true]

section Wait

variable {wclk : Option (Bool × BitVec dw)} (hw : ∀ x ∈ wclk, x.1 = false) (rclk : Bool)
include hw

/-- The word stays for the second clock, and the first one sees it. -/
theorem wait_waiting (hn : n + rclk.toNat < 2) :
    (l.clock f wclk (f.drain rclk)).written.length = (l.clock f wclk (f.drain rclk)).read + 1 ∧
      (f.clock wclk (f.drain rclk)).emptyOut = (n + rclk.toNat == 0) := by
  obtain ⟨hone, he⟩ := h.waiting (by omega)
  have hnone : (rclk && !f.emptyOut) = false := by
    cases rclk with
    | false => rfl
    | true =>
      obtain rfl : n = 0 := Nat.lt_one_iff.1 (Nat.lt_of_succ_lt_succ hn)
      rw [show f.emptyOut = true from he]
      rfl
  have hlen : (l.clock f wclk (f.drain rclk)).written.length = (l.clock f wclk (f.drain rclk)).read + 1 := by
    rw [f.written_wait l hw, f.read_drain l, hnone, hone]
    rfl
  refine ⟨hlen, ?_⟩
  have hbefore : f.presetEmpty = false := by
    rw [← Bool.not_eq_true, h.tracks.pointers.presetEmpty_iff haw]
    omega
  have hafter : (f.clock wclk (f.drain rclk)).presetEmpty = false := by
    rw [← Bool.not_eq_true, (h.tracks.clock haw).pointers.presetEmpty_iff haw]
    omega
  rw [AsyncFifo.clock_emptyOut, f.isSome_drain, hbefore, hafter, he, Bool.or_false]
  cases rclk <;> rfl

/-- An instant without a word. -/
theorem wait : Draining (f.clock wclk (f.drain rclk)) (l.clock f wclk (f.drain rclk)) (n + rclk.toNat) where
  tracks := h.tracks.clock haw
  notFull := by
    apply h.fullOut_clock haw
    have := h.room haw
    rw [f.written_wait l hw, f.read_drain l]
    omega
  waiting := h.wait_waiting haw hw rclk
  drained := h.wait_drained hw rclk

end Wait

end Draining

end RcCarControl.Fpga
