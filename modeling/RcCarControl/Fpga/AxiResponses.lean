import RcCarControl.Fpga.VideoCtrlAxi
import RcCarControl.Fpga.SysCtrlAxi

/-!
# Requests and responses on the AXI4-Lite bus

Both slaves expect no outstanding transactions: they accept a request also while the response to an earlier one waits,
and then there is no response to it.  So the handshakes match exactly as long as no request is accepted at an edge at
which a response to an earlier one is still on the bus.
-/

namespace RcCarControl.Fpga

open Lts

variable {n : Nat} {ρ ι : Type} {D : Decode n ρ ι}

/-- Every accepted write has had its response, or the response is on the bus. -/
def WritesAnswered (b : AxiBus n ρ) : Prop := b.2.writes = b.2.bResponses + b.1.bvalid.toNat

def ReadsAnswered (b : AxiBus n ρ) : Prop := b.2.reads = b.2.rResponses + b.1.rvalid.toNat

/-- There are no more responses than requests. -/
def Covered (b : AxiBus n ρ) : Prop :=
  b.2.bResponses + b.1.bvalid.toNat ≤ b.2.writes ∧ b.2.rResponses + b.1.rvalid.toNat ≤ b.2.reads

/-- No write is accepted while a response to one is on the bus. -/
def NoWritePending (b : AxiBus n ρ) (i : AxiIn n ι) : Prop := b.1.slvRegWren i → b.1.bvalid = false

def NoReadPending (b : AxiBus n ρ) (i : AxiIn n ι) : Prop := i.arvalid && b.1.arready → b.1.rvalid = false

/-! ### One clock -/

/-- The responses over a clock: one more is owed for a request, and it is put on the bus if there is none. -/
theorem response_step (request pending taken : Bool) :
    ((pending && taken).toNat + (if request && !pending then true else if taken && pending then false else pending).toNat =
      pending.toNat + request.toNat) ↔ (request → pending = false) := by
  cases request <;> cases pending <;> cases taken <;> decide

theorem response_step_le (request pending taken : Bool) :
    (pending && taken).toNat + (if request && !pending then true else if taken && pending then false else pending).toNat ≤
      pending.toNat + request.toNat := by
  cases request <;> cases pending <;> cases taken <;> decide

/-- The read channel has the same step; its strobe excludes a pending response already. -/
theorem rvalid_clock (s : AxiSlave n ρ) (i : AxiIn n ι) :
    (s.clock i D).rvalid =
      if (i.arvalid && s.arready) && !s.rvalid then true else if i.rready && s.rvalid then false else s.rvalid := by
  unfold AxiSlave.clock AxiSlave.slvRegRden
  simp only [Bool.and_comm s.rvalid]

variable {b c : AxiBus n ρ} {i : AxiIn n ι}

theorem writesAnswered_step (h : WritesAnswered b) (hs : AxiBus.step D b i = some c) :
    WritesAnswered c ↔ NoWritePending b i := by
  rw [AxiBus.step_eq, Option.some.injEq] at hs
  subst hs
  have hw := response_step (b.1.slvRegWren i) b.1.bvalid i.bready
  unfold WritesAnswered NoWritePending at *
  rw [← hw]
  unfold AxiWatch.note AxiSlave.clock
  simp only
  omega

theorem readsAnswered_step (h : ReadsAnswered b) (hs : AxiBus.step D b i = some c) :
    ReadsAnswered c ↔ NoReadPending b i := by
  rw [AxiBus.step_eq, Option.some.injEq] at hs
  subst hs
  have hr := response_step (i.arvalid && b.1.arready) b.1.rvalid i.rready
  unfold ReadsAnswered NoReadPending at *
  rw [← hr, rvalid_clock]
  unfold AxiWatch.note
  simp only
  omega

theorem Covered.step (h : Covered b) (hs : AxiBus.step D b i = some c) : Covered c := by
  rw [AxiBus.step_eq, Option.some.injEq] at hs
  subst hs
  have hw := response_step_le (b.1.slvRegWren i) b.1.bvalid i.bready
  have hr := response_step_le (i.arvalid && b.1.arready) b.1.rvalid i.rready
  unfold Covered at *
  rw [rvalid_clock]
  unfold AxiWatch.note AxiSlave.clock
  simp only
  omega

/-! ### Runs -/

/-- What holds of the handshakes in a run: there are never more responses than requests, and on each channel they match
in every state exactly if no request is accepted while a response is pending. -/
structure Responses (D : Decode n ρ ι) (b : AxiBus n ρ) (is : List (AxiIn n ι)) : Prop where
  covered : StatesMeet (AxiBus.step D) Covered b is
  writes : StatesMeet (AxiBus.step D) WritesAnswered b is ↔ StepsMeet (AxiBus.step D) NoWritePending b is
  reads : StatesMeet (AxiBus.step D) ReadsAnswered b is ↔ StepsMeet (AxiBus.step D) NoReadPending b is

theorem responses (s : AxiSlave n ρ) (i : AxiIn n ι) (is : List (AxiIn n ι)) :
    Responses D (AxiBus.start D s i) is := by
  obtain ⟨t, ht⟩ := AxiBus.exec_total D (AxiBus.start D s i) is
  constructor
  · exact statesMeet_of_invariant (fun _ _ _ h hs => Covered.step h hs) (fun _ h => h)
      ⟨Nat.le_refl _, Nat.le_refl _⟩ is
  · exact statesMeet_iff_stepsMeet (fun _ _ _ (_ : True) _ => trivial) (fun _ _ _ _ h hs => writesAnswered_step h hs)
      trivial rfl ht
  · exact statesMeet_iff_stepsMeet (fun _ _ _ (_ : True) _ => trivial) (fun _ _ _ _ h hs => readsAnswered_step h hs)
      trivial rfl ht

/-- So it is for both modules, whatever the master does. -/
theorem responses_of_both :
    (∀ s i is, Responses videoCtrlAxi (AxiBus.start videoCtrlAxi s i) is) ∧
      ∀ ver s i is, Responses (sysCtrlAxi ver) (AxiBus.start (sysCtrlAxi ver) s i) is :=
  ⟨fun s i is => responses s i is, fun _ s i is => responses s i is⟩

/-! ### Two writes before the first response is taken -/

/-- A write is offered for two clocks by a master that takes no response: it is accepted. -/
theorem write_two_clocks {b : AxiBus n ρ} {i : AxiIn n ι} (hi : i.awvalid ∧ i.wvalid ∧ i.arvalid = false ∧ i.bready = false)
    (hready : b.1.awready = false ∧ b.1.wready = false)
    (hoffered : b.2.offeredAw = none ∧ b.2.offeredW = none ∧ b.2.offeredAr = none) :
    ∃ c, exec (AxiBus.step D) b [i, i] = some c ∧ StepsMeet (AxiBus.step D) (fun b i => b.2.Stable i) b [i, i] ∧
      (c.1.awready = false ∧ c.1.wready = false) ∧
        (c.2.offeredAw = none ∧ c.2.offeredW = none ∧ c.2.offeredAr = none) ∧
          c.1.bvalid = true ∧ c.2.writes = b.2.writes + 1 ∧ c.2.bResponses = b.2.bResponses := by
  obtain ⟨haw, hw, har, hb⟩ := hi
  obtain ⟨hr₁, hr₂⟩ := hready
  obtain ⟨ho₁, ho₂, ho₃⟩ := hoffered
  refine ⟨_, exec_cons (AxiBus.step_eq D b i) (exec_cons (AxiBus.step_eq D _ i) rfl), ?_, ?_, ?_, ?_, ?_, ?_⟩
  · refine ⟨by simp [AxiWatch.Stable, ho₁, ho₂, ho₃], fun t ht => ⟨?_, fun _ _ => trivial⟩⟩
    rw [AxiBus.step_eq, Option.some.injEq] at ht
    subst ht
    simp [AxiWatch.Stable, AxiWatch.note, haw, hw, har, hr₁, hr₂]
  · simp [AxiSlave.clock, haw, hw, hr₁, hr₂]
  · simp [AxiSlave.clock, AxiWatch.note, haw, hw, har, hr₁, hr₂]
  · cases hbv : b.1.bvalid <;> simp [AxiSlave.clock, AxiSlave.slvRegWren, haw, hw, hb, hr₁, hr₂, hbv]
  · simp [AxiSlave.clock, AxiSlave.slvRegWren, AxiWatch.note, haw, hw, hr₁, hr₂]
  · simp [AxiWatch.note, hb]

/-- A write of 1 to TP_SIZE is offered, and no response is taken. -/
def offerWrite : AxiIn 6 (BitVec 6 × RxStatus) where
  awaddr := 0x08
  awvalid := true
  wdata := 1
  wvalid := true
  bready := false
  araddr := 0
  arvalid := false
  rready := false
  ext := (0, ⟨0, 0, 0, 0, false, false, 0, false, false, 0⟩)

def idleMaster : AxiIn 6 (BitVec 6 × RxStatus) := { offerWrite with awvalid := false, wvalid := false }

def anySlave : AxiSlave 6 VideoCtrlRegs := ⟨false, false, 0, false, 0, false, 0, false, 0, 0, .reset⟩

/-- The master offers as it should, and of its two writes one never has a response. -/
theorem not_answered_two_writes :
    ∃ b, exec (AxiBus.step videoCtrlAxi) (AxiBus.start videoCtrlAxi anySlave idleMaster)
        [offerWrite, offerWrite, offerWrite, offerWrite] = some b ∧
      StepsMeet (AxiBus.step videoCtrlAxi) (fun b i => b.2.Stable i) (AxiBus.start videoCtrlAxi anySlave idleMaster)
        [offerWrite, offerWrite, offerWrite, offerWrite] ∧
      b.2.writes = 2 ∧ b.2.bResponses = 0 ∧ b.1.bvalid = true ∧ ¬ WritesAnswered b := by
  have hi : offerWrite.awvalid ∧ offerWrite.wvalid ∧ offerWrite.arvalid = false ∧ offerWrite.bready = false := by decide
  obtain ⟨c, hc, hsc, hrc, hoc, -, hwc, hbc⟩ := write_two_clocks (D := videoCtrlAxi)
    (b := AxiBus.start videoCtrlAxi anySlave idleMaster) hi ⟨rfl, rfl⟩ ⟨rfl, rfl, rfl⟩
  obtain ⟨b, hb, hsb, -, -, hvb, hwb, hbb⟩ := write_two_clocks (D := videoCtrlAxi) hi hrc hoc
  have hwrites : b.2.writes = 2 := by
    rw [hwb, hwc]
    rfl
  have hresp : b.2.bResponses = 0 := hbb.trans hbc
  refine ⟨b, ?_, ?_, hwrites, hresp, hvb, ?_⟩
  · show exec _ _ ([offerWrite, offerWrite] ++ [offerWrite, offerWrite]) = _
    rw [exec_append, hc]
    exact hb
  · show StepsMeet _ _ _ ([offerWrite, offerWrite] ++ [offerWrite, offerWrite])
    rw [stepsMeet_append]
    refine ⟨hsc, fun t ht => ?_⟩
    rw [hc, Option.some.injEq] at ht
    rwa [← ht]
  · intro h
    unfold WritesAnswered at h
    rw [hwrites, hresp, hvb] at h
    cases h

end RcCarControl.Fpga
