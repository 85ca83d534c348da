import RcCarControl.Lib.RegisterFile
import RcCarControl.Fpga.AxiResponses

/-!
# The slaves are register files

A master that keeps what it offers and waits for each response sees a register file: the clocks of a slave simulate its
steps.  The invariant (`Sync`) is that the two write channels are ready at once, that what is ready was offered at the
edge before, so that the latched address is the one that is accepted, and that a response is on the bus exactly when the
master waits for it.
-/

namespace RcCarControl.Fpga

open Lts

variable {n : Nat} {ρ ι : Type} {D : Decode n ρ ι}

/-- Which bits of the registers behind a decode are read/write fields, and where the read decode puts them. -/
structure Layout (D : Decode n ρ ι) where
  map : RegisterFile.Map (BitVec n) 32
  fields : ρ → BitVec n → BitVec 32
  fields_write : ∀ r x a d, fields (D.clock r x (some (a, d))) = Function.update (fields r) a (d &&& map.rw a)
  fields_none : ∀ r x, fields (D.clock r x none) = fields r
  read_fields : ∀ r x a, D.read r x a &&& map.rw a = fields r a
  read_unmapped : ∀ r x a, map.mapped a = false → D.read r x a = map.unmapped

/-- The register file that a slave stands for. -/
def Layout.abs (L : Layout D) (s : AxiSlave n ρ) : RegisterFile.State (BitVec n) 32 where
  file := L.fields s.regs
  bOwed := s.bvalid
  rOwed := if s.rvalid then some s.rdata else none

/-- The handshakes at a clock edge; an accepted read takes the word that is on the bus afterwards. -/
def handshake (D : Decode n ρ ι) (s : AxiSlave n ρ) (i : AxiIn n ι) : RegisterFile.Edge (BitVec n) 32 where
  write := if s.slvRegWren i then some (wordAddr i.awaddr, i.wdata) else none
  b := s.bvalid && i.bready
  read := if i.arvalid && s.arready then some (wordAddr i.araddr, (s.clock i D).rdata) else none
  r := if s.rvalid && i.rready then some s.rdata else none

def handshakes (D : Decode n ρ ι) : AxiSlave n ρ → List (AxiIn n ι) → List (RegisterFile.Edge (BitVec n) 32)
  | _, [] => []
  | s, i :: is => handshake D s i :: handshakes D (s.clock i D) is

/-- The master of a register file: stable offers, one request at a time. -/
def Sequential (b : AxiBus n ρ) (i : AxiIn n ι) : Prop := b.2.Stable i ∧ b.2.OneAtATime i

instance (b : AxiBus n ρ) (i : AxiIn n ι) : Decidable (Sequential b i) := inferInstanceAs (Decidable (_ ∧ _))

/-! ### The invariant -/

structure Sync (b : AxiBus n ρ) : Prop where
  wready : b.1.wready = b.1.awready
  aw : b.1.awready → ∃ a ∈ b.2.offeredAw, b.1.axiAwaddr = wordAddr a
  w : b.1.awready → b.2.offeredW.isSome
  ar : b.1.arready → ∃ a ∈ b.2.offeredAr, b.1.axiAraddr = wordAddr a
  sentAw : b.2.sentAw = b.1.bvalid
  sentW : b.2.sentW = b.1.bvalid
  sentAr : b.2.sentAr = b.1.rvalid

variable {b c : AxiBus n ρ} {i : AxiIn n ι}

theorem sync_start (s : AxiSlave n ρ) (i : AxiIn n ι) : Sync (AxiBus.start D s i) := by
  constructor
  · rfl
  · intro h
    cases h
  · intro h
    cases h
  · intro h
    cases h
  · rfl
  · rfl
  · rfl

/-- A slave that is ready for a write accepts the one whose address it has latched, and no response is pending. -/
theorem Sync.write (h : Sync b) (hs : Sequential b i) (hr : b.1.awready = true) :
    i.awvalid = true ∧ i.wvalid = true ∧ b.1.axiAwaddr = wordAddr i.awaddr ∧ b.1.bvalid = false := by
  obtain ⟨⟨haw, hw, -⟩, hone, -⟩ := hs
  obtain ⟨a, ha, hlatch⟩ := h.aw hr
  obtain ⟨hv, ha'⟩ := haw (Option.isSome_of_mem ha)
  obtain rfl : a = i.awaddr := by rwa [ha', Option.mem_some_iff, eq_comm] at ha
  refine ⟨hv, (hw (h.w hr)).1, hlatch, ?_⟩
  rw [← h.sentAw]
  cases hsent : b.2.sentAw with
  | false => rfl
  | true =>
    rw [hone hsent] at hv
    cases hv

theorem Sync.read (h : Sync b) (hs : Sequential b i) (hr : b.1.arready = true) :
    i.arvalid = true ∧ b.1.axiAraddr = wordAddr i.araddr ∧ b.1.rvalid = false := by
  obtain ⟨⟨-, -, har⟩, -, -, hone⟩ := hs
  obtain ⟨a, ha, hlatch⟩ := h.ar hr
  obtain ⟨hv, ha'⟩ := har (Option.isSome_of_mem ha)
  obtain rfl : a = i.araddr := by rwa [ha', Option.mem_some_iff, eq_comm] at ha
  refine ⟨hv, hlatch, ?_⟩
  rw [← h.sentAr]
  cases hsent : b.2.sentAr with
  | false => rfl
  | true =>
    rw [hone hsent] at hv
    cases hv

/-- The write strobe is the ready flag. -/
theorem Sync.wren (h : Sync b) (hs : Sequential b i) : b.1.slvRegWren i = b.1.awready := by
  unfold AxiSlave.slvRegWren
  rw [h.wready]
  cases hr : b.1.awready with
  | false => simp
  | true =>
    obtain ⟨haw, hw, -⟩ := h.write hs hr
    simp [haw, hw]

theorem Sync.rden (h : Sync b) (hs : Sequential b i) :
    b.1.slvRegRden i = b.1.arready ∧ (i.arvalid && b.1.arready) = b.1.arready := by
  unfold AxiSlave.slvRegRden
  cases hr : b.1.arready with
  | false => simp
  | true =>
    obtain ⟨har, -, hv⟩ := h.read hs hr
    simp [har, hv]

/-- A response is waited for after a request, until it is taken, and so long it is on the bus. -/
theorem sent_next {ready valid pending taken : Bool} (h : ready = true → valid = true ∧ pending = false) :
    (valid && ready || pending && !(pending && taken)) =
      if ready && !pending then true else if taken && pending then false else pending := by
  cases ready with
  | false => cases pending <;> cases taken <;> cases valid <;> rfl
  | true =>
    obtain ⟨rfl, rfl⟩ := h rfl
    rfl

theorem Sync.step (h : Sync b) (hs : Sequential b i) (hc : AxiBus.step D b i = some c) : Sync c := by
  rw [AxiBus.step_eq, Option.some.injEq] at hc
  subst hc
  have hwren := h.wren hs
  obtain ⟨hrden, har⟩ := h.rden hs
  constructor
  · show (!b.1.wready && i.wvalid && i.awvalid) = (!b.1.awready && i.awvalid && i.wvalid)
    rw [h.wready, Bool.and_assoc, Bool.and_assoc, Bool.and_comm i.wvalid]
  · intro hr
    change (!b.1.awready && i.awvalid && i.wvalid) = true at hr
    refine ⟨i.awaddr, ?_, by simp [AxiSlave.clock, AxiSlave.latchAw, hr]⟩
    simp only [Bool.and_eq_true, Bool.not_eq_true'] at hr
    simp [AxiWatch.note, hr]
  · intro hr
    change (!b.1.awready && i.awvalid && i.wvalid) = true at hr
    simp only [Bool.and_eq_true, Bool.not_eq_true'] at hr
    simp [AxiWatch.note, h.wready, hr]
  · intro hr
    change (!b.1.arready && i.arvalid) = true at hr
    refine ⟨i.araddr, ?_, by simp [AxiSlave.clock, AxiSlave.latchAr, hr]⟩
    simp only [Bool.and_eq_true, Bool.not_eq_true'] at hr
    simp [AxiWatch.note, hr]
  · have hw (hr : b.1.awready = true) := h.write hs hr
    simp only [AxiWatch.note, AxiSlave.clock, hwren, h.sentAw]
    exact sent_next fun hr => ⟨(hw hr).1, (hw hr).2.2.2⟩
  · have hw (hr : b.1.awready = true) := h.write hs hr
    simp only [AxiWatch.note, AxiSlave.clock, hwren, h.sentW, h.wready]
    exact sent_next fun hr => ⟨(hw hr).2.1, (hw hr).2.2.2⟩
  · have hw (hr : b.1.arready = true) := h.read hs hr
    rw [rvalid_clock, har]
    simp only [AxiWatch.note, h.sentAr]
    exact sent_next fun hr => ⟨(hw hr).1, (hw hr).2.2⟩

/-! ### The simulation -/

variable (L : Layout D)

/-- An accepted read takes the word of its own address. -/
theorem Sync.rdata_clock (h : Sync b) (hs : Sequential b i) (hr : b.1.arready = true) :
    (b.1.clock i D).rdata = D.read b.1.regs i.ext (wordAddr i.araddr) := by
  obtain ⟨hrden, -⟩ := h.rden hs
  simp only [AxiSlave.clock, hrden, hr, if_true, (h.read hs hr).2.1]

theorem Sync.allowed (h : Sync b) (hs : Sequential b i) :
    RegisterFile.Allowed L.map (L.abs b.1) (handshake D b.1 i) := by
  obtain ⟨hrden, har⟩ := h.rden hs
  refine ⟨?_, ?_, ?_, ?_⟩
  · intro hw
    have hr : b.1.awready = true := by
      rw [← h.wren hs]
      by_contra hn
      simp [handshake, hn] at hw
    exact (h.write hs hr).2.2.2
  · intro hb
    exact (Bool.and_eq_true_iff.1 hb).1
  · intro x hx
    simp only [handshake, har, Option.mem_def, Option.ite_none_right_eq_some, Option.some.injEq] at hx
    obtain ⟨hr, rfl⟩ := hx
    refine ⟨by simp [Layout.abs, (h.read hs hr).2.2], ?_, ?_⟩
    · rw [h.rdata_clock hs hr]
      exact L.read_fields b.1.regs i.ext _
    · intro hm
      exact (h.rdata_clock hs hr).trans (L.read_unmapped b.1.regs i.ext _ hm)
  · intro hd
    have hv : (b.1.rvalid && i.rready) = true := by
      by_contra hn
      simp [handshake, hn] at hd
    obtain ⟨hvalid, hready⟩ := Bool.and_eq_true_iff.1 hv
    simp [handshake, Layout.abs, hvalid, hready]

theorem Sync.file_next (h : Sync b) (hs : Sequential b i) :
    RegisterFile.written L.map (L.abs b.1) (handshake D b.1 i) = L.fields (b.1.clock i D).regs := by
  have hwren := h.wren hs
  unfold RegisterFile.written
  cases hr : b.1.awready with
  | false =>
    simp only [handshake, AxiSlave.clock, hwren, hr]
    exact (L.fields_none b.1.regs i.ext).symm
  | true =>
    simp only [handshake, AxiSlave.clock, hwren, hr, if_true, (h.write hs hr).2.2.1]
    exact (L.fields_write b.1.regs i.ext _ _).symm

theorem Sync.bOwed_next (h : Sync b) (hs : Sequential b i) :
    ((handshake D b.1 i).write.isSome || b.1.bvalid && !(handshake D b.1 i).b) = (b.1.clock i D).bvalid := by
  simp only [handshake, AxiSlave.clock, h.wren hs]
  cases hr : b.1.awready with
  | false => cases b.1.bvalid <;> cases i.bready <;> rfl
  | true =>
    rw [(h.write hs hr).2.2.2]
    rfl

theorem Sync.rOwed_next (h : Sync b) (hs : Sequential b i) :
    (RegisterFile.next L.map (L.abs b.1) (handshake D b.1 i)).rOwed = (L.abs (b.1.clock i D)).rOwed := by
  obtain ⟨hrden, har⟩ := h.rden hs
  unfold RegisterFile.next Layout.abs
  cases hr : b.1.arready with
  | false =>
    simp only [handshake, har.trans hr, AxiSlave.clock, hrden.trans hr]
    cases b.1.rvalid <;> cases i.rready <;> rfl
  | true =>
    simp only [handshake, har.trans hr, AxiSlave.clock, hrden.trans hr]
    rfl

/-- A clock is a step of the register file. -/
theorem Sync.simulates (h : Sync b) (hs : Sequential b i) :
    RegisterFile.step L.map (L.abs b.1) (handshake D b.1 i) = some (L.abs (b.1.clock i D)) := by
  have hnext : RegisterFile.next L.map (L.abs b.1) (handshake D b.1 i) = L.abs (b.1.clock i D) := by
    have hfile := h.file_next L hs
    have hb := h.bOwed_next (D := D) hs
    have hr := h.rOwed_next L hs
    calc RegisterFile.next L.map (L.abs b.1) (handshake D b.1 i)
        = ⟨RegisterFile.written L.map (L.abs b.1) (handshake D b.1 i),
            (handshake D b.1 i).write.isSome || b.1.bvalid && !(handshake D b.1 i).b,
            (RegisterFile.next L.map (L.abs b.1) (handshake D b.1 i)).rOwed⟩ := rfl
      _ = L.abs (b.1.clock i D) := by
        rw [hfile, hb, hr]
        rfl
  unfold RegisterFile.step
  rw [if_pos (h.allowed L hs), hnext]

/-! ### Runs -/

/-- What a master sees in a run from the bus `b`. -/
structure Refines (L : Layout D) (b : AxiBus n ρ) (is : List (AxiIn n ι)) : Prop where
  /-- The handshakes are steps of the register file, which is that of the slave also at the end. -/
  simulates : ∃ c, exec (AxiBus.step D) b is = some c ∧
    exec (RegisterFile.step L.map) (L.abs b.1) (handshakes D b.1 is) = some (L.abs c.1)
  /-- A write's address and its data are accepted at once. -/
  together : StepsMeet (AxiBus.step D) (fun b i => (i.awvalid && b.1.awready) = (i.wvalid && b.1.wready)) b is
  /-- Every read shows the last write before it. -/
  reads : ∀ es e fs, handshakes D b.1 is = es ++ e :: fs → ∀ x ∈ e.read,
    x.2 &&& L.map.rw x.1 =
        (RegisterFile.lastWrite es x.1).elim (L.fields b.1.regs x.1) (fun d => d &&& L.map.rw x.1) ∧
      (L.map.mapped x.1 = false → x.2 = L.map.unmapped)
  /-- There is one response for each request. -/
  answered : StatesMeet (AxiBus.step D) (fun b => WritesAnswered b ∧ ReadsAnswered b) b is
  /-- A word waits unchanged for the master. -/
  waits : StepsMeet (AxiBus.step D)
    (fun b i => b.1.rvalid ∧ i.rready = false → (b.1.clock i D).rvalid ∧ (b.1.clock i D).rdata = b.1.rdata) b is

theorem exec_simulates {is : List (AxiIn n ι)} (h : Sync b) (hs : StepsMeet (AxiBus.step D) Sequential b is) :
    ∃ c, exec (AxiBus.step D) b is = some c ∧
      exec (RegisterFile.step L.map) (L.abs b.1) (handshakes D b.1 is) = some (L.abs c.1) := by
  induction is generalizing b with
  | nil => exact ⟨b, rfl, rfl⟩
  | cons i is ih =>
    have hstep := AxiBus.step_eq D b i
    obtain ⟨c, hc, ha⟩ := ih (h.step hs.1 hstep) (hs.2 _ hstep)
    exact ⟨c, exec_cons hstep hc, exec_cons (h.simulates L hs.1) ha⟩

theorem refines (s : AxiSlave n ρ) (i : AxiIn n ι) {is : List (AxiIn n ι)}
    (hs : StepsMeet (AxiBus.step D) Sequential (AxiBus.start D s i) is) : Refines L (AxiBus.start D s i) is := by
  have h₀ : Sync (AxiBus.start D s i) := sync_start s i
  have keep (b : AxiBus n ρ) (i : AxiIn n ι) (c : AxiBus n ρ) (h : Sync b) (hs : Sequential b i)
      (hc : AxiBus.step D b i = some c) : Sync c := h.step hs hc
  have hsim := exec_simulates L h₀ hs
  have hresp := responses (D := D) s i is
  refine ⟨hsim, ?_, ?_, ?_, ?_⟩
  · refine hs.of_invariant keep (fun b i h hs => ?_) h₀
    cases hr : b.1.awready with
    | false => simp [h.wready, hr]
    | true =>
      obtain ⟨haw, hw, -⟩ := h.write hs hr
      simp [h.wready, hr, haw, hw]
  · intro es e fs he x hx
    obtain ⟨c, -, hex⟩ := hsim
    rw [he] at hex
    exact RegisterFile.read_of_exec hex hx
  · have hw := hresp.writes.2 (hs.of_invariant keep
      (fun b i h hs hw => (h.write hs ((h.wren hs).symm.trans hw)).2.2.2) h₀)
    have hr := hresp.reads.2 (hs.of_invariant keep
      (fun b i h hs hr => (h.read hs ((h.rden hs).2.symm.trans hr)).2.2) h₀)
    rw [statesMeet_iff] at hw hr ⊢
    intro es fs c he hc
    exact ⟨hw es fs c he hc, hr es fs c he hc⟩
  · refine hs.of_invariant keep (fun b i h hs => ?_) h₀
    rintro ⟨hv, hready⟩
    obtain ⟨hrden, -⟩ := h.rden hs
    have hr : b.1.arready = false := by
      by_contra hn
      rw [(h.read hs (by simpa using hn)).2.2] at hv
      cases hv
    simp [AxiSlave.clock, hrden, hr, hv, hready]

end RcCarControl.Fpga
