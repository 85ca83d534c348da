import RcCarControl.Lib.Runs

/-!
# The AXI4-Lite handshake

The handshake that `video_ctrl_axi.sv` and `sys_ctrl_axi.sv` have in common, text for text: the ready and valid flags,
the latched addresses and the returned word.  The registers behind it are a `Decode`.  `AxiWatch` is what an observer of
the bus knows: what the master has offered and sent, and how many handshakes there were.
-/

namespace RcCarControl.Fpga

open Lts

/-- The registers behind the handshake: a clock out of reset with the write strobe, a clock in reset, and the read decode.
`ι` are the other inputs of the module. -/
structure Decode (n : Nat) (ρ ι : Type) where
  clock : ρ → ι → Option (BitVec n × BitVec 32) → ρ
  reset : ρ → ρ
  read : ρ → ι → BitVec n → BitVec 32

/-- The signals of the master at a clock edge, and the other inputs.  The write strobes are not read by the slaves. -/
structure AxiIn (n : Nat) (ι : Type) where
  awaddr : BitVec (n + 2)
  awvalid : Bool
  wdata : BitVec 32
  wvalid : Bool
  bready : Bool
  araddr : BitVec (n + 2)
  arvalid : Bool
  rready : Bool
  ext : ι

structure AxiSlave (n : Nat) (ρ : Type) where
  awready : Bool
  wready : Bool
  axiAwaddr : BitVec n
  bvalid : Bool
  bresp : BitVec 2
  arready : Bool
  axiAraddr : BitVec n
  rvalid : Bool
  rresp : BitVec 2
  rdata : BitVec 32
  regs : ρ

variable {n : Nat} {ρ ι : Type}

/-- The word address: the bits above `ADDR_LSB`. -/
def wordAddr (addr : BitVec (n + 2)) : BitVec n := addr.extractLsb' 2 n

/-! ### The slave -/

namespace AxiSlave

variable (s : AxiSlave n ρ) (i : AxiIn n ι)

def slvRegWren : Bool := i.wvalid && s.wready && i.awvalid && s.awready

def slvRegRden : Bool := i.arvalid && s.arready && !s.rvalid

/-- The address is latched one clock before it is accepted. -/
def latchAw : BitVec n := if !s.awready && i.awvalid && i.wvalid then wordAddr i.awaddr else s.axiAwaddr

def latchAr : BitVec n := if !s.arready && i.arvalid then wordAddr i.araddr else s.axiAraddr

/-- One clock edge out of reset. -/
def clock (D : Decode n ρ ι) : AxiSlave n ρ where
  awready := !s.awready && i.awvalid && i.wvalid
  wready := !s.wready && i.wvalid && i.awvalid
  axiAwaddr := s.latchAw i
  bvalid := if s.slvRegWren i && !s.bvalid then true else if i.bready && s.bvalid then false else s.bvalid
  bresp := if s.slvRegWren i && !s.bvalid then 0 else s.bresp
  arready := !s.arready && i.arvalid
  axiAraddr := s.latchAr i
  rvalid := if s.slvRegRden i then true else if s.rvalid && i.rready then false else s.rvalid
  rresp := if s.slvRegRden i then 0 else s.rresp
  rdata := if s.slvRegRden i then D.read s.regs i.ext s.axiAraddr else s.rdata
  regs := D.clock s.regs i.ext (if s.slvRegWren i then some (s.axiAwaddr, i.wdata) else none)

/-- One clock edge with `ARESETn` low. -/
def reset (D : Decode n ρ ι) : AxiSlave n ρ :=
  { s.clock i D with
    awready := false
    wready := false
    bvalid := false
    arready := false
    rvalid := false
    regs := D.reset s.regs }

end AxiSlave

/-! ### The observer -/

structure AxiWatch (n : Nat) where
  /-- The address offered by the master and not accepted at the last edge. -/
  offeredAw : Option (BitVec (n + 2))
  offeredW : Option (BitVec 32)
  offeredAr : Option (BitVec (n + 2))
  /-- An address was accepted, and no response to it was. -/
  sentAw : Bool
  sentW : Bool
  sentAr : Bool
  writes : Nat
  bResponses : Nat
  reads : Nat
  rResponses : Nat
deriving DecidableEq

namespace AxiWatch

/-- After the reset, during which a master offers nothing. -/
def start : AxiWatch n where
  offeredAw := none
  offeredW := none
  offeredAr := none
  sentAw := false
  sentW := false
  sentAr := false
  writes := 0
  bResponses := 0
  reads := 0
  rResponses := 0

def note (s : AxiSlave n ρ) (i : AxiIn n ι) (m : AxiWatch n) : AxiWatch n where
  offeredAw := if i.awvalid && !s.awready then some i.awaddr else none
  offeredW := if i.wvalid && !s.wready then some i.wdata else none
  offeredAr := if i.arvalid && !s.arready then some i.araddr else none
  sentAw := i.awvalid && s.awready || m.sentAw && !(s.bvalid && i.bready)
  sentW := i.wvalid && s.wready || m.sentW && !(s.bvalid && i.bready)
  sentAr := i.arvalid && s.arready || m.sentAr && !(s.rvalid && i.rready)
  writes := m.writes + (s.slvRegWren i).toNat
  bResponses := m.bResponses + (s.bvalid && i.bready).toNat
  reads := m.reads + (i.arvalid && s.arready).toNat
  rResponses := m.rResponses + (s.rvalid && i.rready).toNat

/-- What is offered stays offered, unchanged, until it is accepted. -/
def Stable (m : AxiWatch n) (i : AxiIn n ι) : Prop :=
  (m.offeredAw.isSome → i.awvalid ∧ m.offeredAw = some i.awaddr) ∧
    (m.offeredW.isSome → i.wvalid ∧ m.offeredW = some i.wdata) ∧
      (m.offeredAr.isSome → i.arvalid ∧ m.offeredAr = some i.araddr)

/-- Nothing new is offered before the response to the last one was accepted. -/
def OneAtATime (m : AxiWatch n) (i : AxiIn n ι) : Prop :=
  (m.sentAw → i.awvalid = false) ∧ (m.sentW → i.wvalid = false) ∧ (m.sentAr → i.arvalid = false)

instance (m : AxiWatch n) (i : AxiIn n ι) : Decidable (m.Stable i) := inferInstanceAs (Decidable (_ ∧ _ ∧ _))

instance (m : AxiWatch n) (i : AxiIn n ι) : Decidable (m.OneAtATime i) := inferInstanceAs (Decidable (_ ∧ _ ∧ _))

end AxiWatch

/-! ### The bus -/

/-- The slave and its observer. -/
abbrev AxiBus (n : Nat) (ρ : Type) := AxiSlave n ρ × AxiWatch n

/-- A clock edge out of reset. -/
def AxiBus.step (D : Decode n ρ ι) : AxiBus n ρ → AxiIn n ι → Option (AxiBus n ρ) :=
  withGhost (fun s i => some (AxiSlave.clock s i D)) AxiWatch.note

/-- The bus after a clock in reset, whatever was before. -/
def AxiBus.start (D : Decode n ρ ι) (s : AxiSlave n ρ) (i : AxiIn n ι) : AxiBus n ρ := (s.reset i D, .start)

theorem AxiBus.step_eq (D : Decode n ρ ι) (b : AxiBus n ρ) (i : AxiIn n ι) :
    AxiBus.step D b i = some (AxiSlave.clock b.1 i D, AxiWatch.note b.1 i b.2) := rfl

/-- There is a next clock. -/
theorem AxiBus.exec_total (D : Decode n ρ ι) (b : AxiBus n ρ) (is : List (AxiIn n ι)) :
    ∃ t, exec (AxiBus.step D) b is = some t :=
  Lts.exec_total (fun b i => ⟨_, AxiBus.step_eq D b i⟩) b is

end RcCarControl.Fpga
