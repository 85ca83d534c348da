import RcCarControl.Daemon.I2cCtrl

/-!
# Setting up the camera sensor

`rccOv5642Ctrl` of `sw/daemon` over the transfers of `rccI2cCtrl`.  What lies behind the device file, the driver of the
bus with the sensor, is any system that answers transfers (`Bus`).

`init` returns true only behind a right chip id and after every register of the table of the mode was written and read
back, in the order of the table; only the software reset may have failed unseen (`init_true`).  Otherwise it leaves the
device closed (`init_false`).  With a sensor that takes every transfer the chip id decides, and the sensor is then in
the state that the reset and the table leave (`init_sensor`).
-/

namespace RcCarControl.Daemon

open LittleEndian (Byte)
open I2cCtrl (addrBytes)

/-! ### Transfers -/

/-- The bus behind the device file: `::write` of some bytes and `::read` of one byte, with their results. -/
structure Bus (δ : Type*) where
  write : δ → List Byte → Int × δ
  read : δ → (Int × Byte) × δ
  read_range : ∀ d, (read d).1.1 = 1 ∨ (read d).1.1 = 0 ∨ (read d).1.1 = -1

inductive Transfer
  | wrote (bytes : List Byte) (ret : Int)
  | got (ret : Int) (data : Byte)
  deriving DecidableEq

/-- The device with all transfers so far, and the registers that did not read back what was written. -/
structure I2c (δ : Type*) where
  mDevFd : Int
  dev : δ
  transfers : List Transfer
  disagreed : List (BitVec 16)

namespace I2c

variable {δ : Type*} (bus : Bus δ)

def isOpen (c : I2c δ) : Bool := decide (0 < c.mDevFd)

def close (c : I2c δ) : I2c δ := if 0 < c.mDevFd then { c with mDevFd := -1 } else c

/-- `open`, with the results of `::open` and `ioctl`; the returned value and the device. -/
def openDevice (c : I2c δ) (opened ioctl : Int) : Int × I2c δ :=
  let c := { c with mDevFd := opened }
  if opened < 0 then (-1, c)
  else if ioctl < 0 then (-1, c.close)
  else (opened, c)

/-- `write(const std::vector<uint8_t> data)`. -/
def write (c : I2c δ) (data : List Byte) : Int × I2c δ :=
  if c.mDevFd ≤ 0 then (-1, c)
  else
    let r := bus.write c.dev data
    (if r.1 < 0 then -1 else r.1, { c with dev := r.2, transfers := c.transfers ++ [.wrote data r.1] })

/-- `write(const uint16_t regAddr, uint8_t data)`. -/
def writeReg (c : I2c δ) (regAddr : BitVec 16) (data : Byte) : Int × I2c δ :=
  if c.mDevFd ≤ 0 then (-1, c) else c.write bus (addrBytes regAddr ++ [data])

/-- `::read` of one byte. -/
def readByte (c : I2c δ) : (Int × Byte) × I2c δ :=
  let r := bus.read c.dev
  (r.1, { c with dev := r.2, transfers := c.transfers ++ [.got r.1.1 r.1.2] })

/-- The loop of `read(const uint16_t regAddr, std::vector<uint8_t> &data)`, `left` turns from `i` on. -/
def readLoop (regAddr : BitVec 16) : (left i : Nat) → (bytes : Int) → (data : List Byte) → I2c δ →
    (Int × List Byte) × I2c δ
  | 0, _, bytes, data, c => ((bytes, data), c)
  | left + 1, i, bytes, data, c =>
    let w := c.write bus (addrBytes (regAddr + BitVec.ofNat 16 i))
    if w.1 < 0 then ((-1, data), w.2)
    else
      let r := w.2.readByte bus
      let data := if r.1.1 = 1 then data.set i r.1.2 else data
      let bytes := bytes + r.1.1
      if bytes ≤ 0 then ((-1, data), r.2) else readLoop regAddr left (i + 1) bytes data r.2

def readRegs (c : I2c δ) (regAddr : BitVec 16) (data : List Byte) : (Int × List Byte) × I2c δ :=
  if c.mDevFd ≤ 0 then ((-1, data), c) else readLoop bus regAddr data.length 0 0 data c

/-- `read(const uint16_t regAddr, uint8_t &data)`. -/
def readReg (c : I2c δ) (regAddr : BitVec 16) (data : Byte) : (Int × Byte) × I2c δ :=
  let r := c.readRegs bus regAddr [0]
  if r.1.1 < 0 then ((-1, data), r.2) else ((1, r.1.2.headD 0), r.2)

end I2c

/-! ### The sensor -/

namespace Ov5642Ctrl

def cChipIdAddr : BitVec 16 := 0x300A
def cChipIdMsb : Byte := 0x56
def cChipIdLsb : Byte := 0x42
def cSysCtrlAddr : BitVec 16 := 0x3008
def cSysCtrlSwRst : Byte := 0x80
def cSysCtrlRsvd : Byte := 0x02

def ov5642ModeNonexisting : Nat := 3

variable {δ : Type*} (bus : Bus δ) (modeTable : Nat → List (BitVec 16 × Byte))

def reset (c : I2c δ) : Bool × I2c δ :=
  if c.isOpen then (true, (c.writeReg bus cSysCtrlAddr (cSysCtrlSwRst ||| cSysCtrlRsvd)).2) else (false, c)

/-- The loop of `configure`; `retVal` is the uninitialised local. -/
def configureLoop (verify : Bool) (retVal : Byte) : List (BitVec 16 × Byte) → I2c δ → Bool × I2c δ
  | [], c => (true, c)
  | (regAddr, regValue) :: table, c =>
    let w := c.writeReg bus regAddr regValue
    if w.1 < 0 then (false, w.2.close)
    else if verify then
      let r := w.2.readReg bus regAddr retVal
      if r.1.1 < 0 then (false, r.2.close)
      else
        -- registers that disagree are reported, and the loop goes on
        configureLoop verify retVal table
          { r.2 with disagreed := if r.1.2 ≠ regValue then r.2.disagreed ++ [regAddr] else r.2.disagreed }
    else configureLoop verify retVal table w.2

def configure (c : I2c δ) (mode : Nat) (verify : Bool) (retVal : Byte) : Bool × I2c δ :=
  if ov5642ModeNonexisting ≤ mode then (false, c) else configureLoop bus verify retVal (modeTable mode) c

/-- `init`, with the results of `::open` and `ioctl`. -/
def init (c : I2c δ) (mode : Nat) (opened ioctl : Int) (retVal : Byte) : Bool × I2c δ :=
  if ov5642ModeNonexisting ≤ mode then (false, c)
  else
    let o := c.openDevice opened ioctl
    if o.1 < 0 then (false, o.2)
    else
      let r := o.2.readRegs bus cChipIdAddr [0, 0]
      if r.1.1 < 0 then (false, r.2.close)
      else if r.1.2.getD 0 0 ≠ cChipIdMsb ∨ r.1.2.getD 1 0 ≠ cChipIdLsb then (false, r.2.close)
      else configure bus modeTable (reset bus r.2).2 mode true retVal

end Ov5642Ctrl

/-! ### The reads are those of `rccI2cCtrl` -/

namespace I2c

variable {δ : Type*} {bus : Bus δ}

theorem write_closed {c : I2c δ} (h : c.mDevFd ≤ 0) (data : List Byte) : c.write bus data = (-1, c) := if_pos h

theorem write_open (bus : Bus δ) {c : I2c δ} (h : 0 < c.mDevFd) (data : List Byte) :
    c.write bus data = (if (bus.write c.dev data).1 < 0 then -1 else (bus.write c.dev data).1,
      { c with
        dev := (bus.write c.dev data).2
        transfers := c.transfers ++ [.wrote data (bus.write c.dev data).1] }) := if_neg (by omega)

theorem mDevFd_write (c : I2c δ) (data : List Byte) : (c.write bus data).2.mDevFd = c.mDevFd := by
  unfold write
  split_ifs <;> rfl

/-- The result of a write does not depend on what was transferred before. -/
theorem write_fst (bus : Bus δ) (c : I2c δ) (data : List Byte) :
    (c.write bus data).1 = I2cCtrl.write c.mDevFd (bus.write c.dev data).1 := by
  unfold I2cCtrl.write
  by_cases h : c.mDevFd ≤ 0
  · rw [write_closed h, if_pos h]
  · rw [write_open bus (by omega), if_neg h]

variable (bus) in
/-- The device in front of turn `k` of the loop. -/
def atTurn (regAddr : BitVec 16) (c : I2c δ) : Nat → I2c δ
  | 0 => c
  | k + 1 => (((atTurn regAddr c k).write bus (addrBytes (regAddr + BitVec.ofNat 16 k))).2.readByte bus).2

variable (bus) in
/-- The calls of turn `k`. -/
def callsAt (regAddr : BitVec 16) (c : I2c δ) (k : Nat) : I2cCtrl.ByteCalls where
  wrote := (bus.write (atTurn bus regAddr c k).dev (addrBytes (regAddr + BitVec.ofNat 16 k))).1
  got := (((atTurn bus regAddr c k).write bus (addrBytes (regAddr + BitVec.ofNat 16 k))).2.readByte bus).1.1
  answer _ := (((atTurn bus regAddr c k).write bus (addrBytes (regAddr + BitVec.ofNat 16 k))).2.readByte bus).1.2
  got_range := bus.read_range _

theorem mDevFd_atTurn (bus : Bus δ) (regAddr : BitVec 16) (c : I2c δ) (k : Nat) : (atTurn bus regAddr c k).mDevFd = c.mDevFd := by
  induction k with
  | zero => rfl
  | succ k ih => exact (mDevFd_write _ _).trans ih

theorem readLoop_fst (regAddr : BitVec 16) (c : I2c δ) (byteAddr : Nat → List Byte) (left i : Nat) (bytes : Int)
    (data : List Byte) : (readLoop bus regAddr left i bytes data (atTurn bus regAddr c i)).1 =
      I2cCtrl.readLoop c.mDevFd byteAddr (callsAt bus regAddr c) left i bytes data := by
  induction left generalizing i bytes data with
  | zero => rfl
  | succ left ih =>
    have hfd := mDevFd_atTurn bus regAddr c i
    have hw := write_fst bus (atTurn bus regAddr c i) (addrBytes (regAddr + BitVec.ofNat 16 i))
    rw [hfd] at hw
    unfold readLoop I2cCtrl.readLoop
    simp only
    rw [hw]
    by_cases hneg : I2cCtrl.write c.mDevFd
        (bus.write (atTurn bus regAddr c i).dev (addrBytes (regAddr + BitVec.ofNat 16 i))).1 < 0
    · have hneg' : I2cCtrl.write c.mDevFd (callsAt bus regAddr c i).wrote < 0 := hneg
      rw [if_pos hneg, if_pos hneg']
    · have hneg' : ¬ I2cCtrl.write c.mDevFd (callsAt bus regAddr c i).wrote < 0 := hneg
      rw [if_neg hneg, if_neg hneg']
      by_cases hzero : bytes + (callsAt bus regAddr c i).got ≤ 0
      · rw [if_pos hzero]
        exact congrArg Prod.fst (if_pos hzero)
      · rw [if_neg hzero]
        exact (congrArg Prod.fst (if_neg hzero)).trans (ih (i + 1) _ _)

/-- A read of the device is a read of `rccI2cCtrl` with the calls that the bus answers. -/
theorem readRegs_fst (c : I2c δ) (regAddr : BitVec 16) (data : List Byte) (h : data.length < 2 ^ 31) :
    (c.readRegs bus regAddr data).1 = I2cCtrl.read16 c.mDevFd regAddr (callsAt bus regAddr c) data := by
  have hturns : I2cCtrl.turns data.length = data.length := by
    unfold I2cCtrl.turns
    rw [BitVec.toInt_eq_toNat_of_lt] <;> simp <;> omega
  unfold readRegs I2cCtrl.read16 I2cCtrl.read
  by_cases hfd : c.mDevFd ≤ 0
  · rw [if_pos hfd, if_pos hfd]
  · rw [if_neg hfd, if_neg hfd, hturns]
    exact readLoop_fst regAddr c _ data.length 0 0 data

/-- So is the read of one register. -/
theorem readReg_fst (c : I2c δ) (regAddr : BitVec 16) (data : Byte) :
    (c.readReg bus regAddr data).1 = I2cCtrl.read16One c.mDevFd regAddr (callsAt bus regAddr c 0) data := by
  have hregs : (c.readRegs bus regAddr [0]).1 = I2cCtrl.read16 c.mDevFd regAddr (callsAt bus regAddr c) [0] :=
    readRegs_fst c regAddr [0] (by decide)
  have hfirst : I2cCtrl.read16 c.mDevFd regAddr (callsAt bus regAddr c) [0] =
      I2cCtrl.read16 c.mDevFd regAddr (fun _ => callsAt bus regAddr c 0) [0] := rfl
  unfold readReg I2cCtrl.read16One I2cCtrl.readOne
  simp only
  rw [hregs, hfirst]
  split_ifs <;> rfl

end I2c

/-! ### What a call leaves on the bus -/

namespace I2c

variable {δ : Type*} {bus : Bus δ}

/-- The device after some transfers; registers that disagree are noted elsewhere. -/
structure After (c c' : I2c δ) (ts : List Transfer) : Prop where
  transfers : c'.transfers = c.transfers ++ ts
  mDevFd : c'.mDevFd = c.mDevFd
  disagreed : c'.disagreed = c.disagreed

theorem After.trans {a b c : I2c δ} {ts us : List Transfer} (h : After a b ts) (h' : After b c us) :
    After a c (ts ++ us) :=
  ⟨by rw [h'.transfers, h.transfers, List.append_assoc], h'.mDevFd.trans h.mDevFd, h'.disagreed.trans h.disagreed⟩

theorem after_write (bus : Bus δ) {c : I2c δ} (h : 0 < c.mDevFd) (data : List Byte) :
    After c (c.write bus data).2 [.wrote data (bus.write c.dev data).1] := by
  rw [write_open bus h]
  exact ⟨rfl, rfl, rfl⟩

theorem write_nonneg {c : I2c δ} {data : List Byte} (h : ¬ (c.write bus data).1 < 0) :
    0 < c.mDevFd ∧ 0 ≤ (bus.write c.dev data).1 := by
  by_cases hfd : 0 < c.mDevFd
  · rw [write_open bus hfd] at h
    split_ifs at h <;> omega
  · rw [write_closed (by omega)] at h
    exact absurd (show (-1 : Int) < 0 by decide) h

/-- A write of a register that is not refused. -/
theorem writeReg_cases (bus : Bus δ) (c : I2c δ) (a : BitVec 16) (v : Byte) :
    ((c.writeReg bus a v).1 < 0 ∧ (c.writeReg bus a v).2.mDevFd = c.mDevFd) ∨
      ∃ ret, 0 ≤ ret ∧ ¬ (c.writeReg bus a v).1 < 0 ∧
        After c (c.writeReg bus a v).2 [.wrote (addrBytes a ++ [v]) ret] := by
  unfold writeReg
  by_cases hfd : c.mDevFd ≤ 0
  · left
    rw [if_pos hfd]
    exact ⟨Int.negSucc_lt_zero 0, rfl⟩
  rw [if_neg hfd]
  by_cases hneg : (c.write bus (addrBytes a ++ [v])).1 < 0
  · left
    exact ⟨hneg, mDevFd_write c _⟩
  · right
    exact ⟨_, (write_nonneg hneg).2, hneg, after_write bus (by omega) _⟩

theorem after_readByte (bus : Bus δ) (c : I2c δ) :
    After c (c.readByte bus).2 [.got (c.readByte bus).1.1 (c.readByte bus).1.2] := ⟨rfl, rfl, rfl⟩

/-- One turn of the loop that goes on: the address was taken, and the sum of the results stays positive. -/
theorem readLoop_succ (bus : Bus δ) (a : BitVec 16) (left i : Nat) (bytes : Int) (data : List Byte) (c : I2c δ) :
    ((readLoop bus a (left + 1) i bytes data c).1.1 < 0 ∧
        (readLoop bus a (left + 1) i bytes data c).2.mDevFd = c.mDevFd) ∨
      ∃ ret got b c', 0 ≤ ret ∧ (got = 1 ∨ got = 0 ∨ got = -1) ∧ 0 < bytes + got ∧
        After c c' [.wrote (addrBytes (a + BitVec.ofNat 16 i)) ret, .got got b] ∧
        readLoop bus a (left + 1) i bytes data c =
          readLoop bus a left (i + 1) (bytes + got) (if got = 1 then data.set i b else data) c' := by
  rw [readLoop]
  simp only
  by_cases hneg : (c.write bus (addrBytes (a + BitVec.ofNat 16 i))).1 < 0
  · left
    rw [if_pos hneg]
    exact ⟨Int.negSucc_lt_zero 0, mDevFd_write c _⟩
  rw [if_neg hneg]
  have hw := write_nonneg hneg
  by_cases hzero : bytes + ((c.write bus (addrBytes (a + BitVec.ofNat 16 i))).2.readByte bus).1.1 ≤ 0
  · left
    rw [if_pos hzero]
    exact ⟨Int.negSucc_lt_zero 0, mDevFd_write c _⟩
  · right
    rw [if_neg hzero]
    exact ⟨_, _, _, _, hw.2, bus.read_range _, lt_of_not_ge hzero, (after_write bus hw.1 _).trans (after_readByte bus _),
      rfl⟩

/-- The transfers of a read of one register whose address is taken. -/
theorem readReg_snd {c : I2c δ} {a : BitVec 16} (h : ¬ (c.write bus (addrBytes a)).1 < 0) (d : Byte) :
    (c.readReg bus a d).2 = ((c.write bus (addrBytes a)).2.readByte bus).2 := by
  have hfd := (write_nonneg h).1
  unfold readReg readRegs
  rw [if_neg (show ¬ c.mDevFd ≤ 0 by omega), List.length_singleton, readLoop, BitVec.add_zero]
  simp only
  rw [if_neg h]
  unfold readLoop
  split_ifs <;> rfl

/-- A read of one register that does not fail got its byte. -/
theorem readReg_cases (bus : Bus δ) (c : I2c δ) (a : BitVec 16) (d : Byte) :
    (c.readReg bus a d).1.1 < 0 ∨
      ∃ ret b, 0 ≤ ret ∧ (c.readReg bus a d).1 = (1, b) ∧
        After c (c.readReg bus a d).2 [.wrote (addrBytes a) ret, .got 1 b] := by
  have hres : (c.readReg bus a d).1 = _ := (readReg_fst c a d).trans (I2cCtrl.readOne_eq c.mDevFd 0 a _ d).2
  -- the overload for one byte sees every failure of its two calls
  by_cases hok : 0 ≤ I2cCtrl.write c.mDevFd (callsAt bus a c 0).wrote ∧ (callsAt bus a c 0).got = 1
  · right
    rw [if_pos hok] at hres
    obtain ⟨hwrote, hgot⟩ := hok
    simp only [callsAt, atTurn, BitVec.add_zero] at hwrote hgot hres
    have hnn : ¬ (c.write bus (addrBytes a)).1 < 0 := by
      rw [write_fst]
      exact not_lt.2 hwrote
    obtain ⟨hfd, hret⟩ := write_nonneg hnn
    have hafter := (after_write bus hfd (addrBytes a)).trans (after_readByte bus _)
    rw [hgot] at hafter
    refine ⟨_, _, hret, hres, ?_⟩
    rw [readReg_snd hnn]
    exact hafter
  · left
    rw [if_neg hok] at hres
    rw [hres]
    exact Int.negSucc_lt_zero 0

end I2c

/-! ### Setting up over any bus -/

namespace Ov5642Ctrl

open I2c

variable {δ : Type*} {bus : Bus δ} {modeTable : Nat → List (BitVec 16 × Byte)} {retVal : Byte}

/-- The transfers of a table: every register is written, and then read back with some byte; no transfer fails. -/
inductive Configured : List (BitVec 16 × Byte) → List Transfer → Prop
  | nil : Configured [] []
  | cons {a : BitVec 16} {v b : Byte} {wrote addressed : Int} {table : List (BitVec 16 × Byte)} {ts : List Transfer}
      (hw : 0 ≤ wrote) (ha : 0 ≤ addressed) (h : Configured table ts) :
      Configured ((a, v) :: table)
        (.wrote (addrBytes a ++ [v]) wrote :: .wrote (addrBytes a) addressed :: .got 1 b :: ts)

/-- The registers of the table that read back something else, as the transfers show. -/
def disagreements : List (BitVec 16 × Byte) → List Transfer → List (BitVec 16)
  | (a, v) :: table, _ :: _ :: .got _ b :: ts => (if b ≠ v then [a] else []) ++ disagreements table ts
  | _, _ => []

theorem close_closed (c : I2c δ) : c.close.mDevFd ≤ 0 := by
  unfold close
  split_ifs with h
  · exact Int.negSucc_le_zero 0
  · omega

/-- The whole table was written and read back, or the device is closed. -/
theorem configureLoop_cases (table : List (BitVec 16 × Byte)) (c : I2c δ) :
    ((configureLoop bus true retVal table c).1 = false ∧ (configureLoop bus true retVal table c).2.mDevFd ≤ 0) ∨
      ∃ ts, (configureLoop bus true retVal table c).1 = true ∧ Configured table ts ∧
        (configureLoop bus true retVal table c).2.transfers = c.transfers ++ ts ∧
        (configureLoop bus true retVal table c).2.disagreed = c.disagreed ++ disagreements table ts ∧
        (configureLoop bus true retVal table c).2.mDevFd = c.mDevFd := by
  induction table generalizing c with
  | nil => exact .inr ⟨[], rfl, .nil, (List.append_nil _).symm, (List.append_nil _).symm, rfl⟩
  | cons r table ih =>
    obtain ⟨a, v⟩ := r
    rw [configureLoop]
    simp only [if_true]
    rcases writeReg_cases bus c a v with ⟨hneg, -⟩ | ⟨wrote, hw, hnn, hafter⟩
    · left
      rw [if_pos hneg]
      exact ⟨rfl, close_closed _⟩
    rw [if_neg hnn]
    rcases readReg_cases bus (c.writeReg bus a v).2 a retVal with hneg | ⟨addressed, b, ha, hread, hafter'⟩
    · left
      rw [if_pos hneg]
      exact ⟨rfl, close_closed _⟩
    have hok : ¬ ((c.writeReg bus a v).2.readReg bus a retVal).1.1 < 0 := by
      rw [hread]
      exact Int.not_lt.2 Int.one_nonneg
    rw [if_neg hok]
    have hboth := hafter.trans hafter'
    rcases ih { ((c.writeReg bus a v).2.readReg bus a retVal).2 with
      disagreed := if ((c.writeReg bus a v).2.readReg bus a retVal).1.2 ≠ v then
        ((c.writeReg bus a v).2.readReg bus a retVal).2.disagreed ++ [a]
        else ((c.writeReg bus a v).2.readReg bus a retVal).2.disagreed } with hfail | ⟨ts, hok, hts, htr, hdis, hfd⟩
    · exact .inl hfail
    · right
      refine ⟨.wrote (addrBytes a ++ [v]) wrote :: .wrote (addrBytes a) addressed :: .got 1 b :: ts, hok,
        .cons hw ha hts, ?_, ?_, hfd.trans hboth.mDevFd⟩
      · rw [htr]
        simp [hboth.transfers]
      · rw [hdis]
        simp only [hread, hboth.disagreed]
        split_ifs <;> simp_all [disagreements]

/-- The transfers of the chip id: both of its bytes came, and they are right. -/
def ChipIdRead (ts : List Transfer) : Prop :=
  ∃ r₁ r₂, 0 ≤ r₁ ∧ 0 ≤ r₂ ∧ ts = [.wrote (addrBytes cChipIdAddr) r₁, .got 1 cChipIdMsb,
    .wrote (addrBytes (cChipIdAddr + 1)) r₂, .got 1 cChipIdLsb]

/-- A chip id that passes both tests was read completely. -/
theorem chipId_cases {c : I2c δ} (hnn : ¬ (c.readRegs bus cChipIdAddr [0, 0]).1.1 < 0)
    (hid : ¬ ((c.readRegs bus cChipIdAddr [0, 0]).1.2.getD 0 0 ≠ cChipIdMsb ∨
      (c.readRegs bus cChipIdAddr [0, 0]).1.2.getD 1 0 ≠ cChipIdLsb)) :
    ∃ ts, ChipIdRead ts ∧ After c (c.readRegs bus cChipIdAddr [0, 0]).2 ts := by
  unfold readRegs at hnn hid ⊢
  by_cases hfd : c.mDevFd ≤ 0
  · rw [if_pos hfd] at hnn
    exact absurd (Int.negSucc_lt_zero 0) hnn
  rw [if_neg hfd] at hnn hid ⊢
  rw [show ([0, 0] : List Byte).length = 1 + 1 from rfl] at hnn hid ⊢
  rcases readLoop_succ bus cChipIdAddr 1 0 0 [0, 0] c with
    ⟨hneg, -⟩ | ⟨r₁, got₁, b₁, c₁, hr₁, hgot₁, hpos₁, hafter₁, heq₁⟩
  · exact absurd hneg hnn
  obtain rfl : got₁ = 1 := by omega
  rw [heq₁] at hnn hid ⊢
  rcases readLoop_succ bus cChipIdAddr 0 1 (0 + 1) [b₁, 0] c₁ with
    ⟨hneg, -⟩ | ⟨r₂, got₂, b₂, c₂, hr₂, hgot₂, hpos₂, hafter₂, heq₂⟩
  · exact absurd hneg hnn
  have hsecond : readLoop bus cChipIdAddr 1 1 (0 + 1) [b₁, 0] c₁ =
      ((0 + 1 + got₂, if got₂ = 1 then [b₁, b₂] else [b₁, 0]), c₂) := heq₂
  have hfirst : (if (1 : Int) = 1 then ([0, 0] : List Byte).set 0 b₁ else [0, 0]) = [b₁, 0] := rfl
  rw [hfirst, hsecond] at hid ⊢
  -- the second byte is zero unless its read got it
  have hgot : got₂ = 1 := by
    rcases hgot₂ with h | h | h
    · exact h
    · rw [h] at hid
      exact absurd (.inr (show (0 : Byte) ≠ cChipIdLsb by decide)) hid
    · omega
  subst hgot
  simp only [if_true, not_or, not_not] at hid
  obtain ⟨rfl, rfl⟩ : b₁ = cChipIdMsb ∧ b₂ = cChipIdLsb := hid
  exact ⟨_, ⟨r₁, r₂, hr₁, hr₂, rfl⟩, hafter₁.trans hafter₂⟩

/-- What a successful `init` did on the bus: the right chip id was read, and then every register of the table written and
read back in its order; of the reset between them the result is not looked at. -/
def SetUp (c c' : I2c δ) (table : List (BitVec 16 × Byte)) : Prop :=
  ∃ ids reset ts, ChipIdRead ids ∧ Configured table ts ∧
    c'.transfers = c.transfers ++ ids ++ [.wrote (addrBytes cSysCtrlAddr ++ [0x82]) reset] ++ ts ∧
    c'.disagreed = c.disagreed ++ disagreements table ts

/-- A device that is open is reset, with any result. -/
theorem after_reset (bus : Bus δ) {c : I2c δ} (h : 0 < c.mDevFd) :
    ∃ ret, After c (reset bus c).2 [.wrote (addrBytes cSysCtrlAddr ++ [0x82]) ret] := by
  unfold reset I2c.isOpen
  rw [if_pos (decide_eq_true h)]
  unfold writeReg
  rw [if_neg (by omega)]
  exact ⟨_, after_write bus h _⟩

theorem openDevice_cases (c : I2c δ) (opened ioctl : Int) :
    ((c.openDevice opened ioctl).1 < 0 ∧ (c.openDevice opened ioctl).2.mDevFd ≤ 0) ∨
      ¬ (c.openDevice opened ioctl).1 < 0 ∧ (c.openDevice opened ioctl).2 = { c with mDevFd := opened } := by
  unfold openDevice
  simp only
  by_cases hopen : opened < 0
  · left
    rw [if_pos hopen]
    exact ⟨Int.negSucc_lt_zero 0, le_of_lt hopen⟩
  rw [if_neg hopen]
  by_cases hioctl : ioctl < 0
  · left
    rw [if_pos hioctl]
    exact ⟨Int.negSucc_lt_zero 0, close_closed _⟩
  · right
    rw [if_neg hioctl]
    exact ⟨hopen, rfl⟩

/-- The two ends of `init` on a known mode. -/
theorem init_cases (bus : Bus δ) (modeTable : Nat → List (BitVec 16 × Byte)) (retVal : Byte) (c : I2c δ) {mode : Nat}
    (opened ioctl : Int) (hmode : mode < ov5642ModeNonexisting) :
    ((init bus modeTable c mode opened ioctl retVal).1 = false ∧
        (init bus modeTable c mode opened ioctl retVal).2.mDevFd ≤ 0) ∨
      ((init bus modeTable c mode opened ioctl retVal).1 = true ∧
        0 < (init bus modeTable c mode opened ioctl retVal).2.mDevFd ∧
        SetUp c (init bus modeTable c mode opened ioctl retVal).2 (modeTable mode)) := by
  unfold init
  rw [if_neg (Nat.not_le.2 hmode)]
  simp only
  rcases openDevice_cases c opened ioctl with ⟨hneg, hfd⟩ | ⟨hnn, ho⟩
  · left
    rw [if_pos hneg]
    exact ⟨rfl, hfd⟩
  rw [if_neg hnn, ho]
  by_cases hread : (readRegs bus { c with mDevFd := opened } cChipIdAddr [0, 0]).1.1 < 0
  · left
    rw [if_pos hread]
    exact ⟨rfl, close_closed _⟩
  rw [if_neg hread]
  by_cases hid : (readRegs bus { c with mDevFd := opened } cChipIdAddr [0, 0]).1.2.getD 0 0 ≠ cChipIdMsb ∨
      (readRegs bus { c with mDevFd := opened } cChipIdAddr [0, 0]).1.2.getD 1 0 ≠ cChipIdLsb
  · left
    rw [if_pos hid]
    exact ⟨rfl, close_closed _⟩
  rw [if_neg hid]
  obtain ⟨ids, hids, hafter⟩ := chipId_cases hread hid
  have hopen : 0 < (readRegs bus { c with mDevFd := opened } cChipIdAddr [0, 0]).2.mDevFd := by
    rw [hafter.mDevFd]
    by_contra hle
    apply hread
    unfold readRegs
    rw [if_pos (not_lt.1 hle)]
    exact Int.negSucc_lt_zero 0
  obtain ⟨ret, hreset⟩ := after_reset bus hopen
  have hboth := hafter.trans hreset
  unfold configure
  rw [if_neg (Nat.not_le.2 hmode)]
  rcases configureLoop_cases (modeTable mode)
      (reset bus (readRegs bus { c with mDevFd := opened } cChipIdAddr [0, 0]).2).2 with hfail | ⟨ts, hok, hts, htr, hdis, hfd⟩
  · exact .inl hfail
  · right
    refine ⟨hok, ?_, ids, ret, ts, hids, hts, ?_, ?_⟩
    · rw [hfd, hreset.mDevFd]
      exact hopen
    · rw [htr, hboth.transfers]
      simp only [List.append_assoc]
    · rw [hdis, hboth.disagreed]

/-- Over every bus, a run of `init` on a known mode returns true exactly if it leaves the device open, and then the sensor
was set up: right chip id, and every register of the table written and read back without a failed transfer. -/
theorem init_true_iff_open (bus : Bus δ) (modeTable : Nat → List (BitVec 16 × Byte)) (retVal : Byte) (c : I2c δ)
    {mode : Nat} (opened ioctl : Int) (hmode : mode < ov5642ModeNonexisting) :
    ((init bus modeTable c mode opened ioctl retVal).1 = true ↔
        (init bus modeTable c mode opened ioctl retVal).2.isOpen = true) ∧
      ((init bus modeTable c mode opened ioctl retVal).1 = true →
        SetUp c (init bus modeTable c mode opened ioctl retVal).2 (modeTable mode)) := by
  unfold I2c.isOpen
  rcases init_cases bus modeTable retVal c opened ioctl hmode with ⟨hres, hfd⟩ | ⟨hres, hfd, hset⟩
  · rw [hres]
    exact ⟨⟨fun h => absurd h Bool.false_ne_true, fun h => absurd (of_decide_eq_true h) (not_lt.2 hfd)⟩,
      fun h => absurd h Bool.false_ne_true⟩
  · exact ⟨⟨fun _ => decide_eq_true hfd, fun _ => hres⟩, fun _ => hset⟩

/-- A sensor that only stores its registers, with the address of the last transfer. -/
def memoryBus : Bus ((BitVec 16 → Byte) × BitVec 16) where
  write d bytes :=
    match bytes with
    | [hi, lo, v] => (3, (Function.update d.1 (hi ++ lo) v, hi ++ lo))
    | [hi, lo] => (2, (d.1, hi ++ lo))
    | _ => (-1, d)
  read d := ((1, d.1 d.2), d)
  read_range _ := .inl rfl

/-- A device on which nothing was done, with a chip id. -/
def freshDevice : I2c ((BitVec 16 → Byte) × BitVec 16) :=
  ⟨-1, (fun a => if a = 0x300A then 0x56 else if a = 0x300B then 0x42 else 0, 0), [], []⟩

theorem init_true_iff_open_fresh :
    ((init memoryBus (fun _ => [(0x3103, 0x93)]) freshDevice 1 3 0 0).1 = true ↔
        (init memoryBus (fun _ => [(0x3103, 0x93)]) freshDevice 1 3 0 0).2.isOpen = true) ∧
      ((init memoryBus (fun _ => [(0x3103, 0x93)]) freshDevice 1 3 0 0).1 = true →
        SetUp freshDevice (init memoryBus (fun _ => [(0x3103, 0x93)]) freshDevice 1 3 0 0).2 [(0x3103, 0x93)]) :=
  init_true_iff_open memoryBus (fun _ => [(0x3103, 0x93)]) 0 freshDevice 3 0 (by decide)

/-! ### Setting up a sensor that answers -/

/-- A bus that takes every transfer, with a sensor behind it that sets a register when one is written and gives out the
register that was addressed last; `set` may do more than store the value. -/
structure Answers {σ : Type*} (bus : Bus δ) (view : δ → σ) (get : σ → BitVec 16 → Byte)
    (set : σ → BitVec 16 → Byte → σ) : Prop where
  write : ∀ d a v, 0 ≤ (bus.write d (addrBytes a ++ [v])).1 ∧ view (bus.write d (addrBytes a ++ [v])).2 = set (view d) a v
  address : ∀ d a, 0 ≤ (bus.write d (addrBytes a)).1 ∧ view (bus.write d (addrBytes a)).2 = view d
  read : ∀ d a, (bus.read (bus.write d (addrBytes a)).2).1 = (1, get (view d) a) ∧
    view (bus.read (bus.write d (addrBytes a)).2).2 = view d

section Sensor

variable {σ : Type*} {view : δ → σ} {get : σ → BitVec 16 → Byte} {set : σ → BitVec 16 → Byte → σ}

/-- The sensor behind a table. -/
def written (set : σ → BitVec 16 → Byte → σ) (table : List (BitVec 16 × Byte)) (s : σ) : σ :=
  table.foldl (fun s r => set s r.1 r.2) s

/-- The registers of a table that do not hold what was just written. -/
def notHeld (get : σ → BitVec 16 → Byte) (set : σ → BitVec 16 → Byte → σ) : List (BitVec 16 × Byte) → σ → List (BitVec 16)
  | [], _ => []
  | (a, v) :: table, s => (if get (set s a v) a ≠ v then [a] else []) ++ notHeld get set table (set s a v)

theorem writeReg_answers (h : Answers bus view get set) {c : I2c δ} (hfd : 0 < c.mDevFd) (a : BitVec 16) (v : Byte) :
    ¬ (c.writeReg bus a v).1 < 0 ∧ view (c.writeReg bus a v).2.dev = set (view c.dev) a v ∧
      (c.writeReg bus a v).2.mDevFd = c.mDevFd ∧ (c.writeReg bus a v).2.disagreed = c.disagreed := by
  obtain ⟨hret, hview⟩ := h.write c.dev a v
  unfold writeReg
  rw [if_neg (by omega), write_open bus hfd]
  refine ⟨?_, hview, rfl, rfl⟩
  show ¬ (if _ then _ else _) < (0 : Int)
  rw [if_neg (by omega)]
  omega

/-- A turn of the loop reads the register. -/
theorem readLoop_answers (h : Answers bus view get set) {c : I2c δ} (hfd : 0 < c.mDevFd) (a : BitVec 16) (left i : Nat)
    {bytes : Int} (hbytes : 0 ≤ bytes) (data : List Byte) :
    ∃ c', readLoop bus a (left + 1) i bytes data c = readLoop bus a left (i + 1) (bytes + 1)
        (data.set i (get (view c.dev) (a + BitVec.ofNat 16 i))) c' ∧
      view c'.dev = view c.dev ∧ c'.mDevFd = c.mDevFd ∧ c'.disagreed = c.disagreed := by
  obtain ⟨hret, -⟩ := h.address c.dev (a + BitVec.ofNat 16 i)
  obtain ⟨hgot, hview⟩ := h.read c.dev (a + BitVec.ofNat 16 i)
  have hwrite := write_open bus hfd (addrBytes (a + BitVec.ofNat 16 i))
  have hnn : ¬ (if (bus.write c.dev (addrBytes (a + BitVec.ofNat 16 i))).1 < 0 then -1
      else (bus.write c.dev (addrBytes (a + BitVec.ofNat 16 i))).1) < 0 := by
    rw [if_neg (by omega)]
    omega
  rw [readLoop]
  simp only
  rw [hwrite, if_neg hnn]
  simp only [readByte, hgot, if_true]
  rw [if_neg (by omega)]
  exact ⟨_, rfl, hview, rfl, rfl⟩

theorem readReg_answers (h : Answers bus view get set) {c : I2c δ} (hfd : 0 < c.mDevFd) (a : BitVec 16) (d : Byte) :
    (c.readReg bus a d).1 = (1, get (view c.dev) a) ∧ view (c.readReg bus a d).2.dev = view c.dev ∧
      (c.readReg bus a d).2.mDevFd = c.mDevFd ∧ (c.readReg bus a d).2.disagreed = c.disagreed := by
  obtain ⟨c', heq, hrest⟩ := readLoop_answers h hfd a 0 0 (le_refl 0) [0]
  have hregs : c.readRegs bus a [0] = ((1, [get (view c.dev) a]), c') := by
    unfold readRegs
    rw [if_neg (by omega), List.length_singleton, heq, BitVec.add_zero]
    rfl
  unfold readReg
  simp only
  rw [hregs, if_neg (show ¬ (1 : Int) < 0 by decide)]
  exact ⟨rfl, hrest⟩

theorem configureLoop_answers (retVal : Byte) (h : Answers bus view get set) (table : List (BitVec 16 × Byte)) {c : I2c δ}
    (hfd : 0 < c.mDevFd) : (configureLoop bus true retVal table c).1 = true ∧
      view (configureLoop bus true retVal table c).2.dev = written set table (view c.dev) ∧
      (configureLoop bus true retVal table c).2.disagreed = c.disagreed ++ notHeld get set table (view c.dev) := by
  induction table generalizing c with
  | nil => exact ⟨rfl, rfl, (List.append_nil _).symm⟩
  | cons r table ih =>
    obtain ⟨a, v⟩ := r
    obtain ⟨hok, hview, hfd', hdis⟩ := writeReg_answers h hfd a v
    obtain ⟨hread, hview', hfd'', hdis'⟩ := readReg_answers h (show 0 < (c.writeReg bus a v).2.mDevFd by omega) a retVal
    rw [configureLoop]
    simp only [if_true]
    rw [if_neg hok, hread, if_neg (show ¬ (1 : Int) < 0 by decide)]
    obtain ⟨hres, hlast, hdisl⟩ := ih (c := { ((c.writeReg bus a v).2.readReg bus a retVal).2 with
      disagreed := if get (view (c.writeReg bus a v).2.dev) a ≠ v then
        ((c.writeReg bus a v).2.readReg bus a retVal).2.disagreed ++ [a]
        else ((c.writeReg bus a v).2.readReg bus a retVal).2.disagreed }) (by rw [hfd'', hfd']; exact hfd)
    refine ⟨hres, ?_, ?_⟩
    · rw [hlast, hview', hview]
      rfl
    · rw [hdisl, hview', hdis', hdis, hview, notHeld]
      split_ifs <;> simp

/-- With a sensor that answers, on a device that can be opened, `init` of a known mode returns true exactly if the chip id is
right.  The sensor is then what the reset and after it the table of the mode make of it, and the registers reported are those
that do not hold what was written. -/
theorem init_sensor (h : Answers bus view get set) (modeTable : Nat → List (BitVec 16 × Byte)) (retVal : Byte) (c : I2c δ)
    {mode : Nat} {opened ioctl : Int} (hmode : mode < ov5642ModeNonexisting) (hopen : 0 < opened) (hioctl : 0 ≤ ioctl) :
    ((init bus modeTable c mode opened ioctl retVal).1 = true ↔
        get (view c.dev) 0x300A = 0x56 ∧ get (view c.dev) 0x300B = 0x42) ∧
      ((init bus modeTable c mode opened ioctl retVal).1 = true →
        view (init bus modeTable c mode opened ioctl retVal).2.dev =
            written set (modeTable mode) (set (view c.dev) 0x3008 0x82) ∧
          (init bus modeTable c mode opened ioctl retVal).2.disagreed =
            c.disagreed ++ notHeld get set (modeTable mode) (set (view c.dev) 0x3008 0x82)) := by
  have ho : c.openDevice opened ioctl = (opened, { c with mDevFd := opened }) := by
    unfold openDevice
    simp only
    rw [if_neg (by omega), if_neg (by omega)]
  obtain ⟨c₁, heq₁, hview₁, hfd₁, hdis₁⟩ :=
    readLoop_answers (c := { c with mDevFd := opened }) h hopen cChipIdAddr 1 0 (le_refl 0) [0, 0]
  obtain ⟨c₂, heq₂, hview₂, hfd₂, hdis₂⟩ :=
    readLoop_answers (c := c₁) h (by rw [hfd₁]; exact hopen) cChipIdAddr 0 1 (show 0 ≤ 0 + 1 by decide)
      ([0, 0].set 0 (get (view c.dev) (cChipIdAddr + BitVec.ofNat 16 0)))
  rw [hview₁] at heq₂ hview₂
  have hid : readRegs bus { c with mDevFd := opened } cChipIdAddr [0, 0] =
      ((2, [get (view c.dev) 0x300A, get (view c.dev) 0x300B]), c₂) := by
    unfold readRegs
    rw [if_neg (not_le.2 hopen)]
    exact heq₁.trans heq₂
  have hopen₂ : 0 < c₂.mDevFd := by
    rw [hfd₂, hfd₁]
    exact hopen
  obtain ⟨-, hview₃, hfd₃, hdis₃⟩ := writeReg_answers h hopen₂ cSysCtrlAddr (cSysCtrlSwRst ||| cSysCtrlRsvd)
  have hreset : (reset bus c₂).2 = (c₂.writeReg bus cSysCtrlAddr (cSysCtrlSwRst ||| cSysCtrlRsvd)).2 := by
    unfold reset I2c.isOpen
    rw [if_pos (decide_eq_true hopen₂)]
  obtain ⟨hres, hlast, hdisl⟩ := configureLoop_answers retVal h (modeTable mode)
    (show 0 < (reset bus c₂).2.mDevFd by rw [hreset, hfd₃]; exact hopen₂)
  unfold init
  rw [if_neg (Nat.not_le.2 hmode), ho]
  simp only
  rw [if_neg (by omega), hid, if_neg (show ¬ (2 : Int) < 0 by decide)]
  simp only [List.getD_cons_zero, List.getD_cons_succ]
  by_cases hne : get (view c.dev) 0x300A ≠ cChipIdMsb ∨ get (view c.dev) 0x300B ≠ cChipIdLsb
  · rw [if_pos hne]
    refine ⟨⟨fun hf => absurd hf Bool.false_ne_true, ?_⟩, fun hf => absurd hf Bool.false_ne_true⟩
    rintro ⟨hmsb, hlsb⟩
    rcases hne with hne | hne
    · exact absurd hmsb hne
    · exact absurd hlsb hne
  · rw [if_neg hne]
    simp only [not_or, not_not] at hne
    unfold configure
    rw [if_neg (Nat.not_le.2 hmode)]
    refine ⟨⟨fun _ => hne, fun _ => hres⟩, fun _ => ⟨?_, ?_⟩⟩
    · rw [hlast, hreset, hview₃, hview₂]
      rfl
    · rw [hdisl, hreset, hdis₃, hview₃, hview₂, hdis₂, hdis₁]
      rfl

theorem addrBytes_append (a : BitVec 16) : a.extractLsb' 8 8 ++ a.extractLsb' 0 8 = a := by
  rw [BitVec.extractLsb'_append_extractLsb'_eq_extractLsb' (by omega)]
  exact BitVec.extractLsb'_eq_self

theorem memoryBus_answers : Answers memoryBus Prod.fst (fun s a => s a) Function.update where
  write d a v := by
    refine ⟨show (0 : Int) ≤ 3 by decide, ?_⟩
    show Function.update d.1 (a.extractLsb' 8 8 ++ a.extractLsb' 0 8) v = _
    rw [addrBytes_append]
  address d a := ⟨show (0 : Int) ≤ 2 by decide, rfl⟩
  read d a := by
    refine ⟨?_, rfl⟩
    show (1, d.1 (a.extractLsb' 8 8 ++ a.extractLsb' 0 8)) = _
    rw [addrBytes_append]

theorem init_sensor_fresh :
    (init memoryBus (fun _ => [(0x3103, 0x93)]) freshDevice 1 3 0 0).1 = true ∧
      (init memoryBus (fun _ => [(0x3103, 0x93)]) freshDevice 1 3 0 0).2.dev.1 =
        written Function.update [(0x3103, 0x93)] (Function.update freshDevice.dev.1 0x3008 0x82) := by
  obtain ⟨hiff, hlast⟩ :=
    init_sensor memoryBus_answers (fun _ => [(0x3103, 0x93)]) 0 freshDevice (show 1 < 3 by decide) (show (0 : Int) < 3 by decide)
      (le_refl 0)
  have hok := hiff.2 ⟨rfl, rfl⟩
  exact ⟨hok, (hlast hok).1⟩

end Sensor

end Ov5642Ctrl

end RcCarControl.Daemon
