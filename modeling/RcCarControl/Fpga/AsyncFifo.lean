import RcCarControl.Lib.Gray
import Mathlib.Logic.Function.Basic
import Mathlib.Data.List.Basic

/-!
# `async_fifo`

The FIFO of `fpga/rtl/async_fifo.v` for any data and address width: dual-port memory, Gray counters on both sides, the
direction latch `Status`, the full and empty flags with their asynchronous presets, and the word count of the read
side.  `AsyncFifo.clock` is an instant at which one of the two clocks rises, or both; all registers of that instant
take the values from before it, and then the latch and the presets follow.  `Clear_in` is low.
-/

namespace RcCarControl.Fpga

/-- `GrayCounter`. -/
structure GrayCounter (n : Nat) where
  grayCountOut : BitVec n
  binaryCount : BitVec n

/-- After a clock with `Clear_in` high: the Gray count is one behind the binary one. -/
def GrayCounter.clear (n : Nat) : GrayCounter n := ⟨0, 1⟩

def GrayCounter.clock {n : Nat} (c : GrayCounter n) (enableIn : Bool) : GrayCounter n :=
  if enableIn then ⟨Gray.encode c.binaryCount, c.binaryCount + 1⟩ else c

/-- `GrayToBin`: the top bit is copied, every other bit is the code's bit xor the bit above. -/
def grayToBin {n : Nat} (grayIn : BitVec n) : BitVec n := Gray.decode grayIn

structure AsyncFifo (dw aw : Nat) where
  dataOut : BitVec dw
  emptyOut : Bool
  fullOut : Bool
  mem : BitVec aw → BitVec dw
  pWr : GrayCounter aw
  pRd : GrayCounter aw
  status : Bool
  syncWritePtrGray : BitVec aw
  readPtrGray : BitVec aw
  readWordCountOut : BitVec aw

namespace AsyncFifo

variable {dw aw : Nat} (f : AsyncFifo dw aw)

/-- The state in which `Clear_in` leaves the FIFO; the memory and the output register are not cleared. -/
def cleared (mem : BitVec aw → BitVec dw) (dataOut : BitVec dw) : AsyncFifo dw aw where
  dataOut := dataOut
  emptyOut := true
  fullOut := false
  mem := mem
  pWr := .clear aw
  pRd := .clear aw
  status := false
  syncWritePtrGray := 0
  readPtrGray := 0
  readWordCountOut := 0

/-! ### Wires -/

def pNextWordToWrite : BitVec aw := f.pWr.grayCountOut

def pNextWordToRead : BitVec aw := f.pRd.grayCountOut

def equalAddresses : Bool := f.pNextWordToWrite == f.pNextWordToRead

def setStatus : Bool :=
  (f.pNextWordToWrite.getLsbD (aw - 2) == f.pNextWordToRead.getLsbD (aw - 1)) &&
    (f.pNextWordToWrite.getLsbD (aw - 1) ^^ f.pNextWordToRead.getLsbD (aw - 2))

def rstStatus : Bool :=
  (f.pNextWordToWrite.getLsbD (aw - 2) ^^ f.pNextWordToRead.getLsbD (aw - 1)) &&
    (f.pNextWordToWrite.getLsbD (aw - 1) == f.pNextWordToRead.getLsbD (aw - 2))

def presetFull : Bool := f.status && f.equalAddresses

def presetEmpty : Bool := !f.status && f.equalAddresses

/-! ### Registers -/

/-- The `Status` latch. -/
def latchStatus : AsyncFifo dw aw :=
  { f with status := if f.rstStatus then false else if f.setStatus then true else f.status }

/-- The asynchronous presets of the two flags. -/
def preset : AsyncFifo dw aw :=
  { f with fullOut := f.fullOut || f.presetFull, emptyOut := f.emptyOut || f.presetEmpty }

/-- The write port at a rising `WClk`. -/
def clockWrite (writeEnIn : Bool) (dataIn : BitVec dw) : AsyncFifo dw aw :=
  let nextWriteAddressEn := writeEnIn && !f.fullOut
  { f with
    mem := if nextWriteAddressEn then Function.update f.mem f.pNextWordToWrite dataIn else f.mem
    pWr := f.pWr.clock nextWriteAddressEn
    fullOut := f.presetFull }

/-- The read port at a rising `RClk`; `g` is the FIFO of the same instant with the registers of the write port
written. -/
def clockRead (g : AsyncFifo dw aw) (readEnIn : Bool) : AsyncFifo dw aw :=
  let nextReadAddressEn := readEnIn && !f.emptyOut
  { g with
    dataOut := if nextReadAddressEn then f.mem f.pNextWordToRead else f.dataOut
    pRd := f.pRd.clock nextReadAddressEn
    emptyOut := f.presetEmpty
    syncWritePtrGray := f.pNextWordToWrite
    readPtrGray := f.pNextWordToRead
    readWordCountOut := grayToBin f.syncWritePtrGray - grayToBin f.readPtrGray }

/-- An instant at which `WClk` rises (with the inputs of the write port), `RClk` rises (with `ReadEn_in`), or both. -/
def clock (wclk : Option (Bool × BitVec dw)) (rclk : Option Bool) : AsyncFifo dw aw :=
  let g := match wclk with
    | none => f
    | some (writeEnIn, dataIn) => f.clockWrite writeEnIn dataIn
  let g := match rclk with
    | none => g
    | some readEnIn => f.clockRead g readEnIn
  g.latchStatus.preset

/-- The word that an instant writes: the write enable is up and the FIFO is not full. -/
def accepted (wclk : Option (Bool × BitVec dw)) : Option (BitVec dw) :=
  match wclk with
  | some (true, dataIn) => if f.fullOut then none else some dataIn
  | _ => none

/-- The instant reads a word. -/
def reads (rclk : Option Bool) : Bool := rclk == some true && !f.emptyOut

end AsyncFifo

end RcCarControl.Fpga
