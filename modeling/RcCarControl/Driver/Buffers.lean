import Mathlib.Algebra.Ring.Nat
import RcCarControl.Driver.RxCtrl
import RcCarControl.Lib.Runs
import Mathlib.Data.List.FinRange
import Mathlib.Logic.Function.Basic

/-!
# The buffer slots of the camera driver

`vect_bufs` of `linux/xilinx-rcc-cam.c` with the three calls that change it: `xrcc_cam_buffer_queue`,
`xrcc_cam_irq_handler` and `xrcc_cam_stop_streaming`.  A call that never comes back (it spins on a lock that nobody
releases) or that dereferences a null pointer has no result.

`Capture` adds what videobuf2 knows (the buffers that exist, how often each was queued and given back) and its
promises to the driver; `Capture.step` is one call.
-/

namespace RcCarControl.Driver

/-- `xrcc_cam_buf_t`.  The pointer `buf` is the number videobuf2 gave the buffer, `none` is the null pointer. -/
structure XrccCamBuf where
  buf : Option Nat
  addr : U32
  registered : Bool
deriving DecidableEq

def XrccCamBuf.empty : XrccCamBuf := ⟨none, 0, false⟩

/-- The members of `xrcc_cam_dev_t` that the calls read or write, for `n = num_frm_bufs`. -/
structure XrccCamDev (n : Nat) where
  vectBufs : Fin n → XrccCamBuf
  queuedLock : Bool
  sequence : U32
  frameCnt : BitVec 16
  videoCtrlMem : Bool
  vdmaCtrlMem : Bool

/-- Why a call has no result. -/
inductive Fault where
  /-- It waits for ever for a spin lock that is never released. -/
  | spins
  | nullPointer
deriving DecidableEq

/-- The state argument of `vb2_buffer_done`; a finished frame carries the `sequence` written to the buffer. -/
inductive BufState where
  | done (sequence : U32)
  | error
deriving DecidableEq

/-- The `vb2_buffer_done` calls of one driver call, in order. -/
abbrev Returned := List (Nat × BufState)

variable {n : Nat}

/-- `spin_lock_irq` and `spin_lock` on `queued_lock`. -/
def spinLock (dev : XrccCamDev n) : Except Fault (XrccCamDev n) :=
  if dev.queuedLock then .error .spins else .ok { dev with queuedLock := true }

def spinUnlock (dev : XrccCamDev n) : XrccCamDev n := { dev with queuedLock := false }

def setSlot (dev : XrccCamDev n) (idx : Fin n) (slot : XrccCamBuf) : XrccCamDev n :=
  { dev with vectBufs := Function.update dev.vectBufs idx slot }

/-- The slot the search loop of `xrcc_cam_buffer_queue` stops at: the first one without a buffer or with this
address. -/
def findSlot (dev : XrccCamDev n) (addr : U32) : Option (Fin n) :=
  (List.finRange n).find? fun idx => (dev.vectBufs idx).buf = none ∨ (dev.vectBufs idx).addr = addr

def xrccCamBufferQueue (dev : XrccCamDev n) (vbuf : Nat) (addr : U32) : Except Fault (XrccCamDev n) := do
  let dev ← spinLock dev
  match findSlot dev addr with
  | none => return dev -- "Too many buffers?": returns without the unlock, which is commented out
  | some idx => return spinUnlock (setSlot dev idx ⟨some vbuf, addr, true⟩)

/-- The slot that `xrcc_cam_irq_handler` takes from the value of RX_CTRL. -/
def irqIdx [NeZero n] (rxCtrlReg : U32) : Fin n :=
  Fin.ofNat n (videoCtrlGetIdx rxCtrlReg (BitVec.ofNat 32 n)).toNat

/-- `xrcc_cam_irq_handler` for the value read from RX_CTRL: the device, the buffers given back and the value written
back to RX_CTRL, if any. -/
def xrccCamIrqHandler [NeZero n] (dev : XrccCamDev n) (rxCtrlReg : U32) :
    Except Fault (XrccCamDev n × Returned × Option U32) := do
  if !dev.videoCtrlMem || !dev.vdmaCtrlMem then
    return (dev, [], none)
  let idx := irqIdx rxCtrlReg
  let dev ← spinLock dev
  let dev := { dev with frameCnt := dev.frameCnt + 1 }
  let slot := dev.vectBufs idx
  if slot.registered then
    match slot.buf with
    | none => throw .nullPointer
    | some vbuf =>
      let dev' := { setSlot dev idx { slot with registered := false } with sequence := dev.sequence + 1 }
      return (spinUnlock dev', [(vbuf, .done dev.sequence)], some rxCtrlReg)
  else
    return (spinUnlock dev, [], some rxCtrlReg)

def stopSlot (dev : XrccCamDev n) (i : Fin n) : Except Fault (XrccCamDev n × Returned) := do
  let dev ← spinLock dev
  let slot := dev.vectBufs i
  match slot.buf with
  | some vbuf =>
    if slot.addr ≠ 0 ∧ slot.registered then
      return (spinUnlock (setSlot dev i .empty), [(vbuf, .error)])
    else
      return (spinUnlock dev, [])
  | none => return (spinUnlock dev, [])

/-- The loop of `xrcc_cam_stop_streaming` over the slots `is`. -/
def stopSlots (dev : XrccCamDev n) : List (Fin n) → Except Fault (XrccCamDev n × Returned)
  | [] => .ok (dev, [])
  | i :: is => do
    let (dev, d) ← stopSlot dev i
    let (dev, ds) ← stopSlots dev is
    return (dev, d ++ ds)

/-- `xrcc_cam_stop_streaming`, as far as the buffers go. -/
def xrccCamStopStreaming (dev : XrccCamDev n) : Except Fault (XrccCamDev n × Returned) :=
  stopSlots dev (List.finRange n)

/-! ### The driver under videobuf2 -/

/-- The calls of a run, and the changes of the set of buffers between them. -/
inductive Call where
  | alloc (addr : U32)
  | free (vbuf : Nat)
  | queue (vbuf : Nat) (addr : U32)
  | irq (rxCtrlReg : U32)
  | stop
deriving DecidableEq

/-- The driver and what videobuf2 knows about its buffers. -/
structure Capture (n : Nat) where
  dev : XrccCamDev n
  /-- The buffers that exist, with their DMA addresses. -/
  live : List (Nat × U32)
  /-- No buffer with this number or a larger one existed so far. -/
  next : Nat
  /-- No buffer was queued since the last `stop_streaming` (or since the start). -/
  idle : Bool
  /-- How often each buffer was queued. -/
  queued : Nat → Nat
  /-- How often each buffer was given back with `vb2_buffer_done`. -/
  returned : Nat → Nat

/-- The device after a successful probe, before the first buffer exists. -/
def Capture.probed (n : Nat) : Capture n where
  dev := ⟨fun _ => .empty, false, 0, 0, true, true⟩
  live := []
  next := 0
  idle := true
  queued := fun _ => 0
  returned := fun _ => 0

/-- What videobuf2 promises: at most `n` buffers with distinct non-zero addresses, freed only between sessions, and
none queued again before it was given back. -/
def Capture.Allowed (c : Capture n) : Call → Prop
  | .alloc addr => c.live.length < n ∧ addr ≠ 0 ∧ addr ∉ c.live.map Prod.snd
  | .free _ => c.idle
  | .queue vbuf addr => (vbuf, addr) ∈ c.live ∧ c.queued vbuf = c.returned vbuf
  | .irq _ => True
  | .stop => True

instance (c : Capture n) : (e : Call) → Decidable (c.Allowed e)
  | .alloc addr => inferInstanceAs (Decidable (c.live.length < n ∧ addr ≠ 0 ∧ addr ∉ c.live.map Prod.snd))
  | .free _ => inferInstanceAs (Decidable (c.idle = true))
  | .queue vbuf addr => inferInstanceAs (Decidable ((vbuf, addr) ∈ c.live ∧ c.queued vbuf = c.returned vbuf))
  | .irq _ => inferInstanceAs (Decidable True)
  | .stop => inferInstanceAs (Decidable True)

def Capture.giveBack (c : Capture n) (dev : XrccCamDev n) (ds : Returned) : Capture n :=
  { c with dev := dev, returned := fun b => c.returned b + (ds.map Prod.fst).count b }

def Capture.call [NeZero n] (c : Capture n) : Call → Except Fault (Capture n)
  | .alloc addr => .ok { c with live := (c.next, addr) :: c.live, next := c.next + 1 }
  | .free vbuf => .ok { c with live := c.live.filter fun b => b.1 ≠ vbuf }
  | .queue vbuf addr => do
    let dev ← xrccCamBufferQueue c.dev vbuf addr
    return { c with dev := dev, idle := false, queued := Function.update c.queued vbuf (c.queued vbuf + 1) }
  | .irq rxCtrlReg => do
    let (dev, ds, _) ← xrccCamIrqHandler c.dev rxCtrlReg
    return c.giveBack dev ds
  | .stop => do
    let (dev, ds) ← xrccCamStopStreaming c.dev
    return { c.giveBack dev ds with idle := true }

/-- One step of a run: a call that videobuf2 makes and that comes back. -/
def Capture.step [NeZero n] (c : Capture n) (e : Call) : Option (Capture n) :=
  if c.Allowed e then (c.call e).toOption else none

end RcCarControl.Driver
