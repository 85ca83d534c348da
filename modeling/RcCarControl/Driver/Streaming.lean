import RcCarControl.Driver.VideoCtrl
import RcCarControl.Driver.Buffers
import RcCarControl.Fpga.VideoCtrlAxi

/-!
# The driver, the registers and the VDMA

`xrcc_cam_start_streaming` and `vdma_ctrl_configure` of `linux/xilinx-rcc-cam.c`, and the system they set up: the driver
under videobuf2 (`Capture`), the registers of `video_ctrl_axi`, and the VDMA in circular mode.  What the VDMA is assumed
to do is `Vdma.target`: it writes frame after frame into the programmed start addresses, one after the other, and skips
only the buffer that the read pointer field of RX_CTRL names.
-/

namespace RcCarControl.Driver

open Fpga

variable {n : Nat}

/-! ### The VDMA -/

/-- The registers of the VDMA that the driver programs, and its place in the ring. -/
structure Vdma (n : Nat) where
  startAddr : Fin n → U32
  hsize : U32
  frmdlyStride : U32
  vsize : U32
  /-- It was started and not reset since. -/
  running : Bool
  /-- The slot of the next frame. -/
  next : Fin n

def vdmaCtrlReset (vdma : Vdma n) : Vdma n := { vdma with running := false }

/-- The loop of `vdma_ctrl_configure` over the slots `is`; `none` is its error exit. -/
def vdmaFill (dev : XrccCamDev n) (vdma : Vdma n) : List (Fin n) → Option (Vdma n)
  | [] => some vdma
  | i :: is =>
    if (dev.vectBufs i).buf = none ∨ (dev.vectBufs i).addr = 0 then none
    else vdmaFill dev { vdma with startAddr := Function.update vdma.startAddr i (dev.vectBufs i).addr } is

/-- `vdma_ctrl_configure`; the VDMA starts with the first slot once VSIZE is written. -/
def vdmaCtrlConfigure [NeZero n] (dev : XrccCamDev n) (vdma : Vdma n) (width height bpp : U32) : Vdma n :=
  let vdma := vdmaCtrlReset vdma
  match vdmaFill dev vdma (List.finRange n) with
  | none => vdmaCtrlReset vdma
  | some vdma =>
    { vdma with hsize := width * bpp, frmdlyStride := width * bpp, vsize := height, running := true, next := 0 }

/-- A VDMA that runs got the sizes, and starts with the first slot. -/
theorem vdmaCtrlConfigure_running [NeZero n] {dev : XrccCamDev n} {vdma : Vdma n} {width height bpp : U32}
    (h : (vdmaCtrlConfigure dev vdma width height bpp).running = true) :
    (vdmaCtrlConfigure dev vdma width height bpp).hsize = width * bpp ∧
      (vdmaCtrlConfigure dev vdma width height bpp).vsize = height ∧
      (vdmaCtrlConfigure dev vdma width height bpp).next = 0 := by
  cases hf : vdmaFill dev (vdmaCtrlReset vdma) (List.finRange n) with
  | none =>
    rw [vdmaCtrlConfigure, hf] at h
    cases h
  | some vdma' =>
    rw [vdmaCtrlConfigure, hf]
    exact ⟨rfl, rfl, rfl⟩

/-- Where the next frame goes; `named` gives the slot that a read pointer names. -/
def Vdma.target [NeZero n] (vdma : Vdma n) (named : BitVec 6 → Option (Fin n)) (ptr : BitVec 6) : Fin n :=
  if named ptr = some vdma.next then vdma.next + 1 else vdma.next

/-! ### Register accesses -/

def regAddr (reg : Nat) : BitVec 6 := BitVec.ofNat 6 (reg / 4)

/-- The inputs of the register file during a call of the driver. -/
structure BusIn where
  vdmaFramePtrI : BitVec 6
  rx : RxStatus
deriving DecidableEq

/-- All accesses of a program, one clock each. -/
def RegProg.run (bus : BusIn) : RegProg → VideoCtrlRegs → VideoCtrlRegs
  | .ret, regs => regs
  | .read reg next, regs =>
    (next (regs.read bus.vdmaFramePtrI bus.rx (regAddr reg))).run bus (regs.clock bus.vdmaFramePtrI none)
  | .write reg value next, regs => next.run bus (regs.clock bus.vdmaFramePtrI (some (regAddr reg, value)))

/-! ### The system -/

structure XrccCamFmt where
  width : U32
  height : U32
  depth : U32

def xrccCamFormats : List XrccCamFmt := [⟨640, 480, 2⟩, ⟨640, 480, 3⟩]

structure Streaming (n : Nat) where
  capture : Capture n
  vdma : Vdma n
  regs : VideoCtrlRegs
  /-- The buffers that the interrupt handler completed and that were not queued since. -/
  completed : Nat → Bool

/-- After a successful probe: the VDMA is not running and the registers are reset. -/
def Streaming.probed (n : Nat) (vdma : Vdma n) : Streaming n where
  capture := .probed n
  vdma := vdmaCtrlReset vdma
  regs := .reset
  completed := fun _ => false

/-- What happens in a run.  A dequeue changes nothing here. -/
inductive StreamEvent where
  | alloc (addr : U32)
  | free (vbuf : Nat)
  | queue (vbuf : Nat) (addr : U32)
  | start (fmtIdx : Nat) (bus : BusIn)
  | irq (bus : BusIn)
  | frame
  | stop (bus : BusIn)
deriving DecidableEq

namespace Streaming

variable [NeZero n] (named : BitVec 6 → Option (Fin n)) (s : Streaming n)

/-- `min_buffers_needed` is `num_frm_bufs`: videobuf2 starts the streaming when that many buffers are queued. -/
def AllQueued : Prop :=
  s.capture.live.length = n ∧ ∀ b ∈ s.capture.live, s.capture.queued b.1 = s.capture.returned b.1 + 1

instance : Decidable s.AllQueued := inferInstanceAs (Decidable (_ ∧ _))

def startStreaming (fmtIdx : Nat) (bus : BusIn) : Streaming n :=
  match xrccCamFormats[fmtIdx]? with
  | none => s -- "Format index out of range"
  | some fmt =>
    { s with
      capture := { s.capture with dev := { s.capture.dev with sequence := 0 } }
      vdma := vdmaCtrlConfigure s.capture.dev s.vdma fmt.width fmt.height fmt.depth
      regs := (startStreamingProg fmt.width fmt.depth).run bus s.regs }

/-- What `xrcc_cam_irq_handler` gives back and writes to RX_CTRL for the value it reads there. -/
def irqEffects (rxCtrlReg : U32) : Returned × Option U32 :=
  match xrccCamIrqHandler s.capture.dev rxCtrlReg with
  | .ok (_, ds, back) => (ds, back)
  | .error _ => ([], none)

/-- The accesses of `xrcc_cam_irq_handler`. -/
def irqProg : RegProg :=
  .read videoCtrlRxCtrl fun rxCtrlReg =>
    match (s.irqEffects rxCtrlReg).2 with
    | none => .ret
    | some value => .write videoCtrlRxCtrl value .ret

def step : StreamEvent → Option (Streaming n)
  | .alloc addr => (s.capture.step (.alloc addr)).map fun c => { s with capture := c }
  | .free vbuf => (s.capture.step (.free vbuf)).map fun c => { s with capture := c }
  | .queue vbuf addr =>
    (s.capture.step (.queue vbuf addr)).map fun c =>
      { s with capture := c, completed := Function.update s.completed vbuf false }
  | .start fmtIdx bus => if s.AllQueued ∧ s.vdma.running = false then some (s.startStreaming fmtIdx bus) else none
  | .irq bus =>
    let rxCtrlReg := s.regs.read bus.vdmaFramePtrI bus.rx (regAddr videoCtrlRxCtrl)
    (s.capture.step (.irq rxCtrlReg)).map fun c =>
      { s with
        capture := c
        regs := s.irqProg.run bus s.regs
        completed := fun b => s.completed b || ((s.irqEffects rxCtrlReg).1.map Prod.fst).contains b }
  | .frame =>
    if s.vdma.running then
      some { s with vdma := { s.vdma with next := s.vdma.target named s.regs.vdmaFramePtrO + 1 } }
    else none
  | .stop bus =>
    (s.capture.step .stop).map fun c =>
      { s with capture := c, vdma := vdmaCtrlReset s.vdma, regs := stopStreamingProg.run bus s.regs }

/-- A frame is not written into a buffer that was completed and not queued again. -/
def KeepsOff (e : StreamEvent) : Prop :=
  e = .frame → s.vdma.running = true →
    ∀ b, (b, s.vdma.startAddr (s.vdma.target named s.regs.vdmaFramePtrO)) ∈ s.capture.live → s.completed b = false

/-- When a frame begins, the slot at the place of the VDMA is registered again. -/
def Requeued (e : StreamEvent) : Prop :=
  e = .frame → s.vdma.running = true → (s.capture.dev.vectBufs s.vdma.next).registered = true

omit [NeZero n] in
instance (e : StreamEvent) : Decidable (s.Requeued e) := inferInstanceAs (Decidable (_ → _ → _))

end Streaming

end RcCarControl.Driver
