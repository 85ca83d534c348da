import RcCarControl.Driver.RxCtrl

/-!
# Register accesses of the camera driver

The helpers of `linux/xilinx-rcc-cam.c` that touch the video controller, as the sequence of `ioread32` and `iowrite32`
calls they make.  A helper takes what its caller does next, so the value it read is a variable of the program and other
parties can act between any two accesses.
-/

namespace RcCarControl.Driver

/-! ### Register offsets -/

def videoCtrlRxCtrl : Nat := 0x0C
def videoCtrlRxSizeStat : Nat := 0x10
def videoCtrlRxFrameCnts : Nat := 0x14
def videoCtrlRxFrameLen : Nat := 0x18
def videoCtrlRxFifoCtrl : Nat := 0x1C

/-- What a thread still has to do on the register bus. -/
inductive RegProg where
  | ret
  | read (reg : Nat) (next : U32 → RegProg)
  | write (reg : Nat) (value : U32) (next : RegProg)

instance : (p : RegProg) → Decidable (p = .ret)
  | .ret => isTrue rfl
  | .read _ _ => isFalse (by simp)
  | .write _ _ _ => isFalse (by simp)

/-- `video_ctrl_inten`. -/
def videoCtrlInten (intEnable : Bool) (next : RegProg) : RegProg :=
  .read videoCtrlRxCtrl fun ctrl =>
    if intEnable then
      .write videoCtrlRxCtrl (ctrl ||| rxCtrlInten) next
    else
      let ctrl := ctrl &&& ~~~ rxCtrlInten
      .write videoCtrlRxCtrl ctrl <|
      -- Clear also potential interrupts
      .write videoCtrlRxCtrl (ctrl ||| rxCtrlInt) next

/-- `video_ctrl_set_size`; the height is not used. -/
def videoCtrlSetSize (width bpp : U32) (next : RegProg) : RegProg :=
  let lineLength := width * bpp
  .write videoCtrlRxFifoCtrl (lineLength <<< 16 ||| lineLength) next

/-- `video_ctrl_run`, with `EMB_FRAME_CNT` defined. -/
def videoCtrlRun (next : RegProg) : RegProg :=
  .read videoCtrlRxCtrl fun ctrl => .write videoCtrlRxCtrl (ctrl ||| rxCtrlRun ||| rxCtrlEmbFmcnt) next

/-- `video_ctrl_clear_err`. -/
def videoCtrlClearErr (next : RegProg) : RegProg := .write videoCtrlRxSizeStat 1 next

/-- `video_ctrl_stop`. -/
def videoCtrlStop (next : RegProg) : RegProg :=
  .read videoCtrlRxCtrl fun ctrl => .write videoCtrlRxCtrl (ctrl &&& ~~~ rxCtrlRun) next

/-- `video_ctrl_dump_meas`, which reads the three registers of `video_ctrl_get_stats` and logs them. -/
def videoCtrlDumpMeas (next : RegProg) : RegProg :=
  .read videoCtrlRxSizeStat fun _ => .read videoCtrlRxFrameLen fun _ => .read videoCtrlRxFrameCnts fun _ => next

/-- The end of `xrcc_cam_start_streaming`, after the VDMA is configured. -/
def startStreamingProg (width bpp : U32) : RegProg :=
  videoCtrlSetSize width bpp <| videoCtrlRun <| videoCtrlClearErr <| videoCtrlInten true <| videoCtrlDumpMeas .ret

/-- The end of `xrcc_cam_stop_streaming`, after the buffers are given back and the VDMA is reset. -/
def stopStreamingProg : RegProg :=
  videoCtrlInten false <| videoCtrlDumpMeas <| videoCtrlStop .ret

end RcCarControl.Driver
