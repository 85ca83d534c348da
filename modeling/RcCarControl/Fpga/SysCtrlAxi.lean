import RcCarControl.Fpga.AxiLite

/-!
# The registers of `sys_ctrl_axi`

The write decode and the read decode of `fpga/rtl/sys_ctrl/sys_ctrl_axi.sv`, with `PWM_CNT_WIDTH` = 24.
-/

namespace RcCarControl.Fpga

namespace SysCtrl

def verAddr : BitVec 3 := 0x0
def ioctrlAddr : BitVec 3 := 0x1
def pwmCtrlStatus : BitVec 3 := 0x2
def pwmPeriod : BitVec 3 := 0x3
def pwmActive0 : BitVec 3 := 0x4
def pwmActive1 : BitVec 3 := 0x5
def vidCtrlStatus : BitVec 3 := 0x6
def vidFrmStatus : BitVec 3 := 0x7

end SysCtrl

structure SysCtrlRegs where
  pwmMuxSel : Bool
  pwmEnable : Bool
  pwmPeriod : BitVec 24
  pwmActive0 : BitVec 24
  pwmActive1 : BitVec 24
  videoMeasEn : Bool
deriving DecidableEq

/-- What `video_meas` counts. -/
structure VideoMeas where
  framesCnt : BitVec 8
  frameLen : BitVec 24
  linesCnt : BitVec 12
  pixelCnt : BitVec 12
deriving DecidableEq

namespace SysCtrlRegs

variable (r : SysCtrlRegs)

/-- Only two of the registers have a reset. -/
def reset : SysCtrlRegs := { r with pwmMuxSel := false, videoMeasEn := false }

/-- The write decode. -/
def write (wr : Option (BitVec 3 × BitVec 32)) : SysCtrlRegs :=
  match wr with
  | none => r
  | some (axiAwaddr, wdata) =>
    if axiAwaddr = SysCtrl.ioctrlAddr then { r with pwmMuxSel := wdata.getLsbD 0 }
    else if axiAwaddr = SysCtrl.pwmCtrlStatus then { r with pwmEnable := wdata.getLsbD 0 }
    else if axiAwaddr = SysCtrl.pwmPeriod then { r with pwmPeriod := wdata.extractLsb' 0 24 }
    else if axiAwaddr = SysCtrl.pwmActive0 then { r with pwmActive0 := wdata.extractLsb' 0 24 }
    else if axiAwaddr = SysCtrl.pwmActive1 then { r with pwmActive1 := wdata.extractLsb' 0 24 }
    else if axiAwaddr = SysCtrl.vidCtrlStatus then { r with videoMeasEn := wdata.getLsbD 31 }
    else r

/-- The read decode.  The word of the PWM status is put together from 24 bits only. -/
def read (ver : BitVec 32) (video : VideoMeas) (axiAraddr : BitVec 3) : BitVec 32 :=
  if axiAraddr = SysCtrl.verAddr then ver
  else if axiAraddr = SysCtrl.ioctrlAddr then 0#31 ++ BitVec.ofBool r.pwmMuxSel
  else if axiAraddr = SysCtrl.pwmCtrlStatus then (0#8 ++ 24#8 ++ 0#7 ++ BitVec.ofBool r.pwmEnable).setWidth 32
  else if axiAraddr = SysCtrl.pwmPeriod then 0#8 ++ r.pwmPeriod
  else if axiAraddr = SysCtrl.pwmActive0 then 0#8 ++ r.pwmActive0
  else if axiAraddr = SysCtrl.pwmActive1 then 0#8 ++ r.pwmActive1
  else if axiAraddr = SysCtrl.vidCtrlStatus then
    BitVec.ofBool r.videoMeasEn ++ 0#3 ++ video.linesCnt ++ 0#4 ++ video.pixelCnt
  else if axiAraddr = SysCtrl.vidFrmStatus then video.framesCnt ++ video.frameLen
  else 0xdeadbeef

end SysCtrlRegs

/-- `sys_ctrl_axi` behind its handshake, with `AW` = 5. -/
def sysCtrlAxi (ver : BitVec 32) : Decode 3 SysCtrlRegs VideoMeas where
  clock r _ wr := r.write wr
  reset r := r.reset
  read r video axiAraddr := r.read ver video axiAraddr

end RcCarControl.Fpga
