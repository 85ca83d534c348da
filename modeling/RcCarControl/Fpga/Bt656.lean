import RcCarControl.Fpga.StreamReader

/-!
# The video receiver on the pixel clock

The PCLK side of `fpga/rtl/video_ctrl/bt656_to_axi_stream.sv`: the state machine, the VSYNC and header detection, the
embedded frame counter, the width and height counters and the write side of the data FIFO.  `rx_enable` is both the
reset and the enable, so with `rx_enable` at 1 a state is a state out of reset.
-/

namespace RcCarControl.Fpga

/-- The settings `rx_cfg.pure_bt656` and `rx_cfg.emb_frame_cnt`. -/
structure Bt656Cfg where
  pureBt656 : Bool
  embFrameCnt : Bool

/-- What the registers sample at a rising PCLK: the pins, `rx_cfg.frame_cnts`, the output of `sync_rst_size_err_i` and
`data_fifo_full`. -/
structure VideoIn where
  vsync : Bool
  href : Bool
  data : BitVec 8
  frameCnts : BitVec 32
  syncRstSizeErr : Bool
  dataFifoFull : Bool

inductive Bt656State where
  | idle
  | blanking
  | sav
  | vdata
deriving DecidableEq

structure Bt656 where
  state : Bt656State
  inData0 : BitVec 8
  inData1 : BitVec 8
  inData2 : BitVec 8
  inData3 : BitVec 8
  inHblank : Bool
  inVblank : Bool
  inVsyncValid : Bool
  inVsyncField : Bool
  inVsyncFieldD : Bool
  eavDetD : Bool
  savDetD : Bool
  embFrameCnt : BitVec 16
  embFrameWaiting : Bool
  pixelCnt : BitVec 13
  lineCnt : BitVec 13
  widthCnt : BitVec 13
  heightCnt : BitVec 13
  widthErr : Bool
  heightErr : Bool
  fifoWrite : Bool

def Bt656.reset : Bt656 :=
  { state := .idle, inData0 := 0, inData1 := 0, inData2 := 0, inData3 := 0, inHblank := false, inVblank := false,
    inVsyncValid := false, inVsyncField := false, inVsyncFieldD := false, eavDetD := false, savDetD := false,
    embFrameCnt := 0, embFrameWaiting := false, pixelCnt := 0, lineCnt := 0, widthCnt := BitVec.allOnes 13,
    heightCnt := BitVec.allOnes 13, widthErr := false, heightErr := false, fifoWrite := false }

/-- The outputs of the combinational block of the state machine. -/
structure Bt656Fsm where
  nstate : Bt656State
  rstPixelCnt : Bool := true
  latchPixelCnt : Bool := false

namespace Bt656

variable (cfg : Bt656Cfg) (s : Bt656) (x : VideoIn)

def hdrDet : Bool :=
  cfg.pureBt656 && s.inData3 == 0xFF && s.inData2 == 0x00 && s.inData1 == 0x00 && s.inData0.getLsbD 7

def eavDet : Bool := s.hdrDet cfg && s.inData0.getLsbD 4

def savDet : Bool := s.hdrDet cfg && !s.inData0.getLsbD 4

def inNewFrame : Bool :=
  s.inVsyncFieldD && !s.inVsyncField && cfg.pureBt656 ||
    !s.inVsyncFieldD && s.inVsyncField && s.inVsyncValid && !cfg.pureBt656

def incLineCnt : Bool := !cfg.pureBt656 && !s.inHblank && x.href || cfg.pureBt656 && s.savDet cfg

def fsm : Bt656Fsm :=
  match s.state with
  | .idle =>
    if s.inNewFrame cfg && cfg.pureBt656 then { nstate := .sav }
    else if s.inNewFrame cfg && !cfg.pureBt656 then { nstate := .blanking }
    else { nstate := .idle }
  | .sav =>
    if s.savDetD && !s.inVblank then { nstate := .vdata }
    else if s.savDetD && s.inVblank then { nstate := .blanking }
    else { nstate := .sav }
  | .vdata =>
    if cfg.pureBt656 then
      if s.eavDetD then { nstate := .blanking, rstPixelCnt := false, latchPixelCnt := true }
      else { nstate := .vdata, rstPixelCnt := false }
    else if !x.href then { nstate := .blanking, rstPixelCnt := false, latchPixelCnt := true }
    else { nstate := .vdata, rstPixelCnt := false }
  | .blanking =>
    if cfg.pureBt656 then
      if s.savDetD && !s.inVblank then { nstate := .vdata } else { nstate := .blanking }
    else if x.href then { nstate := .vdata }
    else { nstate := .blanking }

def embFrameMsb : Bool :=
  s.embFrameWaiting && s.state == .blanking && (s.fsm cfg x).nstate == .vdata

def embFrameLsb : Bool :=
  s.embFrameWaiting && s.state == .vdata && (s.fsm cfg x).nstate == .vdata

def dataFifoWrite : Bool := s.state == .vdata && !x.dataFifoFull

/-- `size_fifo_data` -/
def sizeFifoData : BitVec 32 :=
  BitVec.ofBool s.heightErr ++ 0#2 ++ s.heightCnt ++ (BitVec.ofBool s.widthErr ++ 0#2 ++ s.widthCnt)

/-- The byte that goes into the data FIFO at the clock. -/
def fifoByte : Option (BitVec 8) := if s.dataFifoWrite x then some s.inData0 else none

/-- The registers at a rising PCLK. -/
def clock : Bt656 where
  state := (s.fsm cfg x).nstate
  embFrameWaiting :=
    if s.embFrameLsb cfg x then false
    else if s.inNewFrame cfg && !cfg.pureBt656 && cfg.embFrameCnt then true
    else s.embFrameWaiting
  embFrameCnt :=
    if s.inNewFrame cfg && !cfg.pureBt656 && cfg.embFrameCnt then x.frameCnts.setWidth 16 else s.embFrameCnt
  inData0 :=
    if s.embFrameLsb cfg x then s.embFrameCnt.extractLsb' 0 8
    else if s.embFrameMsb cfg x then s.embFrameCnt.extractLsb' 8 8
    else x.data
  inData1 := s.inData0
  inData2 := s.inData1
  inData3 := s.inData2
  inVsyncFieldD := s.inVsyncField
  eavDetD := if cfg.pureBt656 then s.eavDet cfg else s.eavDetD
  savDetD := if cfg.pureBt656 then s.savDet cfg else s.savDetD
  inHblank :=
    if cfg.pureBt656 then if s.hdrDet cfg then s.inData0.getLsbD 4 else s.inHblank else x.href
  inVblank := if cfg.pureBt656 && s.hdrDet cfg then s.inData0.getLsbD 5 else s.inVblank
  inVsyncField :=
    if cfg.pureBt656 then if s.hdrDet cfg then s.inData0.getLsbD 6 else s.inVsyncField else x.vsync
  -- assigned with `=` in the source; it is the flip-flop that synthesis makes of it
  inVsyncValid := if !cfg.pureBt656 && !x.vsync then true else s.inVsyncValid
  widthErr :=
    if (s.fsm cfg x).latchPixelCnt && s.widthCnt != s.pixelCnt && s.widthCnt != BitVec.allOnes 13 then true
    else if x.syncRstSizeErr then false
    else s.widthErr
  widthCnt := if (s.fsm cfg x).latchPixelCnt then s.pixelCnt else s.widthCnt
  pixelCnt :=
    if (s.fsm cfg x).latchPixelCnt then s.pixelCnt
    else if (s.fsm cfg x).rstPixelCnt then 0
    else if s.state = .vdata then s.pixelCnt + 1
    else s.pixelCnt
  heightErr :=
    if s.inNewFrame cfg && s.heightCnt != s.lineCnt && s.lineCnt != BitVec.allOnes 13 then true
    else if x.syncRstSizeErr then false
    else s.heightErr
  heightCnt := if s.inNewFrame cfg then s.lineCnt else s.heightCnt
  lineCnt := if s.inNewFrame cfg then 0 else if s.incLineCnt cfg x then s.lineCnt + 1 else s.lineCnt
  fifoWrite := s.inNewFrame cfg && s.heightCnt != BitVec.allOnes 13

/-- The registers before clock `k` of a trace that starts out of reset. -/
def trace (xs : Nat → VideoIn) : Nat → Bt656
  | 0 => reset
  | k + 1 => (trace xs k).clock cfg (xs k)

/-- The bytes that went into the data FIFO during the first `n` clocks. -/
def written (xs : Nat → VideoIn) (n : Nat) : List (BitVec 8) :=
  (List.range n).filterMap fun k => (trace cfg xs k).fifoByte (xs k)

end Bt656

end RcCarControl.Fpga
