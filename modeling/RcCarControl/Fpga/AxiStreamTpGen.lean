import RcCarControl.Fpga.StreamReader

/-!
# The test pattern generator

`fpga/rtl/video_ctrl/axi_stream_tp_gen.sv` out of reset: the configuration registers, the three counters and the state
machine.  Literals of the source are 32 bits wide and widen what they are compared with.
-/

namespace RcCarControl.Fpga

inductive TpGenState where
  | idle
  | blanking
  | vdata
deriving DecidableEq

/-- The inputs at a rising stream clock. -/
structure TpGenIn where
  tpEnable : Bool
  tpWidth : BitVec 11
  tpHeight : BitVec 11
  tpNumFrames : BitVec 7
  tpBlanking : BitVec 24
  tready : Bool

structure TpGen where
  enableR0 : Bool
  enableR1 : Bool
  enableR2 : Bool
  widthR : BitVec 11
  heightR : BitVec 11
  numFramesR : BitVec 7
  blankingR : BitVec 24
  frameCnt : BitVec 8
  pixelCnt : BitVec 24
  lineCnt : BitVec 11
  state : TpGenState
deriving DecidableEq

def TpGen.reset : TpGen := ⟨false, false, false, 0, 0, 0, 0, 0, 0, 0, .idle⟩

/-- The outputs of the combinational block. -/
structure TpGenOut where
  nstate : TpGenState
  tvalid : Bool := false
  tuser : Bool := false
  tlast : Bool := false
  dataValidOut : Bool := false
  rstFrameCnt : Bool := false
  incFrameCnt : Bool := false
  rstPixelCnt : Bool := false
  incPixelCnt : Bool := false
  rstLineCnt : Bool := false
  incLineCnt : Bool := false

namespace TpGen

variable (s : TpGen) (x : TpGenIn)

def genStart : Bool := !s.enableR2 && s.enableR1

/-- `pixel_cnt == (width_r-1)` -/
def lastPixel : Bool := s.pixelCnt.setWidth 32 == s.widthR.setWidth 32 - 1

/-- `line_cnt == (height_r-1)` -/
def lastLine : Bool := s.lineCnt.setWidth 32 == s.heightR.setWidth 32 - 1

def comb : TpGenOut :=
  match s.state with
  | .idle => { nstate := if s.genStart then .vdata else .idle, rstFrameCnt := true }
  | .blanking =>
    -- the end of the blanking is looked at last and wins over the stop
    if s.blankingR ≤ s.pixelCnt then { nstate := .vdata, incPixelCnt := true, rstPixelCnt := true }
    else if !s.enableR0 || decide (s.numFramesR.setWidth 8 ≤ s.frameCnt) && decide (0 < s.numFramesR) then
      { nstate := .idle, incPixelCnt := true }
    else { nstate := .blanking, incPixelCnt := true }
  | .vdata =>
    if x.tready then
      { nstate := if s.lastPixel && s.lastLine then .blanking else .vdata
        tvalid := true
        tuser := s.pixelCnt == 0 && s.lineCnt == 0
        tlast := s.lastPixel
        dataValidOut := true
        incFrameCnt := s.lastPixel && s.lastLine
        rstPixelCnt := s.lastPixel
        incPixelCnt := true
        rstLineCnt := s.lastPixel && s.lastLine
        incLineCnt := s.lastPixel }
    else { nstate := .vdata, dataValidOut := true }

/-- `TDATA` while `data_valid_out`. -/
def tdata : BitVec 8 := s.lineCnt.setWidth 4 ++ s.pixelCnt.setWidth 4

/-- The transfer at the clock. -/
def beat : Option Beat :=
  if (s.comb x).tvalid && x.tready then some ⟨s.tdata, (s.comb x).tlast, (s.comb x).tuser⟩ else none

/-- The registers at a rising stream clock. -/
def clock : TpGen where
  enableR0 := x.tpEnable
  enableR1 := s.enableR0
  enableR2 := s.enableR1
  widthR := if s.genStart then x.tpWidth else s.widthR
  heightR := if s.genStart then x.tpHeight else s.heightR
  numFramesR := if s.genStart then x.tpNumFrames else s.numFramesR
  blankingR := if s.genStart then x.tpBlanking else s.blankingR
  frameCnt :=
    if (s.comb x).rstFrameCnt then 0 else if (s.comb x).incFrameCnt then s.frameCnt + 1 else s.frameCnt
  pixelCnt :=
    if (s.comb x).rstPixelCnt then 0 else if (s.comb x).incPixelCnt then s.pixelCnt + 1 else s.pixelCnt
  lineCnt := if (s.comb x).rstLineCnt then 0 else if (s.comb x).incLineCnt then s.lineCnt + 1 else s.lineCnt
  state := (s.comb x).nstate

end TpGen

end RcCarControl.Fpga
