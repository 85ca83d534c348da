import RcCarControl.Fpga.AxiLite

/-!
# The registers of `video_ctrl_axi`

The register file of `fpga/rtl/video_ctrl/video_ctrl_axi.sv`: the write decode, the read decode and the frame
interrupt.  `VideoCtrlRegs.clock` is one edge of the AXI clock out of reset; the write strobe with its address and data
is an input, so the file is the same under every handshake.
-/

namespace RcCarControl.Fpga

/-! ### Register map -/

def verAddr : BitVec 6 := 0x0
def tpCtrlAddr : BitVec 6 := 0x1
def tpSizeAddr : BitVec 6 := 0x2
def rxCtrlAddr : BitVec 6 := 0x3
def rxSizeStatAddr : BitVec 6 := 0x4
def rxFrameCntsAddr : BitVec 6 := 0x5
def rxFrameLenAddr : BitVec 6 := 0x6
def rxFifoCtrlAddr : BitVec 6 := 0x7
def rxFifoStatusAddr : BitVec 6 := 0x8

/-- `VER`. -/
def ver : BitVec 32 := 0xdead0100

/-! ### The control bits of a word for RX_CTRL -/

def runBit (wdata : BitVec 32) : Bool := wdata[0]
def intenBit (wdata : BitVec 32) : Bool := wdata[4]
def intBit (wdata : BitVec 32) : Bool := wdata[5]

/-- The registers of the module. -/
structure VideoCtrlRegs where
  tpEnGen : Bool
  tpWidth : BitVec 11
  tpHeight : BitVec 11
  tpNumFrames : BitVec 7
  tpBlanking : BitVec 24
  rxEnable : Bool
  pureBt656 : Bool
  camRstn : Bool
  camPwdn : Bool
  rstSizeErr : Bool
  dataFifoStartRead : BitVec 11
  dataFifoLineLen : BitVec 11
  vdmaFramePtrO : BitVec 6
  /-- `vdma_frame_ptr_i_r`: the pointer of the previous clock. -/
  vdmaFramePtrI : BitVec 6
  vdmaFrameInten : Bool
  vdmaFrameInt : Bool
  vdmaFrameIntClear : Bool
  embFrameCnt : Bool
deriving DecidableEq

/-- The state after a clock with `ARESETn` low. -/
def VideoCtrlRegs.reset : VideoCtrlRegs where
  tpEnGen := false
  tpWidth := 640
  tpHeight := 480
  tpNumFrames := 0
  tpBlanking := 640 <<< 2
  rxEnable := false
  pureBt656 := false
  camRstn := true
  camPwdn := false
  rstSizeErr := false
  dataFifoStartRead := 640 <<< 1
  dataFifoLineLen := 640 <<< 1
  vdmaFramePtrO := 0
  vdmaFramePtrI := 0
  vdmaFrameInten := false
  vdmaFrameInt := false
  vdmaFrameIntClear := false
  embFrameCnt := false

/-- What the receiver reports through `rx_cfg` and the read decode shows. -/
structure RxStatus where
  sizeStatus : BitVec 32
  frameCnts : BitVec 32
  frameLength : BitVec 32
  rdWords : BitVec 11
  wrWrite : Bool
  wrFull : Bool
  rdState : BitVec 2
  rdRead : Bool
  rdEmpty : Bool
  rdData : BitVec 8
deriving DecidableEq

namespace VideoCtrlRegs

variable (r : VideoCtrlRegs)

/-- The write decode: the two strobes last one clock, all other registers keep their value unless addressed. -/
def write (wr : Option (BitVec 6 × BitVec 32)) : VideoCtrlRegs :=
  let r := { r with rstSizeErr := false, vdmaFrameIntClear := false }
  match wr with
  | none => r
  | some (axiAwaddr, wdata) =>
    if axiAwaddr = tpCtrlAddr then
      { r with
        tpEnGen := wdata[0]
        tpNumFrames := wdata.extractLsb' 1 7
        tpBlanking := wdata.extractLsb' 8 24 }
    else if axiAwaddr = tpSizeAddr then
      { r with tpWidth := wdata.extractLsb' 0 11, tpHeight := wdata.extractLsb' 16 11 }
    else if axiAwaddr = rxCtrlAddr then
      { r with
        rxEnable := runBit wdata
        pureBt656 := wdata[1]
        camRstn := wdata[2]
        camPwdn := wdata[3]
        vdmaFrameInten := intenBit wdata
        vdmaFrameIntClear := intBit wdata
        embFrameCnt := wdata[6]
        vdmaFramePtrO := wdata.extractLsb' 16 6 }
    else if axiAwaddr = rxSizeStatAddr then
      { r with rstSizeErr := true }
    else if axiAwaddr = rxFifoCtrlAddr then
      { r with dataFifoStartRead := wdata.extractLsb' 0 11, dataFifoLineLen := wdata.extractLsb' 16 11 }
    else r

/-- RX_CTRL as the read decode packs it, with the pointer that is on the input. -/
def rxCtrl (vdmaFramePtrI : BitVec 6) : BitVec 32 :=
  0#2 ++ vdmaFramePtrI ++ 0#2 ++ r.vdmaFramePtrO ++ 0#9 ++ BitVec.ofBool r.embFrameCnt ++ BitVec.ofBool r.vdmaFrameInt ++
    BitVec.ofBool r.vdmaFrameInten ++ BitVec.ofBool r.camPwdn ++ BitVec.ofBool r.camRstn ++ BitVec.ofBool r.pureBt656 ++ BitVec.ofBool r.rxEnable

/-- The read decode: the word that an accepted read puts on RDATA. -/
def read (vdmaFramePtrI : BitVec 6) (rx : RxStatus) (axiAraddr : BitVec 6) : BitVec 32 :=
  if axiAraddr = verAddr then ver
  else if axiAraddr = tpCtrlAddr then r.tpBlanking ++ r.tpNumFrames ++ BitVec.ofBool r.tpEnGen
  else if axiAraddr = tpSizeAddr then 0#5 ++ r.tpHeight ++ 0#5 ++ r.tpWidth
  else if axiAraddr = rxCtrlAddr then r.rxCtrl vdmaFramePtrI
  else if axiAraddr = rxSizeStatAddr then rx.sizeStatus
  else if axiAraddr = rxFrameCntsAddr then rx.frameCnts
  else if axiAraddr = rxFrameLenAddr then rx.frameLength
  else if axiAraddr = rxFifoCtrlAddr then 0#5 ++ r.dataFifoLineLen ++ 0#5 ++ r.dataFifoStartRead
  else if axiAraddr = rxFifoStatusAddr then
    0#5 ++ rx.rdWords ++ BitVec.ofBool rx.wrWrite ++ BitVec.ofBool rx.wrFull ++ 0#2 ++ rx.rdState ++
      BitVec.ofBool rx.rdRead ++ BitVec.ofBool rx.rdEmpty ++ rx.rdData
  else 0xdeadbeef

/-- The frame interrupt: clearing comes before setting, and a change of the pointer is seen against the pointer of the
previous clock. -/
def frameInt (vdmaFramePtrI : BitVec 6) : Bool :=
  if r.vdmaFrameIntClear then false
  else if r.vdmaFramePtrI ≠ vdmaFramePtrI ∧ r.vdmaFrameInten then true
  else r.vdmaFrameInt

/-- One clock edge out of reset. -/
def clock (vdmaFramePtrI : BitVec 6) (wr : Option (BitVec 6 × BitVec 32)) : VideoCtrlRegs :=
  { r.write wr with vdmaFramePtrI := vdmaFramePtrI, vdmaFrameInt := r.frameInt vdmaFramePtrI }

/-! ### RX_CTRL bit by bit -/

theorem getLsbD_append_bit {w : Nat} (x : BitVec w) (b : Bool) : (x ++ BitVec.ofBool b).getLsbD 0 = b := by
  rw [BitVec.getLsbD_append]
  cases b <;> rfl

theorem getLsbD_append_bit_succ {w : Nat} (x : BitVec w) (b : Bool) (i : Nat) :
    (x ++ BitVec.ofBool b).getLsbD (i + 1) = x.getLsbD i := by
  simp [BitVec.getLsbD_append]

variable {r} (p : BitVec 6)

@[simp] theorem rxCtrl_run : runBit (r.rxCtrl p) = r.rxEnable :=
  getLsbD_append_bit _ _

@[simp] theorem rxCtrl_inten : intenBit (r.rxCtrl p) = r.vdmaFrameInten := by
  unfold intenBit rxCtrl
  iterate 4 apply (getLsbD_append_bit_succ _ _ _).trans
  exact getLsbD_append_bit _ _

@[simp] theorem rxCtrl_int : intBit (r.rxCtrl p) = r.vdmaFrameInt := by
  unfold intBit rxCtrl
  iterate 5 apply (getLsbD_append_bit_succ _ _ _).trans
  exact getLsbD_append_bit _ _

variable (v : BitVec 32)

theorem read_rxCtrl (rx : RxStatus) : r.read p rx rxCtrlAddr = r.rxCtrl p := rfl

/-! ### The control bits over a clock -/

@[simp] theorem clock_none_rxEnable : (r.clock p none).rxEnable = r.rxEnable := rfl

@[simp] theorem clock_none_inten : (r.clock p none).vdmaFrameInten = r.vdmaFrameInten := rfl

@[simp] theorem clock_none_intClear : (r.clock p none).vdmaFrameIntClear = false := rfl

@[simp] theorem clock_rxCtrl_rxEnable : (r.clock p (some (rxCtrlAddr, v))).rxEnable = runBit v := rfl

@[simp] theorem clock_rxCtrl_inten : (r.clock p (some (rxCtrlAddr, v))).vdmaFrameInten = intenBit v := rfl

@[simp] theorem clock_rxCtrl_intClear : (r.clock p (some (rxCtrlAddr, v))).vdmaFrameIntClear = intBit v := rfl

@[simp] theorem clock_int (wr : Option (BitVec 6 × BitVec 32)) : (r.clock p wr).vdmaFrameInt = r.frameInt p := rfl

@[simp] theorem clock_ptr (wr : Option (BitVec 6 × BitVec 32)) : (r.clock p wr).vdmaFramePtrI = p := rfl

end VideoCtrlRegs

/-- `video_ctrl_axi` behind its handshake, with `AW` = 8: the other inputs are `vdma_frame_ptr_i` and what the receiver
reports. -/
def videoCtrlAxi : Decode 6 VideoCtrlRegs (BitVec 6 × RxStatus) where
  clock r ext wr := r.clock ext.1 wr
  reset _ := VideoCtrlRegs.reset
  read r ext axiAraddr := r.read ext.1 ext.2 axiAraddr

end RcCarControl.Fpga
