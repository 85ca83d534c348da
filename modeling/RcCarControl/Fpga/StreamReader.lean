import RcCarControl.Fpga.FifoOrder

/-!
# From the data FIFO to the AXI stream

The read side of `fpga/rtl/video_ctrl/bt656_to_axi_stream.sv`: the start condition on the word count of the data FIFO,
the state machine `axi_state` with its pixel counter and the frame latch, out of reset and with static settings.
`VideoStream.clock` is an instant at which PCLK, the stream clock or both rise.  The log of the FIFO, the beats
transferred so far and the counts behind the word count and behind the start condition are carried along.
-/

namespace RcCarControl.Fpga

inductive AxiState where
  | idle
  | data
deriving DecidableEq

/-- The settings `rx_cfg.data_fifo_line_len` and `rx_cfg.data_fifo_start`. -/
structure FifoCtrl where
  dataFifoLineLen : BitVec 11
  dataFifoStart : BitVec 11

structure StreamReader where
  axiState : AxiState
  fifoPixelCnt : BitVec 11
  fifoStartRead : Bool
  dataFifoEmptyD : Bool
  streamFrameLatch : Bool

def StreamReader.reset : StreamReader := ⟨.idle, 0, false, false, false⟩

/-- The outputs of the combinational block. -/
structure StreamOut where
  axiNstate : AxiState
  tvalid : Bool := false
  tuser : Bool := false
  tlast : Bool := false
  dataFifoRead : Bool := false
  rstFifoPixelCnt : Bool := false
  incFifoPixelCnt : Bool := false
  streamClearFrameLatch : Bool := false

/-- One transfer on the stream. -/
structure Beat where
  tdata : BitVec 8
  tlast : Bool
  tuser : Bool
deriving DecidableEq

/-- A counter compared with a length minus 1, in 32 bits. -/
theorem cnt_eq_sub_one_iff {m n : Nat} (hm : m < 32) (hn : n < 32) {cnt : BitVec m} {len : BitVec n}
    (h : 0 < len.toNat) : cnt.setWidth 32 = len.setWidth 32 - 1 ↔ cnt.toNat + 1 = len.toNat := by
  have hcnt : cnt.toNat < 2 ^ 31 := cnt.isLt.trans_le (Nat.pow_le_pow_right (by omega) (by omega))
  have hlen : len.toNat < 2 ^ 31 := len.isLt.trans_le (Nat.pow_le_pow_right (by omega) (by omega))
  rw [← BitVec.toNat_inj, BitVec.toNat_sub, BitVec.toNat_setWidth, BitVec.toNat_setWidth,
    show (1 : BitVec 32).toNat = 1 from rfl]
  omega

variable (cfg : FifoCtrl)

def StreamReader.comb (s : StreamReader) (tready : Bool) : StreamOut :=
  match s.axiState with
  | .idle => if s.fifoStartRead then { axiNstate := .data, dataFifoRead := true } else { axiNstate := .idle }
  | .data =>
    if tready && !s.dataFifoEmptyD then
      -- the comparison is made in 32 bits
      if s.fifoPixelCnt.setWidth 32 = cfg.dataFifoLineLen.setWidth 32 - 1 then
        { axiNstate := .idle, tvalid := true, tuser := s.streamFrameLatch, tlast := true, rstFifoPixelCnt := true,
          incFifoPixelCnt := true, streamClearFrameLatch := s.streamFrameLatch }
      else
        { axiNstate := .data, tvalid := true, tuser := s.streamFrameLatch, dataFifoRead := true,
          incFifoPixelCnt := true, streamClearFrameLatch := s.streamFrameLatch }
    else { axiNstate := .data }

/-- The registers of the reader at a rising stream clock; `fifo` is the data FIFO before it. -/
def StreamReader.clock (s : StreamReader) (fifo : AsyncFifo 8 11) (tready streamInNewFrame : Bool) : StreamReader :=
  let out := s.comb cfg tready
  { axiState := out.axiNstate
    fifoPixelCnt :=
      if out.rstFifoPixelCnt then 0 else if out.incFifoPixelCnt then s.fifoPixelCnt + 1 else s.fifoPixelCnt
    fifoStartRead := decide (cfg.dataFifoStart ≤ fifo.readWordCountOut)
    dataFifoEmptyD := fifo.emptyOut
    streamFrameLatch :=
      if streamInNewFrame then true else if out.streamClearFrameLatch then false else s.streamFrameLatch }

/-- The inputs at an instant: `data_fifo_write` and the byte if PCLK rises, TREADY and `stream_in_new_frame` if the
stream clock does. -/
structure Tick where
  pclk : Option (Bool × BitVec 8)
  aclk : Option (Bool × Bool)

structure VideoStream where
  fifo : AsyncFifo 8 11
  reader : StreamReader
  log : FifoLog 8
  /-- The counts of words written and read whose difference is the word count. -/
  counted : Nat × Nat
  /-- The counts the start condition was decided on. -/
  compared : Nat × Nat
  beats : List Beat

/-- Out of reset, with anything in the memory. -/
def VideoStream.reset (mem : BitVec 11 → BitVec 8) (dataOut : BitVec 8) : VideoStream :=
  ⟨.cleared mem dataOut, .reset, .start, (0, 0), (0, 0), []⟩

/-- `ReadEn_in` of the data FIFO at an instant. -/
def VideoStream.rclk (s : VideoStream) (e : Tick) : Option Bool :=
  e.aclk.map fun (tready, _) => (s.reader.comb cfg tready).dataFifoRead

/-- The transfer of an instant: TVALID and TREADY are both high (TVALID is only raised with TREADY). -/
def VideoStream.beat (s : VideoStream) (e : Tick) : Option Beat :=
  match e.aclk with
  | none => none
  | some (tready, _) =>
    let out := s.reader.comb cfg tready
    if out.tvalid && tready then some ⟨s.fifo.dataOut, out.tlast, out.tuser⟩ else none

def VideoStream.clock (s : VideoStream) (e : Tick) : VideoStream where
  fifo := s.fifo.clock e.pclk (s.rclk cfg e)
  reader :=
    match e.aclk with
    | none => s.reader
    | some (tready, streamInNewFrame) => s.reader.clock cfg s.fifo tready streamInNewFrame
  log := s.log.clock s.fifo e.pclk (s.rclk cfg e)
  counted := if e.aclk.isSome then (s.log.syncWritten, s.log.syncRead) else s.counted
  compared := if e.aclk.isSome then s.counted else s.compared
  beats := s.beats ++ (s.beat cfg e).toList

theorem tracks_clock {s : VideoStream} (h : Tracks s.fifo s.log) (e : Tick) :
    Tracks (s.clock cfg e).fifo (s.clock cfg e).log :=
  h.clock (by omega)

/-- The state after the instants `es`. -/
def VideoStream.run (s : VideoStream) (es : List Tick) : VideoStream := es.foldl (VideoStream.clock cfg) s

end RcCarControl.Fpga
