import RcCarControl.Lib.ReadyValid
import RcCarControl.Fpga.AxiStreamTpGen

/-!
# The sources of the video bus as ready/valid sources

`axi_stream_tp_gen` and the reader of `bt656_to_axi_stream` look at TREADY first and raise TVALID in the same cycle, so
they follow the rules of the bus only while they have nothing to send.
-/

namespace RcCarControl.Fpga

open Lts ReadyValid

/-- `axi_stream_tp_gen`: a cycle is a stream clock with the configuration. -/
def tpGenSource : Source TpGen TpGenIn Beat where
  valid s x tready := (s.comb { x with tready := tready }).tvalid
  beat s x tready :=
    ⟨s.tdata, (s.comb { x with tready := tready }).tlast, (s.comb { x with tready := tready }).tuser⟩
  next s x tready := s.clock { x with tready := tready }

/-- The inputs of the reader besides TREADY: the settings, PCLK, and `stream_in_new_frame` if the stream clock rises. -/
structure ReaderIn where
  cfg : FifoCtrl
  pclk : Option (Bool × BitVec 8)
  aclk : Option Bool

/-- The reader of `bt656_to_axi_stream` with the data FIFO, between any two instants. -/
def readerSource : Source VideoStream ReaderIn Beat where
  valid s i tready := (s.reader.comb i.cfg tready).tvalid
  beat s i tready := ⟨s.fifo.dataOut, (s.reader.comb i.cfg tready).tlast, (s.reader.comb i.cfg tready).tuser⟩
  next s i tready := s.clock i.cfg ⟨i.pclk, i.aclk.map fun streamInNewFrame => (tready, streamInNewFrame)⟩

/-- The generator is within a frame. -/
def TpGen.sends (s : TpGen) : Bool := s.state == .vdata

/-- A line is being read, and the FIFO had a byte a clock ago. -/
def VideoStream.sends (s : VideoStream) : Bool := s.reader.axiState == .data && !s.reader.dataFifoEmptyD

theorem waits_tpGenSource : tpGenSource.Waits TpGen.sends := by
  intro s x tready
  simp only [tpGenSource, TpGen.comb, TpGen.sends]
  cases s.state with
  | idle => rfl
  | blanking =>
    simp only
    split_ifs <;> rfl
  | vdata => cases tready <;> rfl

theorem waits_readerSource : readerSource.Waits VideoStream.sends := by
  intro s i tready
  simp only [readerSource, StreamReader.comb, VideoStream.sends]
  cases s.reader.axiState with
  | idle =>
    simp only
    split_ifs <;> rfl
  | data =>
    cases s.reader.dataFifoEmptyD with
    | true => simp
    | false =>
      cases tready with
      | false => rfl
      | true =>
        simp only [Bool.not_false, Bool.and_self, if_true]
        split_ifs <;> rfl

instance : Nonempty TpGenIn := ⟨⟨false, 0, 0, 0, 0, false⟩⟩

instance : Nonempty ReaderIn := ⟨⟨⟨0, 0⟩, none, none⟩⟩

/-- From any state, the sources follow the rules throughout a run exactly if they have nothing to send in it. -/
theorem compliant_iff_nothing_to_send (s : TpGen) (es : List (TpGenIn × Bool)) (v : VideoStream)
    (fs : List (ReaderIn × Bool)) :
    (StatesMeet tpGenSource.step tpGenSource.Compliant s es ↔
        StatesMeet tpGenSource.step (fun s => s.sends = false) s es) ∧
      (StatesMeet readerSource.step readerSource.Compliant v fs ↔
        StatesMeet readerSource.step (fun v => v.sends = false) v fs) :=
  ⟨waits_tpGenSource.statesMeet_iff es, waits_readerSource.statesMeet_iff fs⟩

/-- Enabled for one frame of one pixel, with a sink that is not ready. -/
def waitingSink : List (TpGenIn × Bool) := List.replicate 3 (⟨true, 1, 1, 1, 0, false⟩, false)

/-- The generator has started its frame and waits for the sink. -/
theorem not_compliant_waitingSink : ¬ StatesMeet tpGenSource.step tpGenSource.Compliant .reset waitingSink := by
  rw [waits_tpGenSource.statesMeet_iff]
  decide

end RcCarControl.Fpga
