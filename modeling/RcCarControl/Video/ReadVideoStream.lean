import RcCarControl.Interface.Messages

/-!
# The receiver of video frames

The receive loop of `sw/cli/read_video_stream.cpp`: frames are put together from their datagrams and dumped to files when
all datagrams are there.  The files are new and can be written.
-/

namespace RcCarControl.Video

open Interface LittleEndian Memory

/-! ### State -/

/-- `rcc_rx_frame_t`; the array of `int` that is the frame, byte by byte. -/
structure RxFrame where
  sizeFrame : Int
  cntFrame : Int
  numAllMsgs : Int
  numRxMsgs : Int
  frame : Mem Byte

/-- `sizeof(int)`. -/
def intSize : Nat := 4

/-- A file that was written. -/
structure Dump where
  number : Nat
  contents : List Byte

structure Receiver where
  /-- The memory of `videoFrame`, where the datagrams are received. -/
  videoFrame : Mem Byte
  rxFrames : List RxFrame
  /-- The number of the next file. -/
  frameCnt : Nat

/-! ### The fields of `videoFrame` -/

def headerMagic (vf : Mem Byte) : BitVec 16 := u16 (load vf 0 2) 0
def headerSize (vf : Mem Byte) : U32 := u32 (load vf 8 4) 0
def sizeFrame (vf : Mem Byte) : U32 := u32 (load vf 16 4) 0
def idxFrame (vf : Mem Byte) : U32 := u32 (load vf 20 4) 0
def cntFrame (vf : Mem Byte) : Byte := vf 24
def allMsgs (vf : Mem Byte) : Byte := vf 25

/-! ### The loop -/

/-- The frames in front of the one with this count and size, the frame, and those behind it.  A frame with this count and
another size is erased and ends the search. -/
def findFrame (cnt size : Int) : List RxFrame → List RxFrame × Option RxFrame × List RxFrame
  | [] => ([], none, [])
  | f :: fs =>
    if f.cntFrame = cnt then
      if f.sizeFrame = size then ([], some f, fs) else (fs, none, [])
    else
      let r := findFrame cnt size fs
      (f :: r.1, r.2)

/-- Frames up to this count are erased; the iterator is also advanced behind an erased frame, so that the next one is
skipped. -/
def eraseFrames (cnt : Int) : List RxFrame → List RxFrame
  | [] => []
  | f :: fs =>
    if f.cntFrame ≤ cnt then
      match fs with
      | [] => []
      | g :: gs => g :: eraseFrames cnt gs
    else f :: eraseFrames cnt fs

/-- One turn of the loop with a datagram; `stack` is what the uninitialized `rxFrame` holds.  The index into the frame
counts integers. -/
def receive (stack : Mem Byte) (rx : Receiver) (datagram : List Byte) : Receiver × Option Dump :=
  let vf := store rx.videoFrame 0 (datagram.take msgVframeMaxPacketSize)
  if headerMagic vf = rcciMsgInitMagic then
    let found := findFrame (cntFrame vf).toNat (headerSize vf).toInt rx.rxFrames
    let old := found.2.1.getD
      { sizeFrame := (headerSize vf).toInt
        cntFrame := (cntFrame vf).toNat
        numAllMsgs := (allMsgs vf).toNat
        numRxMsgs := 0
        frame := stack }
    let it := { old with
      numRxMsgs := old.numRxMsgs + 1
      frame := store old.frame (intSize * (idxFrame vf).toNat) (load vf msgVframeData (sizeFrame vf).toNat) }
    let rxFrames := found.1 ++ it :: found.2.2
    if it.numRxMsgs = it.numAllMsgs then
      ({ videoFrame := store (store vf 8 (bytes32 0)) 0 (bytes16 0)
         rxFrames := eraseFrames it.cntFrame rxFrames
         frameCnt := rx.frameCnt + 1 },
        some ⟨rx.frameCnt, load it.frame 0 it.sizeFrame.toNat⟩)
    else ({ rx with videoFrame := vf, rxFrames := rxFrames }, none)
  else ({ rx with videoFrame := vf }, none)

/-- What is dumped at each of the datagrams. -/
def receiveAll (stack : Nat → Mem Byte) : Receiver → List (List Byte) → List (Option Dump)
  | _, [] => []
  | rx, d :: ds =>
    let r := receive (stack ds.length) rx d
    r.2 :: receiveAll stack r.1 ds

end RcCarControl.Video
