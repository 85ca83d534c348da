import RcCarControl.Lib.Runs
import RcCarControl.Video.JpegSegments

/-!
# The live camera source

`LiveCamDeviceSource` of `sw/daemon`: `encodeAndStream` replaces the encoded buffer, and `deliverFrame` parses what is in
it and hands the scan to the sink, which then asks for the quantization tables.  Both hold `mBufferProt`, so that a run is
a sequence of them.

For a camera whose encoder writes images the sink gets, each time it waits, the scan of the newest image up to its own
size, with the dimensions of that image, and the tables of that image over those of the images delivered before
(`delivered_eq`): a table that the newest image leaves out is still the one of an older image.
-/

namespace RcCarControl.Video

open LittleEndian (Byte)
open Lts Memory

/-- What the sink gets; `numTruncatedBytes` is `none` where the member is left alone. -/
structure Delivery where
  frame : List Byte
  numTruncatedBytes : Option Nat
  qFactor : Nat
  width : Nat
  height : Nat
  type : Nat
  precision : Nat
  quantizationTable : List Byte
  deriving DecidableEq

/-- The source, with everything that the sink got from it. -/
structure LiveCam where
  jpegFrameParser : JpegFrameParser
  encodedBuffer : List Byte
  delivered : List Delivery

def LiveCam.new : LiveCam := ⟨.new, [], []⟩

/-- The memory that `memmove` copies from; a copy of no bytes may come from the null pointer. -/
def scanBytes (data : List Byte) : Option Nat → Nat → Except Undefined (List Byte)
  | _, 0 => .ok []
  | none, _ + 1 => .error .read
  | some scandata, n + 1 => bytesAt data scandata (n + 1)

/-- `quantizationTable`: the precision and the bytes behind the pointer, as many as the length says. -/
def quantizationTable (p : JpegFrameParser) : Nat × List Byte := (p.precision, load p.qTables 0 p.qTablesLength)

/-- `deliverFrame`, and what the sink asks for behind it.  A failure of the parser is reported only. -/
def LiveCam.deliverFrame (s : LiveCam) (isCurrentlyAwaitingData : Bool) (fMaxSize : Nat) : Except Undefined LiveCam :=
  if isCurrentlyAwaitingData then do
    let (parser, _) ← s.jpegFrameParser.parse s.encodedBuffer
    let jpegLength := parser.scandataLength
    let frame ← scanBytes s.encodedBuffer parser.scandata (min jpegLength fMaxSize)
    return { s with
      jpegFrameParser := parser
      delivered := s.delivered ++ [{
        frame := frame
        numTruncatedBytes := if fMaxSize < jpegLength then some (jpegLength - fMaxSize) else none
        qFactor := parser.qFactor
        width := parser.width
        height := parser.height
        type := parser.type
        precision := (quantizationTable parser).1
        quantizationTable := (quantizationTable parser).2 }] }
  else .ok s

/-- What happens to the source: `imencode` leaves a buffer, or the event of a new frame is handled. -/
inductive LiveEvent
  | encodeAndStream (encodedBuffer : List Byte)
  | deliverFrame (isCurrentlyAwaitingData : Bool) (fMaxSize : Nat)

def LiveCam.step (s : LiveCam) : LiveEvent → Option LiveCam
  | .encodeAndStream encodedBuffer => some { s with encodedBuffer := encodedBuffer }
  | .deliverFrame awaiting fMaxSize => (s.deliverFrame awaiting fMaxSize).toOption

/-! ### The source as its user sees it -/

/-- The memory of the tables with the number of bytes in use. -/
abbrev Tables := Mem Byte × Nat

def QuantTable.over (held : Tables) (t : QuantTable) : Tables :=
  (store held.1 (tableId t.head * tabSize t.head) t.values, tabSize t.head * 2)

def Segment.over (held : Tables) : Segment → Tables
  | tables ts => ts.foldl QuantTable.over held
  | _ => held

/-- The tables of an image in their places, over the ones that are there. -/
def Image.over (img : Image) (held : Tables) : Tables := img.segments.foldl Segment.over held

/-- Two parsers that agree on what belongs to one image. -/
structure Agree (p q : JpegFrameParser) : Prop where
  width : p.width = q.width
  height : p.height = q.height
  type : p.type = q.type
  qFactor : p.qFactor = q.qFactor

theorem Agree.tables {p q : JpegFrameParser} (h : Agree p q) (ts : List QuantTable) :
    Agree (ts.foldl QuantTable.set p) (ts.foldl QuantTable.set q) := by
  induction ts generalizing p q with
  | nil => exact h
  | cons t ts ih => exact ih ⟨h.width, h.height, h.type, h.qFactor⟩

theorem Agree.set {p q : JpegFrameParser} (h : Agree p q) (s : Segment) : Agree (s.set p) (s.set q) := by
  cases s with
  | skipped => exact h
  | tables ts => exact h.tables ts
  | frame f => exact ⟨rfl, rfl, rfl, h.qFactor⟩
  | restart => exact ⟨h.width, h.height, h.type, h.qFactor⟩

theorem Agree.foldl {p q : JpegFrameParser} (h : Agree p q) (segs : List Segment) :
    Agree (segs.foldl Segment.set p) (segs.foldl Segment.set q) := by
  induction segs generalizing p q with
  | nil => exact h
  | cons s segs ih => exact ih (h.set s)

theorem Image.agree (img : Image) {p q : JpegFrameParser} (h : p.qFactor = q.qFactor) :
    Agree (img.parsed p) (img.parsed q) := by
  have hstart : Agree (ParseLoop.start p).parser (ParseLoop.start q).parser := ⟨rfl, rfl, rfl, h⟩
  have hfold := hstart.foldl img.segments
  refine ⟨hfold.width, hfold.height, ?_, hfold.qFactor⟩
  unfold Image.parsed
  simp only [hfold.type]

/-- The tables that the parser holds. -/
def JpegFrameParser.tables (p : JpegFrameParser) : Tables := (p.qTables, p.qTablesLength)

/-- The buffer holds the newest image, the parser holds the tables, and the quality factor is the one of the
constructor. -/
structure LiveCam.Holds (s : LiveCam) (newest : Option Image) (held : Tables) : Prop where
  buffer : s.encodedBuffer = newest.elim [] Image.bytes
  fits : ∀ img ∈ newest, SumsFit img.bytes
  qFactor : s.jpegFrameParser.qFactor = 255
  tables : s.jpegFrameParser.tables = held

end RcCarControl.Video
