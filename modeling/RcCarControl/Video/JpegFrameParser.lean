import Mathlib.Algebra.Ring.Nat
import Mathlib.Tactic.SplitIfs
import RcCarControl.Lib.LittleEndian
import RcCarControl.Lib.Memory

/-!
# The parser of JPEG frames

`JpegFrameParser` of `sw/daemon`, which takes the header of an encoded frame apart for the RTP stream.  A buffer is the
list of its bytes, and a read behind its end or a write behind the 256 bytes of `_qTables` is undefined (`Undefined`).
Offsets are `unsigned int`s, so that every sum is taken modulo 2³² (`uint`).
-/

namespace RcCarControl.Video

open LittleEndian (Byte)
open Memory

/-- What C++ does not define; `loop` says that the loop of `parse` took a pass for every byte and goes on. -/
inductive Undefined
  | read
  | write
  | loop
  deriving DecidableEq

def uint (x : Nat) : Nat := x % 2 ^ 32

def startMarker : Byte := 0xFF
def soiMarker : Byte := 0xD8
def jfifMarker : Byte := 0xE0
def cmtMarker : Byte := 0xFE
def dqtMarker : Byte := 0xDB
def sofMarker : Byte := 0xC0
def dhtMarker : Byte := 0xC4
def sosMarker : Byte := 0xDA
def eoiMarker : Byte := 0xD9
def driMarker : Byte := 0xDD

structure CompInfo where
  id : Byte
  samp : Byte
  qt : Byte
  deriving DecidableEq

/-- The members of the class.  `scandata` is the offset of the pointer in the buffer, `none` is the null pointer. -/
structure JpegFrameParser where
  width : Nat
  height : Nat
  type : Nat
  precision : Nat
  qFactor : Nat
  qTables : Mem Byte
  qTablesLength : Nat
  restartInterval : Nat
  scandata : Option Nat
  scandataLength : Nat

/-- The number of bytes that the constructor allocates for the tables. -/
def qTablesSize : Nat := 128 * 2

namespace JpegFrameParser

/-- The constructor. -/
def new : JpegFrameParser where
  width := 0
  height := 0
  type := 0
  precision := 0
  qFactor := 255
  qTables := fun _ => 8
  qTablesLength := 0
  restartInterval := 0
  scandata := none
  scandataLength := 0

end JpegFrameParser

/-! ### Reading the buffer -/

def byteAt (data : List Byte) (offset : Nat) : Except Undefined Byte :=
  if offset < data.length then .ok (data.getD offset 0) else .error .read

/-- `data[offset] << 8 | data[offset + 1]`, the function `_jpegHeaderSize`. -/
def jpegHeaderSize (data : List Byte) (offset : Nat) : Except Undefined Nat := do
  let hi ← byteAt data offset
  let lo ← byteAt data (offset + 1)
  .ok (hi ++ lo).toNat

/-- `while((data[(*offset)++] != START_MARKER) && ((*offset) < size))` from the bytes at `offset` on. -/
def skipToStart (size : Nat) : List Byte → Nat → Except Undefined Nat
  | [], _ => .error .read
  | b :: rest, offset =>
    if b ≠ startMarker ∧ offset + 1 < size then skipToStart size rest (offset + 1) else .ok (offset + 1)

/-- The next marker and the offset behind it. -/
def scanJpegMarker (data : List Byte) (offset : Nat) : Except Undefined (Byte × Nat) := do
  let offset ← skipToStart data.length (data.drop offset) offset
  if data.length ≤ offset then .ok (eoiMarker, offset)
  else
    let marker ← byteAt data offset
    .ok (marker, offset + 1)

/-! ### The segments -/

/-- `for(j = infolen; j > 1; j--)` with the assignment behind it: the first component is never moved. -/
def insertComp (info : Nat → CompInfo) (elem : CompInfo) : Nat → Nat → CompInfo
  | j + 2 =>
    if (info (j + 1)).id < elem.id then Function.update info (j + 2) elem
    else insertComp (Function.update info (j + 2) (info (j + 1))) elem (j + 1)
  | j => Function.update info j elem

/-- The loop over the components, `n` of them from `off` on. -/
def readComps (data : List Byte) : Nat → Nat → Nat → (Nat → CompInfo) → Except Undefined (Nat → CompInfo)
  | 0, _, _, info => .ok info
  | n + 1, off, infolen, info => do
    let id ← byteAt data off
    let samp ← byteAt data (off + 1)
    let qt ← byteAt data (off + 2)
    readComps data n (off + 3) (infolen + 1) (insertComp info ⟨id, samp, qt⟩ infolen)

/-- What `readSOF` does behind the three components. -/
def checkComps (p : JpegFrameParser) (info : Nat → CompInfo) : JpegFrameParser × Int :=
  if (info 0).samp = 0x21 ∨ (info 0).samp = 0x22 then
    let p := { p with type := if (info 0).samp = 0x21 then 0 else 1 }
    if (info 1).samp ≠ 0x11 then (p, -1)
    else if (info 2).samp ≠ 0x11 then (p, -1)
    else if (info 1).qt ≠ (info 2).qt then (p, -1)
    else (p, 0)
  else (p, -1)

/-- `readSOF`: the parser, the offset and the returned value. -/
def readSOF (p : JpegFrameParser) (data : List Byte) (offset : Nat) :
    Except Undefined (JpegFrameParser × Nat × Int) := do
  if data.length < uint (offset + 17) then return (p, offset, -1)
  let sofSize ← jpegHeaderSize data offset
  if sofSize < 17 then return (p, offset, -1)
  let next := uint (offset + sofSize)
  if (← byteAt data (offset + 2)) ≠ 8 then return (p, next, -1)
  let height ← jpegHeaderSize data (offset + 3)
  let width ← jpegHeaderSize data (offset + 5)
  if height = 0 ∨ 2040 < height then return (p, next, -1)
  if width = 0 ∨ 2040 < width then return (p, next, -1)
  let p := { p with width := width / 8, height := height / 8 }
  if (← byteAt data (offset + 7)) ≠ 3 then return (p, next, -1)
  let info ← readComps data 3 (offset + 8) 0 fun _ => ⟨0, 0, 0⟩
  let r := checkComps p info
  return (r.1, next, r.2)

/-- The bytes that `memcpy` takes from the buffer. -/
def bytesAt (data : List Byte) (offset n : Nat) : Except Undefined (List Byte) :=
  if offset + n ≤ data.length then .ok ((data.drop offset).take n) else .error .read

/-- The size of a table, by the precision in front of it. -/
def tabSize (b : Byte) : Nat := if (b &&& 0xf0) >>> 4 ≠ 0 then 128 else 64

def tableId (b : Byte) : Nat := (b &&& 0x0f).toNat

/-- The loop of `readDQT`; the fuel is at least `quantSize`, which goes down in every pass. -/
def readTables (data : List Byte) : Nat → JpegFrameParser → Nat → Nat → Except Undefined (JpegFrameParser × Nat)
  | 0, p, offset, quantSize => .ok (p, uint (offset + quantSize))
  | fuel + 1, p, offset, quantSize =>
    if quantSize = 0 ∨ data.length < uint (offset + 1) then .ok (p, uint (offset + quantSize))
    else do
      let b ← byteAt data offset
      if tableId b = 15 then return (p, uint (offset + quantSize))
      let p := { p with qTablesLength := tabSize b * 2 }
      if quantSize < tabSize b + 1 then return (p, uint (offset + quantSize))
      let table ← bytesAt data (uint (offset + 1)) (tabSize b)
      if qTablesSize < tableId b * tabSize b + tabSize b then throw .write
      readTables data fuel { p with qTables := store p.qTables (tableId b * tabSize b) table }
        (uint (offset + (tabSize b + 1))) (quantSize - (tabSize b + 1))

/-- `readDQT`: the parser and the returned offset. -/
def readDQT (p : JpegFrameParser) (data : List Byte) (offset : Nat) : Except Undefined (JpegFrameParser × Nat) := do
  if data.length < uint (offset + 2) then return (p, data.length)
  let quantSize ← jpegHeaderSize data offset
  if quantSize < 2 then return (p, data.length)
  let quantSize := if data.length < uint (offset + quantSize) then data.length - offset else quantSize
  readTables data (quantSize - 2) p (uint (offset + 2)) (quantSize - 2)

/-- `readDRI`: the parser, the offset and the returned value. -/
def readDRI (p : JpegFrameParser) (data : List Byte) (offset : Nat) :
    Except Undefined (JpegFrameParser × Nat × Int) := do
  if data.length < uint (offset + 4) then return (p, offset, -1)
  let driSize ← jpegHeaderSize data offset
  if driSize < 4 then return (p, uint (offset + driSize), -1)
  let restartInterval ← jpegHeaderSize data (offset + 2)
  return ({ p with restartInterval := restartInterval }, uint (offset + driSize), 0)

/-! ### The loop over the markers -/

/-- The local variables of `parse`. -/
structure ParseLoop where
  parser : JpegFrameParser
  offset : Nat
  dqtFound : Bool
  sosFound : Bool
  sofFound : Bool
  driFound : Bool
  headerSize : Nat

/-- Where a pass of the loop leads to. -/
inductive Pass
  | next (l : ParseLoop)
  | invalidFormat (p : JpegFrameParser)

/-- The `switch` on the marker, with the offset behind it. -/
def handleMarker (data : List Byte) (l : ParseLoop) (marker : Byte) (offset : Nat) : Except Undefined Pass := do
  if marker = jfifMarker ∨ marker = cmtMarker ∨ marker = dhtMarker then
    let n ← jpegHeaderSize data offset
    return .next { l with offset := uint (offset + n) }
  else if marker = sofMarker then
    let (p, offset, ret) ← readSOF l.parser data offset
    if ret ≠ 0 then return .invalidFormat p
    return .next { l with parser := p, offset := offset, sofFound := true }
  else if marker = dqtMarker then
    let (p, offset) ← readDQT l.parser data offset
    return .next { l with parser := p, offset := offset, dqtFound := true }
  else if marker = sosMarker then
    let n ← jpegHeaderSize data offset
    return .next { l with offset := offset, sosFound := true, headerSize := uint (offset + n) }
  else if marker = driMarker then
    let (p, offset, ret) ← readDRI l.parser data offset
    return .next { l with parser := p, offset := offset, driFound := l.driFound || ret == 0 }
  else
    -- a second SOI, an EOI in front of the scan and all other markers are passed over
    return .next { l with offset := offset }

def parsePass (data : List Byte) (l : ParseLoop) : Except Undefined Pass := do
  let (marker, offset) ← scanJpegMarker data l.offset
  handleMarker data l marker offset

def parseLoop (data : List Byte) : Nat → ParseLoop → Except Undefined Pass
  | fuel, l =>
    if l.sosFound = false ∧ l.offset < data.length then
      match fuel with
      | 0 => .error .loop
      | fuel + 1 => do
        match ← parsePass data l with
        | .next l => parseLoop data fuel l
        | .invalidFormat p => return .invalidFormat p
    else .ok (.next l)

/-- `parse` in front of its loop: everything but the tables is reset. -/
def ParseLoop.start (p : JpegFrameParser) : ParseLoop where
  parser := { p with
    width := 0, height := 0, type := 0, precision := 0, restartInterval := 0, scandata := none, scandataLength := 0 }
  offset := 0
  dqtFound := false
  sosFound := false
  sofFound := false
  driFound := false
  headerSize := 0

/-- `parse` behind its loop. -/
def ParseLoop.finish (l : ParseLoop) (size : Nat) : JpegFrameParser × Int :=
  if l.dqtFound = false ∨ l.sofFound = false then (l.parser, -1)
  else if l.parser.width = 0 ∨ l.parser.height = 0 then (l.parser, -1)
  else
    ({ l.parser with
        scandata := some l.headerSize
        scandataLength := uint (size + 2 ^ 32 - l.headerSize)
        type := if l.driFound then l.parser.type + 64 else l.parser.type }, 0)

/-- `parse`: the parser and the returned value. -/
def JpegFrameParser.parse (p : JpegFrameParser) (data : List Byte) : Except Undefined (JpegFrameParser × Int) := do
  match ← parseLoop data data.length (.start p) with
  | .next l => return l.finish data.length
  | .invalidFormat p => return (p, -1)

end RcCarControl.Video
