import Mathlib.Algebra.Ring.Nat
import RcCarControl.Video.Delivery

/-!
# The datagrams of one frame

`sendMulticastData` with the numbers it computes with: unsigned counters of 32 bits, and an `int` for the bytes to send.  As
long as the buffer and the header are smaller than 2³¹ bytes this is the sender of `Streamer` (`Machine.sendLoop_eq`).

The datagrams cut the buffer into pieces of 65468 bytes, in order and without gaps.  Their number is announced as if the
pieces were packets of 65496 bytes, and in a field of 8 bits; so it is right only for the sizes between 65496·m and
65468·(m + 1) with m below 255 (`cut_iff`).
-/

namespace RcCarControl.Video

open Interface LittleEndian Memory

/-! ### The loop -/

/-- `sendBytes`: the unsigned sum is stored in an `int`. -/
def sendBytes (rest : U32) : Int :=
  let sum := (rest + BitVec.ofNat 32 msgVframeHeaderSize).toInt
  if sum > msgVframeMaxPacketSize then msgVframeMaxPacketSize else sum

/-- `size_frame`, by which the counter goes up. -/
def frameBytes (rest : U32) : U32 := BitVec.ofInt 32 (sendBytes rest - msgVframeHeaderSize)

/-- An `int` as a `size_t` of 32 bits. -/
def sizeT (n : Int) : Nat := (BitVec.ofInt 32 n).toNat

theorem sendBytes_small {rest : U32} (h : rest.toNat + 28 < 2 ^ 31) :
    sendBytes rest = ((min (rest.toNat + msgVframeHeaderSize) msgVframeMaxPacketSize : Nat) : Int) := by
  have h28 : msgVframeHeaderSize = 28 := rfl
  have hpacket : msgVframeMaxPacketSize = 65496 := rfl
  have hsum : (rest + BitVec.ofNat 32 msgVframeHeaderSize).toInt = rest.toNat + 28 := by
    rw [h28, BitVec.toInt_eq_toNat_cond, BitVec.toNat_add]
    simp only [BitVec.toNat_ofNat]
    omega
  unfold sendBytes
  simp only [hsum]
  split
  · omega
  · omega

theorem frameBytes_small {rest : U32} (h : rest.toNat + 28 < 2 ^ 31) :
    (frameBytes rest).toNat = min rest.toNat msgVframeMaxFrameSize := by
  have h28 : msgVframeHeaderSize = 28 := rfl
  have hframe : msgVframeMaxFrameSize = 65468 := rfl
  have hpacket : msgVframeMaxPacketSize = 65496 := rfl
  unfold frameBytes
  rw [sendBytes_small h, BitVec.toNat_ofInt]
  omega

/-- A sum that does not fit in an `int` is negative or small, and the rest is one piece. -/
theorem sendBytes_large {rest : U32} (h : 2 ^ 31 ≤ rest.toNat + 28) :
    sendBytes rest = (rest + BitVec.ofNat 32 msgVframeHeaderSize).toInt := by
  have h28 : msgVframeHeaderSize = 28 := rfl
  have hpacket : msgVframeMaxPacketSize = 65496 := rfl
  have hword := rest.isLt
  have hsum : (rest + BitVec.ofNat 32 msgVframeHeaderSize).toInt ≤ 28 := by
    rw [h28, BitVec.toInt_eq_toNat_cond, BitVec.toNat_add]
    simp only [BitVec.toNat_ofNat]
    omega
  unfold sendBytes
  exact if_neg (by omega)

theorem frameBytes_large {rest : U32} (h : 2 ^ 31 ≤ rest.toNat + 28) : frameBytes rest = rest := by
  have hhead : ((msgVframeHeaderSize : Nat) : Int) = (BitVec.ofNat 32 msgVframeHeaderSize).toInt := rfl
  unfold frameBytes
  rw [sendBytes_large h, Int.sub_eq_add_neg, BitVec.ofInt_add, BitVec.ofInt_neg, hhead, BitVec.ofInt_toInt,
    BitVec.ofInt_toInt, ← BitVec.sub_eq_add_neg, BitVec.add_sub_cancel]

/-- A turn of the loop makes progress, and does not go beyond the end. -/
theorem frameBytes_bounds (rest : U32) (h : 0 < rest.toNat) :
    0 < (frameBytes rest).toNat ∧ (frameBytes rest).toNat ≤ rest.toNat := by
  have hframe : msgVframeMaxFrameSize = 65468 := rfl
  by_cases hsmall : rest.toNat + 28 < 2 ^ 31
  · rw [frameBytes_small hsmall]
    omega
  · rw [frameBytes_large (Nat.not_lt.1 hsmall)]
    exact ⟨h, Nat.le_refl _⟩

theorem toNat_rest {size msgCounter : U32} (h : msgCounter < size) :
    (size - msgCounter).toNat = size.toNat - msgCounter.toNat := by
  rw [BitVec.toNat_sub_of_le (BitVec.le_of_lt h)]

theorem toNat_next {size msgCounter : U32} (h : msgCounter < size) :
    (msgCounter + frameBytes (size - msgCounter)).toNat = msgCounter.toNat + (frameBytes (size - msgCounter)).toNat := by
  have hlt : msgCounter.toNat < size.toNat := h
  have hrest := toNat_rest h
  have hword := size.isLt
  obtain ⟨-, hle⟩ := frameBytes_bounds (size - msgCounter) (by omega)
  rw [BitVec.toNat_add]
  exact Nat.mod_eq_of_lt (by omega)

/-- The loop of `sendMulticastData`. -/
def Machine.sendLoop (sendto : List Byte → Int) (encodedBuffer : List Byte) (videoFrame : MsgVframe) (msgCounter : U32)
    (cntMsg : Byte) : List (List Byte) × Int :=
  if msgCounter < videoFrame.header.size then
    let rest := videoFrame.header.size - msgCounter
    let sent := { videoFrame with
      sizeFrame := frameBytes rest
      idxFrame := msgCounter
      curMsg := cntMsg
      frame := store videoFrame.frame 0 ((encodedBuffer.drop msgCounter.toNat).take (frameBytes rest).toNat) }
    let datagram := sent.toBytes (sizeT (sendBytes rest))
    if sendto datagram < 0 then ([], sendto datagram)
    else
      let r := Machine.sendLoop sendto encodedBuffer sent (msgCounter + frameBytes rest) (cntMsg + 1)
      (datagram :: r.1, r.2)
  else ([], msgCounter.toInt)
termination_by videoFrame.header.size.toNat - msgCounter.toNat
decreasing_by
  next h _ =>
    have hlt : msgCounter.toNat < videoFrame.header.size.toNat := h
    have hrest := toNat_rest h
    obtain ⟨hpos, hle⟩ := frameBytes_bounds (videoFrame.header.size - msgCounter) (by omega)
    show videoFrame.header.size.toNat - (msgCounter + frameBytes (videoFrame.header.size - msgCounter)).toNat < _
    rw [toNat_next h]
    omega

/-- `sendMulticastData` behind the encoding, on an existing stream. -/
def Machine.sendMulticastData (maxFrame : Nat) (sendto : List Byte → Int) (frameCnt : Byte) (videoFrame : MsgVframe)
    (encodedBuffer : List Byte) : (List (List Byte) × Int) × Byte :=
  if maxFrame < encodedBuffer.length then (([], -1), frameCnt)
  else (Machine.sendLoop sendto encodedBuffer (announce frameCnt videoFrame encodedBuffer) 0 0, frameCnt + 1)

theorem sizeT_sendBytes {rest : U32} (h : rest.toNat + 28 < 2 ^ 31) :
    sizeT (sendBytes rest) = min (rest.toNat + msgVframeHeaderSize) msgVframeMaxPacketSize := by
  have hpacket : msgVframeMaxPacketSize = 65496 := rfl
  unfold sizeT
  rw [sendBytes_small h, BitVec.ofInt_natCast, BitVec.toNat_ofNat]
  exact Nat.mod_eq_of_lt (by omega)

/-- A turn of the sender of `Streamer`, in the numbers of the machine. -/
theorem sendLoop_turn (sendto : List Byte → Int) (b : List Byte) {vf : MsgVframe} {msgCounter rest : U32} (cntMsg : Byte)
    (hlt : msgCounter.toNat < vf.header.size.toNat) (hrest : rest.toNat = vf.header.size.toNat - msgCounter.toNat)
    (hsmall : rest.toNat + 28 < 2 ^ 31) :
    Video.sendLoop sendto b vf msgCounter.toNat cntMsg =
      let sent := { vf with
        sizeFrame := frameBytes rest
        idxFrame := msgCounter
        curMsg := cntMsg
        frame := store vf.frame 0 ((b.drop msgCounter.toNat).take (frameBytes rest).toNat) }
      let datagram := sent.toBytes (sizeT (sendBytes rest))
      if sendto datagram < 0 then ([], sendto datagram)
      else
        let r := Video.sendLoop sendto b sent (msgCounter.toNat + (frameBytes rest).toNat) (cntMsg + 1)
        (datagram :: r.1, r.2) := by
  have h28 : msgVframeHeaderSize = 28 := rfl
  have hframe : msgVframeMaxFrameSize = 65468 := rfl
  have hpacket : msgVframeMaxPacketSize = 65496 := rfl
  have hchunk : (frameBytes rest).toNat =
      min (rest.toNat + msgVframeHeaderSize) msgVframeMaxPacketSize - msgVframeHeaderSize := by
    rw [frameBytes_small hsmall]
    omega
  rw [Video.sendLoop, if_pos hlt]
  simp only [← hrest, ← hchunk, BitVec.ofNat_toNat, BitVec.setWidth_eq]
  simp only [← sizeT_sendBytes hsmall]

/-- Below 2³¹ bytes the numbers are as large as they should be. -/
theorem Machine.sendLoop_eq (sendto : List Byte → Int) (b : List Byte) (vf : MsgVframe) (msgCounter : U32)
    (cntMsg : Byte) (hsize : vf.header.size.toNat + 28 < 2 ^ 31) (hle : msgCounter.toNat ≤ vf.header.size.toNat) :
    Machine.sendLoop sendto b vf msgCounter cntMsg = Video.sendLoop sendto b vf msgCounter.toNat cntMsg := by
  fun_induction Machine.sendLoop sendto b vf msgCounter cntMsg with
  | case1 vf msgCounter cntMsg hlt rest sent datagram herr =>
    have hnat : msgCounter.toNat < vf.header.size.toNat := hlt
    have hrest : rest.toNat = vf.header.size.toNat - msgCounter.toNat := toNat_rest hlt
    rw [sendLoop_turn sendto b cntMsg hnat hrest (by omega)]
    exact (if_pos herr).symm
  | case2 vf msgCounter cntMsg hlt rest sent datagram hok r ih =>
    have hnat : msgCounter.toNat < vf.header.size.toNat := hlt
    have hrest : rest.toNat = vf.header.size.toNat - msgCounter.toNat := toNat_rest hlt
    have hnext : (msgCounter + frameBytes rest).toNat = msgCounter.toNat + (frameBytes rest).toNat := toNat_next hlt
    obtain ⟨-, hbound⟩ := frameBytes_bounds rest (by omega)
    have hloop : r = Video.sendLoop sendto b sent (msgCounter.toNat + (frameBytes rest).toNat) (cntMsg + 1) := by
      rw [← hnext]
      exact ih hsize (by show (msgCounter + frameBytes rest).toNat ≤ vf.header.size.toNat; omega)
    rw [sendLoop_turn sendto b cntMsg hnat hrest (by omega)]
    rw [hloop]
    exact (if_neg hok).symm
  | case3 vf msgCounter cntMsg hge =>
    have hnat : ¬ msgCounter.toNat < vf.header.size.toNat := hge
    rw [Video.sendLoop, if_neg hnat, BitVec.toInt_eq_toNat_of_lt (by omega)]

/-! ### The pieces -/

def sizeOf (d : List Byte) : Nat := (u32 d 16).toNat
def idxOf (d : List Byte) : Nat := (u32 d 20).toNat
def allOf (d : List Byte) : Byte := d.getD 25 0
def curOf (d : List Byte) : Byte := d.getD 26 0

/-- The fields of a datagram, and its data. -/
theorem toBytes_fields (m : MsgVframe) {n : Nat} (h : msgVframeData + m.sizeFrame.toNat ≤ n) :
    sizeOf (m.toBytes n) = m.sizeFrame.toNat ∧ idxOf (m.toBytes n) = m.idxFrame.toNat ∧ allOf (m.toBytes n) = m.allMsgs ∧
      curOf (m.toBytes n) = m.curMsg ∧
        ((m.toBytes n).drop msgVframeData).take m.sizeFrame.toNat = load m.frame 0 m.sizeFrame.toNat := by
  have hsize : u32 (m.toBytes n) 16 = u32 (bytes32 m.sizeFrame) 0 := rfl
  have hidx : u32 (m.toBytes n) 20 = u32 (bytes32 m.idxFrame) 0 := rfl
  refine ⟨?_, ?_, rfl, rfl, ?_⟩
  · unfold sizeOf
    rw [hsize, u32_bytes32]
  · unfold idxOf
    rw [hidx, u32_bytes32]
  · have hdrop : (m.toBytes n).drop msgVframeData = load m.frame 0 (n - msgVframeData) := rfl
    rw [hdrop, take_load _ _ (by omega)]

/-- The piece of `b` that begins at `start`, with a number of datagrams announced and a number of its own. -/
structure Piece (b : List Byte) (all : Byte) (start : Nat) (cur : Byte) (d : List Byte) : Prop where
  idx : idxOf d = start
  size : sizeOf d = min (b.length - start) msgVframeMaxFrameSize
  short : d.length ≤ msgVframeMaxPacketSize
  whole : msgVframeData + sizeOf d ≤ d.length
  data : (d.drop msgVframeData).take (sizeOf d) = (b.drop start).take (sizeOf d)
  all : allOf d = all
  cur : curOf d = cur

/-- The datagrams are the pieces of `b` from `start` on. -/
inductive Pieces (b : List Byte) (all : Byte) : Nat → Byte → List (List Byte) → Prop
  | done {start : Nat} {cur : Byte} : b.length ≤ start → Pieces b all start cur []
  | piece {start : Nat} {cur : Byte} {d : List Byte} {ds : List (List Byte)} :
      start < b.length → Piece b all start cur d → Pieces b all (start + sizeOf d) (cur + 1) ds →
        Pieces b all start cur (d :: ds)

/-- The loop sends the pieces. -/
theorem sendLoop_pieces {sendto : List Byte → Int} (hsend : ∀ d, 0 ≤ sendto d) {b : List Byte} {vf : MsgVframe}
    (msgCounter : Nat) (cntMsg : Byte) (hsize : vf.header.size.toNat = b.length) :
    Pieces b vf.allMsgs msgCounter cntMsg (Video.sendLoop sendto b vf msgCounter cntMsg).1 := by
  have h27 : msgVframeData = 27 := rfl
  have h28 : msgVframeHeaderSize = 28 := rfl
  have hframe : msgVframeMaxFrameSize = 65468 := rfl
  have hpacket : msgVframeMaxPacketSize = 65496 := rfl
  fun_induction Video.sendLoop sendto b vf msgCounter cntMsg with
  | case1 vf msgCounter cntMsg hlt sendBytes sizeFrame sent datagram herr =>
    exact absurd (hsend datagram) (Int.not_le.2 herr)
  | case2 vf msgCounter cntMsg hlt sendBytes sizeFrame sent datagram hok r ih =>
    have hbytes : sendBytes = min (vf.header.size.toNat - msgCounter + msgVframeHeaderSize) msgVframeMaxPacketSize := rfl
    have hchunk : sizeFrame = sendBytes - msgVframeHeaderSize := rfl
    have hword := vf.header.size.isLt
    have hsent : sent.sizeFrame.toNat = sizeFrame := by
      show (BitVec.ofNat 32 sizeFrame).toNat = sizeFrame
      rw [BitVec.toNat_ofNat, Nat.mod_eq_of_lt (by omega)]
    obtain ⟨hsizeOf, hidxOf, hall, hcur, hdata⟩ := toBytes_fields sent (n := sendBytes) (by omega)
    rw [hsent] at hsizeOf hdata
    change sizeOf datagram = sizeFrame at hsizeOf
    have hidx : idxOf datagram = msgCounter := by
      rw [hidxOf]
      show (BitVec.ofNat 32 msgCounter).toNat = msgCounter
      rw [BitVec.toNat_ofNat, Nat.mod_eq_of_lt (by omega)]
    have hlength : datagram.length = sendBytes := by
      rw [sent.length_toBytes]
      omega
    refine Pieces.piece (by omega) ⟨hidx, by omega, by omega, by omega, ?_, hall, hcur⟩ ?_
    · rw [hsizeOf, hdata]
      show load (store vf.frame 0 ((b.drop msgCounter).take sizeFrame)) 0 sizeFrame = _
      rw [load_store_zero _ (by rw [List.length_take, List.length_drop]; omega), List.drop_zero, List.take_take,
        Nat.min_self]
    · rw [hsizeOf]
      exact ih hsize
  | case3 vf msgCounter cntMsg hge =>
    exact Pieces.done (by omega)

/-! ### The frame is cut -/

/-- The intervals of the datagrams cover `from` to `to` in order, without gaps. -/
def Consecutive : Nat → List (List Byte) → Nat → Prop
  | start, [], stop => start = stop
  | start, d :: ds, stop => idxOf d = start ∧ 0 < sizeOf d ∧ Consecutive (start + sizeOf d) ds stop

/-- The datagrams are the frame `b`, cut into numbered pieces. -/
structure Cut (b : List Byte) (ds : List (List Byte)) : Prop where
  partition : Consecutive 0 ds b.length
  short : ∀ d ∈ ds, d.length ≤ msgVframeMaxPacketSize
  whole : ∀ d ∈ ds, msgVframeData + sizeOf d ≤ d.length ∧
    (d.drop msgVframeData).take (sizeOf d) = (b.drop (idxOf d)).take (sizeOf d)
  counted : ∀ k d, ds[k]? = some d → (allOf d).toNat = ds.length ∧ (curOf d).toNat = k

section

variable {b : List Byte} {all cur : Byte} {start : Nat} {ds : List (List Byte)}

theorem Pieces.consecutive (h : Pieces b all start cur ds) (hle : start ≤ b.length) :
    Consecutive start ds b.length := by
  have hframe : msgVframeMaxFrameSize = 65468 := rfl
  induction h with
  | done hge => exact Nat.le_antisymm hle hge
  | piece hlt hd _ ih =>
    have hsize := hd.size
    exact ⟨hd.idx, by omega, ih (by omega)⟩

theorem Pieces.length_eq (h : Pieces b all start cur ds) :
    ds.length = (b.length - start + 65467) / msgVframeMaxFrameSize := by
  have hframe : msgVframeMaxFrameSize = 65468 := rfl
  induction h with
  | done hge =>
    rw [hframe]
    exact (Nat.div_eq_of_lt (by omega)).symm
  | piece hlt hd _ ih =>
    have hsize := hd.size
    rw [List.length_cons, ih, hframe]
    omega

theorem Pieces.short (h : Pieces b all start cur ds) : ∀ d ∈ ds, d.length ≤ msgVframeMaxPacketSize := by
  induction h with
  | done => simp
  | piece _ hd _ ih =>
    intro d hmem
    rcases List.mem_cons.1 hmem with rfl | hmem
    · exact hd.short
    · exact ih d hmem

theorem Pieces.whole (h : Pieces b all start cur ds) : ∀ d ∈ ds, msgVframeData + sizeOf d ≤ d.length ∧
    (d.drop msgVframeData).take (sizeOf d) = (b.drop (idxOf d)).take (sizeOf d) := by
  induction h with
  | done => simp
  | piece _ hd _ ih =>
    intro d hmem
    rcases List.mem_cons.1 hmem with rfl | hmem
    · exact ⟨hd.whole, by rw [hd.idx]; exact hd.data⟩
    · exact ih d hmem

/-- The pieces are numbered from `cur` on, in 8 bits. -/
theorem Pieces.counted (h : Pieces b all start cur ds) :
    ∀ k d, ds[k]? = some d → allOf d = all ∧ curOf d = cur + BitVec.ofNat 8 k := by
  induction h with
  | done => simp
  | @piece start cur d ds _ hd _ ih =>
    intro k e hk
    cases k with
    | zero =>
      cases hk
      exact ⟨hd.all, by rw [hd.cur]; exact (BitVec.add_zero cur).symm⟩
    | succ k =>
      obtain ⟨hall, hcur⟩ := ih k e hk
      refine ⟨hall, ?_⟩
      rw [hcur, BitVec.add_assoc, Nat.add_comm k 1, BitVec.ofNat_add]
      rfl

/-- The pieces of a frame are right if the announced number is. -/
theorem Pieces.right_iff (h : Pieces b all 0 0 ds) (hne : b ≠ []) : Cut b ds ↔ all.toNat = ds.length := by
  have hframe : msgVframeMaxFrameSize = 65468 := rfl
  have hpos : 0 < b.length := List.length_pos_iff.2 hne
  have hlength := h.length_eq
  constructor
  · intro hcut
    obtain ⟨d, hd⟩ : ∃ d, ds[0]? = some d := ⟨_, List.getElem?_eq_getElem (by rw [hlength, hframe]; omega)⟩
    rw [← (h.counted 0 d hd).1]
    exact (hcut.counted 0 d hd).1
  · intro hall
    refine ⟨h.consecutive (Nat.zero_le _), h.short, h.whole, ?_⟩
    intro k d hk
    obtain ⟨hallOf, hcurOf⟩ := h.counted k d hk
    obtain ⟨hlt, -⟩ := List.getElem?_eq_some_iff.1 hk
    have hbyte := all.isLt
    refine ⟨by rw [hallOf, hall], ?_⟩
    rw [hcurOf, show (0 : Byte) + BitVec.ofNat 8 k = BitVec.ofNat 8 k from BitVec.zero_add _, BitVec.toNat_ofNat]
    exact Nat.mod_eq_of_lt (by omega)

end

/-- The sizes for which the announced number is right. -/
def InBand (n : Nat) : Prop := ∃ m < 255, 65496 * m ≤ n ∧ n ≤ 65468 * (m + 1)

theorem announced_iff {n : Nat} (h : 0 < n) :
    (n + 65496) / 65496 % 256 = (n + 65467) / 65468 ↔ InBand n := by
  constructor
  · intro hall
    exact ⟨n / 65496, by omega, by omega, by omega⟩
  · rintro ⟨m, hm, hlow, hhigh⟩
    have hcount : (n + 65496) / 65496 = m + 1 := by omega
    have hpieces : (n + 65467) / 65468 = m + 1 := by omega
    rw [hcount, hpieces]
    exact Nat.mod_eq_of_lt (by omega)

section

variable {sendto : List Byte → Int} {maxFrame : Nat} {b : List Byte}

/-- A buffer that fits an `int` with the header is cut right exactly for these sizes. -/
theorem cut_iff_small (hsend : ∀ d, 0 ≤ sendto d) (frameCnt : Byte) (vf : MsgVframe) (hne : b ≠ [])
    (hlt : b.length + 28 < 2 ^ 31) (hbound : b.length ≤ maxFrame) :
    Cut b (Machine.sendMulticastData maxFrame sendto frameCnt vf b).1.1 ↔ InBand b.length := by
  have hframe : msgVframeMaxFrameSize = 65468 := rfl
  have hpacket : msgVframeMaxPacketSize = 65496 := rfl
  have hpos : 0 < b.length := List.length_pos_iff.2 hne
  have hlen : (BitVec.ofNat 32 b.length).toNat = b.length := by
    rw [BitVec.toNat_ofNat, Nat.mod_eq_of_lt (by omega)]
  have hsize : (announce frameCnt vf b).header.size.toNat = b.length := hlen
  have hall : (announce frameCnt vf b).allMsgs.toNat = (b.length + 65496) / 65496 % 256 := by
    unfold announce
    simp only [hlen, hpacket]
    exact BitVec.toNat_ofNat _ 8
  unfold Machine.sendMulticastData
  rw [if_neg (Nat.not_lt.2 hbound)]
  simp only
  rw [Machine.sendLoop_eq sendto b _ 0 0 (by omega) (by simp)]
  have hpieces : Pieces b _ 0 0 (Video.sendLoop sendto b (announce frameCnt vf b) (0 : U32).toNat 0).1 :=
    sendLoop_pieces hsend 0 0 hsize
  rw [← announced_iff hpos, hpieces.right_iff hne, hall, hpieces.length_eq, hframe, Nat.sub_zero]

theorem Machine.sendLoop_first (hsend : ∀ d, 0 ≤ sendto d) (b : List Byte) (vf : MsgVframe)
    (hsize : 0 < vf.header.size.toNat) :
    ∃ m : MsgVframe, m.toBytes (sizeT (sendBytes vf.header.size)) ∈ (Machine.sendLoop sendto b vf 0 0).1 := by
  have hlt : (0 : U32) < vf.header.size := hsize
  have hrest : vf.header.size - (0 : U32) = vf.header.size := BitVec.sub_zero _
  rw [Machine.sendLoop, if_pos hlt]
  simp only [hrest, if_neg (Int.not_lt.2 (hsend _))]
  exact ⟨_, List.mem_cons_self⟩

/-- A larger one goes out as one datagram that is too long. -/
theorem not_cut_large (hsend : ∀ d, 0 ≤ sendto d) (frameCnt : Byte) (vf : MsgVframe)
    (hlt : b.length < 2 ^ 31) (hlarge : 2 ^ 31 ≤ b.length + 28) (hbound : b.length ≤ maxFrame) :
    ¬ Cut b (Machine.sendMulticastData maxFrame sendto frameCnt vf b).1.1 := by
  have h27 : msgVframeData = 27 := rfl
  have h28 : msgVframeHeaderSize = 28 := rfl
  have hpacket : msgVframeMaxPacketSize = 65496 := rfl
  have hlen : (BitVec.ofNat 32 b.length).toNat = b.length := by
    rw [BitVec.toNat_ofNat, Nat.mod_eq_of_lt (by omega)]
  have hbytes : sizeT (sendBytes (BitVec.ofNat 32 b.length)) = b.length + 28 := by
    unfold sizeT
    rw [sendBytes_large (by omega), BitVec.ofInt_toInt, BitVec.toNat_add, hlen, h28]
    exact Nat.mod_eq_of_lt (by simp; omega)
  obtain ⟨m, hm⟩ := Machine.sendLoop_first hsend b (announce frameCnt vf b)
    (by show 0 < (BitVec.ofNat 32 b.length).toNat; omega)
  intro hcut
  unfold Machine.sendMulticastData at hcut
  rw [if_neg (Nat.not_lt.2 hbound)] at hcut
  have hshort := hcut.short _ hm
  rw [m.length_toBytes] at hshort
  change _ + (sizeT (sendBytes (BitVec.ofNat 32 b.length)) - _) ≤ _ at hshort
  omega

/-- The datagrams are the frame, cut into numbered pieces, exactly for these sizes. -/
theorem cut_iff (hsend : ∀ d, 0 ≤ sendto d) (frameCnt : Byte) (vf : MsgVframe) (hne : b ≠ [])
    (hlt : b.length < 2 ^ 31) (hbound : b.length ≤ maxFrame) :
    Cut b (Machine.sendMulticastData maxFrame sendto frameCnt vf b).1.1 ↔ InBand b.length := by
  by_cases hsmall : b.length + 28 < 2 ^ 31
  · exact cut_iff_small hsend frameCnt vf hne hsmall hbound
  · constructor
    · intro hcut
      exact absurd hcut (not_cut_large hsend frameCnt vf hlt (by omega) hbound)
    · rintro ⟨m, hm, -, hhigh⟩
      omega

end

theorem cut_iff_byte : Cut [0xFF] (Machine.sendMulticastData 1 (fun d => d.length) 0 zeroVframe [0xFF]).1.1 ↔
    InBand [(0xFF : Byte)].length :=
  cut_iff (fun d => by omega) 0 zeroVframe (by simp) (by simp) (by simp)

/-- One byte more than fits one datagram: two are sent, and one is announced. -/
theorem not_cut_two_datagrams :
    ¬ Cut (List.replicate 65469 0)
      (Machine.sendMulticastData 921600 (fun d => d.length) 0 zeroVframe (List.replicate 65469 0)).1.1 := by
  have hlength : (List.replicate 65469 (0 : Byte)).length = 65469 := List.length_replicate
  rw [cut_iff_small (fun d => by omega) 0 zeroVframe (by rw [← List.length_pos_iff, hlength]; decide)
    (by rw [hlength]; decide) (by rw [hlength]; decide), hlength]
  rintro ⟨m, -, hlow, hhigh⟩
  omega

end RcCarControl.Video
