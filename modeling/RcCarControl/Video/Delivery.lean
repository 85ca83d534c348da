import RcCarControl.Video.Streamer
import RcCarControl.Video.ReadVideoStream

/-!
# Delivery of a video frame

The datagrams of one frame, delivered once each and in order.  A frame that fits one datagram arrives.  For any other the
receiver counts the place of the second datagram in integers, so that no datagram covers the byte behind the first one's
data: there the dumped file has what was on the stack.  The number of datagrams that the sender announces is wrong too
for some sizes, as it divides by the size of a packet and not of the data in it.
-/

namespace RcCarControl.Video

open Interface LittleEndian Memory

/-! ### The wire -/

/-- The memory of `videoFrame` holds the message, of which `n` bytes were received. -/
structure Carries (vf : Mem Byte) (m : MsgVframe) (n : Nat) : Prop where
  magic : headerMagic vf = m.header.magic
  size : headerSize vf = m.header.size
  sizeFrame : sizeFrame vf = m.sizeFrame
  idxFrame : idxFrame vf = m.idxFrame
  cntFrame : cntFrame vf = m.cntFrame
  allMsgs : allMsgs vf = m.allMsgs
  data : ∀ k, msgVframeData + k ≤ n → load vf msgVframeData k = load m.frame 0 k

/-- What `sendto` takes from the structure `recvfrom` puts into the other. -/
theorem carries_toBytes (mem : Mem Byte) (m : MsgVframe) {n : Nat} (h : msgVframeData ≤ n)
    (hmax : n ≤ msgVframeMaxPacketSize) :
    Carries (store mem 0 ((m.toBytes n).take msgVframeMaxPacketSize)) m n := by
  have hlen : (m.toBytes n).length = n := by
    rw [m.length_toBytes]
    omega
  rw [List.take_of_length_le (by omega)]
  have hslice {o k : Nat} (hok : o + k ≤ msgVframeData) :
      load (store mem 0 (m.toBytes n)) o k = ((m.toBytes n).drop o).take k := load_store_zero mem (by omega)
  constructor
  · rw [headerMagic, hslice (by decide)]
    exact u16_bytes16 m.header.magic
  · rw [headerSize, hslice (by decide)]
    exact u32_bytes32 m.header.size
  · rw [Video.sizeFrame, hslice (by decide)]
    exact u32_bytes32 m.sizeFrame
  · rw [Video.idxFrame, hslice (by decide)]
    exact u32_bytes32 m.idxFrame
  · rw [Video.cntFrame, store_zero_apply]
    rfl
  · rw [Video.allMsgs, store_zero_apply]
    rfl
  · intro k hk
    rw [load_store_zero mem (by omega)]
    have hdrop : (m.toBytes n).drop msgVframeData = load m.frame 0 (n - msgVframeData) := rfl
    rw [hdrop, take_load _ _ (by omega)]

/-! ### The sender -/

theorem sendLoop_done (sendto : List Byte → Int) (b : List Byte) {vf : MsgVframe} {msgCounter : Nat} (cntMsg : Byte)
    (h : vf.header.size.toNat ≤ msgCounter) : sendLoop sendto b vf msgCounter cntMsg = ([], (msgCounter : Int)) := by
  rw [sendLoop, if_neg (by omega)]

/-- A buffer that is smaller than a packet is announced as one message. -/
theorem announce_one (frameCnt : Byte) (vf : MsgVframe) {b : List Byte} (h : b.length < msgVframeMaxPacketSize) :
    (announce frameCnt vf b).allMsgs = 1 := by
  have hpacket : msgVframeMaxPacketSize = 65496 := rfl
  have hlen : (BitVec.ofNat 32 b.length).toNat = b.length := by
    rw [BitVec.toNat_ofNat, Nat.mod_eq_of_lt (by omega)]
  have hdiv : (b.length + msgVframeMaxPacketSize) / msgVframeMaxPacketSize = 1 := by
    rw [hpacket]
    omega
  unfold announce
  simp only [hlen, hdiv]
  rfl

/-- A buffer that fits one datagram is sent in one. -/
theorem sendLoop_one {sendto : List Byte → Int} (hsend : ∀ d, 0 ≤ sendto d) {b : List Byte} {vf : MsgVframe}
    (hne : b ≠ []) (hsize : vf.header.size.toNat = b.length) (hmax : b.length ≤ msgVframeMaxFrameSize) :
    ∃ m : MsgVframe, (sendLoop sendto b vf 0 0).1 = [m.toBytes (b.length + msgVframeHeaderSize)] ∧
      m.header = vf.header ∧ m.allMsgs = vf.allMsgs ∧ m.sizeFrame = BitVec.ofNat 32 b.length ∧ m.idxFrame = 0 ∧
        m.frame = store vf.frame 0 b := by
  have hpos : 0 < b.length := List.length_pos_iff.2 hne
  have hfit : msgVframeMaxFrameSize + msgVframeHeaderSize = msgVframeMaxPacketSize := rfl
  have hbytes : min (b.length - 0 + msgVframeHeaderSize) msgVframeMaxPacketSize = b.length + msgVframeHeaderSize := by
    omega
  rw [sendLoop, if_pos (by omega)]
  simp only [hsize, hbytes, Nat.add_sub_cancel, List.drop_zero, List.take_length, if_neg (Int.not_lt.2 (hsend _))]
  rw [sendLoop_done _ _ _ (by simp [hsize])]
  exact ⟨_, rfl, rfl, rfl, rfl, rfl, rfl⟩

/-- Each datagram carries at most the data of one packet, and it begins at 0 or not before the end of the first one. -/
theorem sendLoop_datagrams {sendto : List Byte → Int} {b : List Byte} {vf : MsgVframe} {msgCounter : Nat} {cntMsg : Byte}
    (hc : msgCounter = 0 ∨ msgVframeMaxFrameSize ≤ msgCounter ∨ vf.header.size.toNat ≤ msgCounter) :
    ∀ d ∈ (sendLoop sendto b vf msgCounter cntMsg).1, ∃ m : MsgVframe, ∃ n, d = m.toBytes n ∧ msgVframeData ≤ n ∧
      n ≤ msgVframeMaxPacketSize ∧ m.sizeFrame.toNat ≤ msgVframeMaxFrameSize ∧
        (m.idxFrame.toNat = 0 ∨ msgVframeMaxFrameSize ≤ m.idxFrame.toNat) := by
  have h27 : msgVframeData = 27 := rfl
  have h28 : msgVframeHeaderSize = 28 := rfl
  have hframe : msgVframeMaxFrameSize = 65468 := rfl
  have hpacket : msgVframeMaxPacketSize = 65496 := rfl
  fun_induction sendLoop sendto b vf msgCounter cntMsg with
  | case1 => simp
  | case2 vf msgCounter cntMsg hlt sendBytes sizeFrame sent datagram hok r ih =>
    have hbytes : sendBytes = min (vf.header.size.toNat - msgCounter + msgVframeHeaderSize) msgVframeMaxPacketSize := rfl
    have hsize : sizeFrame = sendBytes - msgVframeHeaderSize := rfl
    have hword := vf.header.size.isLt
    intro d hd
    rcases List.mem_cons.1 hd with rfl | hd
    · refine ⟨sent, sendBytes, rfl, by omega, by omega, ?_, ?_⟩
      · show (BitVec.ofNat 32 sizeFrame).toNat ≤ _
        rw [BitVec.toNat_ofNat, Nat.mod_eq_of_lt (by omega)]
        omega
      · show (BitVec.ofNat 32 msgCounter).toNat = 0 ∨ _ ≤ (BitVec.ofNat 32 msgCounter).toNat
        rw [BitVec.toNat_ofNat, Nat.mod_eq_of_lt (by omega)]
        omega
    · exact ih (by show msgCounter + sizeFrame = 0 ∨ _ ∨ vf.header.size.toNat ≤ _; omega) d hd
  | case3 => simp

/-! ### The receiver -/

theorem findFrame_subset (cnt size : Int) (fs : List RxFrame) :
    (findFrame cnt size fs).1 ⊆ fs ∧ (findFrame cnt size fs).2.2 ⊆ fs ∧ ∀ f ∈ (findFrame cnt size fs).2.1, f ∈ fs := by
  induction fs with
  | nil => simp [findFrame]
  | cons f fs ih =>
    unfold findFrame
    split
    · split
      · exact ⟨by simp, by simp, by simp⟩
      · exact ⟨by simp, by simp, by simp⟩
    · obtain ⟨h₁, h₂, h₃⟩ := ih
      exact ⟨List.cons_subset_cons f h₁, fun g hg => List.mem_cons_of_mem _ (h₂ hg),
        fun g hg => List.mem_cons_of_mem _ (h₃ g hg)⟩

theorem eraseFrames_subset (cnt : Int) (fs : List RxFrame) : eraseFrames cnt fs ⊆ fs := by
  fun_induction eraseFrames cnt fs with
  | case1 => exact List.Subset.refl _
  | case2 f h => exact List.nil_subset _
  | case3 f h g gs ih =>
    intro x hx
    rcases List.mem_cons.1 hx with rfl | hx
    · simp
    · exact List.mem_cons_of_mem _ (List.mem_cons_of_mem _ (ih hx))
  | case4 f fs h ih => exact List.cons_subset_cons f ih

/-- The byte behind the data of a frame's first datagram keeps what the stack held. -/
theorem receive_uncovered {v : Byte} {stack : Mem Byte} {rx : Receiver} {m : MsgVframe} {n : Nat}
    (h : msgVframeData ≤ n) (hmax : n ≤ msgVframeMaxPacketSize) (hsize : m.sizeFrame.toNat ≤ msgVframeMaxFrameSize)
    (hidx : m.idxFrame.toNat = 0 ∨ msgVframeMaxFrameSize ≤ m.idxFrame.toNat) (hstack : stack msgVframeMaxFrameSize = v)
    (hrx : ∀ f ∈ rx.rxFrames, f.frame msgVframeMaxFrameSize = v) :
    (∀ f ∈ (receive stack rx (m.toBytes n)).1.rxFrames, f.frame msgVframeMaxFrameSize = v) ∧
      ∀ dump ∈ (receive stack rx (m.toBytes n)).2, ∀ x ∈ dump.contents[msgVframeMaxFrameSize]?, x = v := by
  have hcarries := carries_toBytes rx.videoFrame m h hmax
  unfold receive
  simp only [hcarries.size, hcarries.sizeFrame, hcarries.idxFrame, hcarries.cntFrame, hcarries.allMsgs]
  obtain ⟨hbefore, hafter, hfound⟩ := findFrame_subset m.cntFrame.toNat m.header.size.toInt rx.rxFrames
  generalize findFrame m.cntFrame.toNat m.header.size.toInt rx.rxFrames = found at hbefore hafter hfound ⊢
  have hcopy (old : Mem Byte) (data : List Byte) (hd : data.length = m.sizeFrame.toNat) :
      store old (intSize * m.idxFrame.toNat) data msgVframeMaxFrameSize = old msgVframeMaxFrameSize := by
    apply store_of_outside
    have hframe : msgVframeMaxFrameSize = 65468 := rfl
    rw [hd, show intSize = 4 from rfl]
    omega
  have hold (new : RxFrame) (hnew : new.frame = stack) : (found.2.1.getD new).frame msgVframeMaxFrameSize = v := by
    cases hf : found.2.1 with
    | none => rw [Option.getD_none, hnew, hstack]
    | some f => exact hrx f (hfound f hf)
  have hall (it : RxFrame) (hit : it.frame msgVframeMaxFrameSize = v) :
      ∀ f ∈ found.1 ++ it :: found.2.2, f.frame msgVframeMaxFrameSize = v := by
    intro f hf
    rcases List.mem_append.1 hf with hf | hf
    · exact hrx f (hbefore hf)
    · rcases List.mem_cons.1 hf with rfl | hf
      · exact hit
      · exact hrx f (hafter hf)
  split
  · split
    · constructor
      · intro f hf
        exact hall _ ((hcopy _ _ (length_load _ _ _)).trans (hold _ rfl)) f (eraseFrames_subset _ _ hf)
      · intro dump hdump x hx
        rw [Option.mem_some_iff] at hdump
        subst hdump
        rw [eq_of_getElem?_load hx, Nat.zero_add, hcopy _ _ (length_load _ _ _), hold _ rfl]
    · constructor
      · exact hall _ ((hcopy _ _ (length_load _ _ _)).trans (hold _ rfl))
      · simp
  · exact ⟨hrx, by simp⟩

/-! ### Both -/

/-- Exactly one file is dumped, at the last datagram, with the buffer as its contents, whatever the stack held. -/
def Delivered (datagrams : List (List Byte)) (b : List Byte) : Prop :=
  ∀ stack rx, rx.rxFrames = [] →
    ∃ n, receiveAll stack rx datagrams = List.replicate n none ++ [some ⟨rx.frameCnt, b⟩]

/-- What is dumped of a frame of several datagrams depends on the stack. -/
theorem receiveAll_uncovered {v : Byte} {stack : Nat → Mem Byte} {rx : Receiver} {ds : List (List Byte)}
    (hds : ∀ d ∈ ds, ∃ m : MsgVframe, ∃ n, d = m.toBytes n ∧ msgVframeData ≤ n ∧ n ≤ msgVframeMaxPacketSize ∧
      m.sizeFrame.toNat ≤ msgVframeMaxFrameSize ∧ (m.idxFrame.toNat = 0 ∨ msgVframeMaxFrameSize ≤ m.idxFrame.toNat))
    (hstack : ∀ k, stack k msgVframeMaxFrameSize = v) (hrx : ∀ f ∈ rx.rxFrames, f.frame msgVframeMaxFrameSize = v) :
    ∀ dump, some dump ∈ receiveAll stack rx ds → ∀ x ∈ dump.contents[msgVframeMaxFrameSize]?, x = v := by
  induction ds generalizing rx with
  | nil => simp [receiveAll]
  | cons d ds ih =>
    obtain ⟨m, n, rfl, h, hmax, hsize, hidx⟩ := hds _ List.mem_cons_self
    obtain ⟨hrx', hdump⟩ := receive_uncovered h hmax hsize hidx (hstack ds.length) hrx
    intro dump hmem
    unfold receiveAll at hmem
    rcases List.mem_cons.1 hmem with heq | hmem
    · exact hdump dump (Option.mem_def.2 heq.symm)
    · exact ih (fun d hd => hds d (List.mem_cons_of_mem _ hd)) hrx' dump hmem

theorem not_delivered {sendto : List Byte → Int} {maxFrame : Nat} {frameCnt : Byte} {vf : MsgVframe} {b : List Byte}
    (hlong : msgVframeMaxFrameSize < b.length) :
    ¬ Delivered (sendMulticastData maxFrame sendto frameCnt vf b).1.1 b := by
  intro h
  -- another byte on the stack than the one the file should have there
  have hb : b[msgVframeMaxFrameSize]? = some b[msgVframeMaxFrameSize] := List.getElem?_eq_getElem hlong
  obtain ⟨n, hn⟩ := h (fun _ _ => b[msgVframeMaxFrameSize] + 1) ⟨fun _ => 0, [], 0⟩ rfl
  have hmem : some ⟨0, b⟩ ∈ List.replicate n none ++ [some (Dump.mk 0 b)] := by simp
  rw [← hn] at hmem
  have hds : ∀ d ∈ (sendMulticastData maxFrame sendto frameCnt vf b).1.1, ∃ m : MsgVframe, ∃ n, d = m.toBytes n ∧
      msgVframeData ≤ n ∧ n ≤ msgVframeMaxPacketSize ∧ m.sizeFrame.toNat ≤ msgVframeMaxFrameSize ∧
        (m.idxFrame.toNat = 0 ∨ msgVframeMaxFrameSize ≤ m.idxFrame.toNat) := by
    unfold sendMulticastData
    split
    · simp
    · exact sendLoop_datagrams (Or.inl rfl)
  have hv := receiveAll_uncovered hds (fun _ => rfl) (by simp) _ hmem _ hb
  simp at hv

/-- A datagram that is announced as the only one of its frame is dumped at once, and the receiver keeps no frame. -/
theorem receive_only (stack : Mem Byte) {rx : Receiver} {m : MsgVframe} {n : Nat} (h : msgVframeData ≤ n)
    (hmax : n ≤ msgVframeMaxPacketSize) (hrx : rx.rxFrames = []) (hmagic : m.header.magic = rcciMsgInitMagic)
    (hall : m.allMsgs = 1) (hdata : msgVframeData + m.sizeFrame.toNat ≤ n) :
    (receive stack rx (m.toBytes n)).1.rxFrames = [] ∧
      (receive stack rx (m.toBytes n)).2 = some ⟨rx.frameCnt,
        load (store stack (intSize * m.idxFrame.toNat) (load m.frame 0 m.sizeFrame.toNat)) 0
          m.header.size.toInt.toNat⟩ := by
  have hcarries := carries_toBytes rx.videoFrame m h hmax
  unfold receive
  simp only [hcarries.magic, hcarries.size, hcarries.sizeFrame, hcarries.idxFrame, hcarries.cntFrame, hcarries.allMsgs,
    hcarries.data _ hdata, hmagic, hall, hrx, findFrame, if_true, Option.getD_none]
  rw [if_pos (by decide)]
  refine ⟨?_, rfl⟩
  simp [eraseFrames]

/-- A frame of one datagram is dumped when it is received. -/
theorem receive_one (stack : Mem Byte) {rx : Receiver} {m : MsgVframe} {n : Nat} (h : msgVframeData ≤ n)
    (hmax : n ≤ msgVframeMaxPacketSize) (hrx : rx.rxFrames = []) (hmagic : m.header.magic = rcciMsgInitMagic)
    (hall : m.allMsgs = 1) (hidx : m.idxFrame = 0) (hsize : m.header.size = m.sizeFrame)
    (hdata : msgVframeData + m.sizeFrame.toNat ≤ n) :
    (receive stack rx (m.toBytes n)).2 = some ⟨rx.frameCnt, load m.frame 0 m.sizeFrame.toNat⟩ := by
  have hpacket : msgVframeMaxPacketSize = 65496 := rfl
  have hint : m.sizeFrame.toInt.toNat = m.sizeFrame.toNat := by
    rw [BitVec.toInt_eq_toNat_of_lt (by omega), Int.toNat_natCast]
  have hcontents : load (store stack (intSize * 0) (load m.frame 0 m.sizeFrame.toNat)) 0 m.sizeFrame.toNat =
      load m.frame 0 m.sizeFrame.toNat := by
    rw [Nat.mul_zero, load_store_zero _ (by simp), List.drop_zero, List.take_of_length_le (by simp)]
  rw [(receive_only stack h hmax hrx hmagic hall hdata).2, hidx, hsize, hint]
  exact congrArg (fun contents => some (Dump.mk rx.frameCnt contents)) hcontents

/-- A buffer that fits one datagram arrives. -/
theorem delivered_of_le {sendto : List Byte → Int} (hsend : ∀ d, 0 ≤ sendto d) {maxFrame : Nat} (frameCnt : Byte)
    (vf : MsgVframe) {b : List Byte} (hne : b ≠ []) (hbound : b.length ≤ maxFrame)
    (hfit : b.length ≤ msgVframeMaxFrameSize) : Delivered (sendMulticastData maxFrame sendto frameCnt vf b).1.1 b := by
  have hframe : msgVframeMaxFrameSize = 65468 := rfl
  have hsum : msgVframeHeaderSize + msgVframeMaxFrameSize = msgVframeMaxPacketSize := rfl
  have hhead : msgVframeHeaderSize = msgVframeData + 1 := rfl
  have hlen : (BitVec.ofNat 32 b.length).toNat = b.length := by
    rw [BitVec.toNat_ofNat, Nat.mod_eq_of_lt (by omega)]
  have hload (mem : Mem Byte) : load (store mem 0 b) 0 b.length = b := by
    rw [load_store_zero _ (by omega), List.drop_zero, List.take_length]
  have hone := announce_one frameCnt vf (b := b) (by omega)
  intro stack rx hrx
  refine ⟨0, ?_⟩
  unfold sendMulticastData
  obtain ⟨m, hsent, hheader, hmsgs, hsize, hidx, hdata⟩ :=
    sendLoop_one hsend hne (show (announce frameCnt vf b).header.size.toNat = b.length from hlen) hfit
  have hrec : (receive (stack 0) rx (m.toBytes (b.length + msgVframeHeaderSize))).2 =
      some ⟨rx.frameCnt, load m.frame 0 m.sizeFrame.toNat⟩ :=
    receive_one (stack 0) (by omega) (by omega) hrx (by rw [hheader]; rfl) (hmsgs.trans hone) hidx
      (by rw [hheader, hsize]; rfl) (by rw [hsize, hlen]; omega)
  rw [hsize, hlen, hdata, hload] at hrec
  rw [if_neg (Nat.not_lt.2 hbound), hsent]
  exact congrArg (fun dump => [dump]) hrec

/-- The frame arrives exactly if it fits one datagram. -/
theorem delivered_iff {sendto : List Byte → Int} (hsend : ∀ d, 0 ≤ sendto d) {maxFrame : Nat} (frameCnt : Byte)
    (vf : MsgVframe) {b : List Byte} (hne : b ≠ []) (hbound : b.length ≤ maxFrame) :
    Delivered (sendMulticastData maxFrame sendto frameCnt vf b).1.1 b ↔ b.length ≤ msgVframeMaxFrameSize := by
  constructor
  · intro h
    by_contra hlong
    exact not_delivered (Nat.lt_of_not_le hlong) h
  · exact delivered_of_le hsend frameCnt vf hne hbound

/-- The structure on a stack of zeros. -/
def zeroVframe : MsgVframe := ⟨⟨0, 0, 0, 0, 0⟩, 0, 0, 0, 0, 0, fun _ => 0⟩

theorem delivered_iff_byte : Delivered (sendMulticastData 1 (fun d => d.length) 0 zeroVframe [0xFF]).1.1 [0xFF] ↔
    [(0xFF : Byte)].length ≤ msgVframeMaxFrameSize :=
  delivered_iff (fun d => by omega) 0 zeroVframe (by simp) (by simp)

/-- One byte more than fits one datagram. -/
theorem not_delivered_two_datagrams :
    ¬ Delivered (sendMulticastData 921600 (fun d => d.length) 0 zeroVframe (List.replicate 65469 0)).1.1
      (List.replicate 65469 0) :=
  not_delivered (by rw [List.length_replicate]; decide)

end RcCarControl.Video
