import RcCarControl.Video.Delivery

/-!
# Reassembly of a sequence of frames

Any number of frames on a network that loses, repeats and reorders their datagrams.  While each frame fits one datagram
the receiver never keeps a part of one: every datagram is a frame and is dumped at once.  A longer frame shows the
stack in its dump already when its first datagram arrives.
-/

namespace RcCarControl.Video

open Interface LittleEndian Memory

/-- A call of `sendMulticastData`: what the structure on its stack holds, what `sendto` returns, and the buffer. -/
structure Sending where
  videoFrame : MsgVframe
  sendto : List Byte → Int
  encodedBuffer : List Byte

/-- The datagrams of the calls, one after the other, from this value of the frame counter. -/
def sendFrames (maxFrame : Nat) : Byte → List Sending → List (List Byte)
  | _, [] => []
  | frameCnt, f :: fs =>
    let r := sendMulticastData maxFrame f.sendto frameCnt f.videoFrame f.encodedBuffer
    r.1.1 ++ sendFrames maxFrame r.2 fs

/-- Whichever of the datagrams arrive, how often and in which order: what is dumped is one of the frames. -/
def Faithful (maxFrame : Nat) (frameCnt : Byte) (frames : List Sending) : Prop :=
  ∀ ds : List (List Byte), ds ⊆ sendFrames maxFrame frameCnt frames →
    ∀ stack rx, rx.rxFrames = [] → ∀ dump, some dump ∈ receiveAll stack rx ds →
      ∃ f ∈ frames, f.encodedBuffer.length ≤ maxFrame ∧ dump.contents = f.encodedBuffer

/-! ### Frames of one datagram -/

/-- The datagram is a whole frame with the contents `b`. -/
def Whole (d b : List Byte) : Prop :=
  ∃ m : MsgVframe, d = m.toBytes (b.length + msgVframeHeaderSize) ∧ m.header.magic = rcciMsgInitMagic ∧
    m.allMsgs = 1 ∧ m.idxFrame = 0 ∧ m.header.size = m.sizeFrame ∧ m.sizeFrame.toNat = b.length ∧
      load m.frame 0 b.length = b

theorem whole_of_mem {sendto : List Byte → Int} {maxFrame : Nat} {frameCnt : Byte} {vf : MsgVframe} {b d : List Byte}
    (hfit : b.length ≤ msgVframeMaxFrameSize) (hd : d ∈ (sendMulticastData maxFrame sendto frameCnt vf b).1.1) :
    b.length ≤ maxFrame ∧ Whole d b := by
  have hframe : msgVframeMaxFrameSize = 65468 := rfl
  have hpacket : msgVframeMaxPacketSize = 65496 := rfl
  have hhead : msgVframeHeaderSize = 28 := rfl
  have hlen : (BitVec.ofNat 32 b.length).toNat = b.length := by
    rw [BitVec.toNat_ofNat, Nat.mod_eq_of_lt (by omega)]
  have hsize : (announce frameCnt vf b).header.size.toNat = b.length := hlen
  have hone := announce_one frameCnt vf (b := b) (by omega)
  unfold sendMulticastData at hd
  split at hd
  · cases hd
  · next hbound =>
    refine ⟨Nat.le_of_not_lt hbound, ?_⟩
    simp only at hd
    rw [sendLoop] at hd
    split at hd
    · next hpos =>
      have hbytes : min (b.length - 0 + msgVframeHeaderSize) msgVframeMaxPacketSize = b.length + msgVframeHeaderSize := by
        omega
      simp only [hsize, hbytes, Nat.add_sub_cancel, List.drop_zero, List.take_length] at hd
      split at hd
      · cases hd
      · rw [sendLoop_done _ _ _ (by simp [hsize])] at hd
        refine ⟨_, List.mem_singleton.1 hd, rfl, hone, rfl, rfl, hlen, ?_⟩
        show load (store vf.frame 0 b) 0 b.length = b
        rw [load_store_zero _ (by omega), List.drop_zero, List.take_length]
    · cases hd

/-- A whole frame is dumped as it is, and the receiver is without frames again. -/
theorem receive_whole (stack : Mem Byte) {rx : Receiver} {d b : List Byte} (hfit : b.length ≤ msgVframeMaxFrameSize)
    (hd : Whole d b) (hrx : rx.rxFrames = []) :
    (receive stack rx d).1.rxFrames = [] ∧ (receive stack rx d).2 = some ⟨rx.frameCnt, b⟩ := by
  have hframe : msgVframeMaxFrameSize = 65468 := rfl
  have hpacket : msgVframeMaxPacketSize = 65496 := rfl
  have hhead : msgVframeHeaderSize = msgVframeData + 1 := rfl
  have h28 : msgVframeHeaderSize = 28 := rfl
  obtain ⟨m, rfl, hmagic, hall, hidx, hsize, hlen, hload⟩ := hd
  have hone : (receive stack rx (m.toBytes (b.length + msgVframeHeaderSize))).2 =
      some ⟨rx.frameCnt, load m.frame 0 m.sizeFrame.toNat⟩ :=
    receive_one stack (by omega) (by omega) hrx hmagic hall hidx hsize (by omega)
  rw [hlen, hload] at hone
  exact ⟨(receive_only stack (by omega) (by omega) hrx hmagic hall (by omega)).1, hone⟩

/-! ### Sequences -/

theorem mem_sendFrames {maxFrame : Nat} {frameCnt : Byte} {frames : List Sending} {d : List Byte}
    (hfit : ∀ f ∈ frames, f.encodedBuffer.length ≤ msgVframeMaxFrameSize) (hd : d ∈ sendFrames maxFrame frameCnt frames) :
    ∃ f ∈ frames, f.encodedBuffer.length ≤ maxFrame ∧ Whole d f.encodedBuffer := by
  induction frames generalizing frameCnt with
  | nil => cases hd
  | cons f fs ih =>
    rcases List.mem_append.1 hd with hd | hd
    · exact ⟨f, List.mem_cons_self, whole_of_mem (hfit f List.mem_cons_self) hd⟩
    · obtain ⟨g, hg, hgd⟩ := ih (fun f hf => hfit f (List.mem_cons_of_mem _ hf)) hd
      exact ⟨g, List.mem_cons_of_mem _ hg, hgd⟩

/-- While the frames fit one datagram, no delivery makes the receiver dump anything but frames. -/
theorem faithful_of_le {maxFrame : Nat} {frameCnt : Byte} {frames : List Sending}
    (hfit : ∀ f ∈ frames, f.encodedBuffer.length ≤ msgVframeMaxFrameSize) : Faithful maxFrame frameCnt frames := by
  intro ds hds stack rx hrx dump hdump
  induction ds generalizing rx with
  | nil => cases hdump
  | cons d ds ih =>
    obtain ⟨f, hf, hbound, hd⟩ := mem_sendFrames hfit (hds List.mem_cons_self)
    obtain ⟨hrx', hone⟩ := receive_whole (stack ds.length) (hfit f hf) hd hrx
    unfold receiveAll at hdump
    rcases List.mem_cons.1 hdump with heq | hdump
    · rw [hone, Option.some.injEq] at heq
      exact ⟨f, hf, hbound, by rw [heq]⟩
    · exact ih (List.subset_of_cons_subset hds) _ hrx' hdump

/-! ### Longer frames -/

theorem sendLoop_first {sendto : List Byte → Int} (hsend : ∀ d, 0 ≤ sendto d) (b : List Byte) {vf : MsgVframe}
    (hlong : msgVframeMaxFrameSize < vf.header.size.toNat) :
    ∃ m : MsgVframe, ∃ rest, (sendLoop sendto b vf 0 0).1 = m.toBytes msgVframeMaxPacketSize :: rest ∧
      m.header = vf.header ∧ m.allMsgs = vf.allMsgs ∧ m.idxFrame = 0 ∧ m.sizeFrame.toNat = msgVframeMaxFrameSize := by
  have hframe : msgVframeMaxFrameSize = 65468 := rfl
  have hpacket : msgVframeMaxPacketSize = 65496 := rfl
  have hhead : msgVframeHeaderSize = 28 := rfl
  have hbytes : min (vf.header.size.toNat - 0 + msgVframeHeaderSize) msgVframeMaxPacketSize = msgVframeMaxPacketSize := by
    omega
  rw [sendLoop, if_pos (by omega)]
  simp only [hbytes, if_neg (Int.not_lt.2 (hsend _))]
  exact ⟨_, _, rfl, rfl, rfl, rfl, rfl⟩

/-- A frame with one byte more than fits one datagram, on a stack of zeros, all of which is sent. -/
def longFrame (b : List Byte) : Sending := ⟨zeroVframe, fun d => d.length, b⟩

/-- Its first datagram is announced as the only one, and the dump has the byte of the stack behind the data. -/
theorem not_faithful_longFrame {maxFrame : Nat} (h : 65469 ≤ maxFrame) (frameCnt : Byte) {b : List Byte}
    (hb : b.length = 65469) : ¬ Faithful maxFrame frameCnt [longFrame b] := by
  have hframe : msgVframeMaxFrameSize = 65468 := rfl
  have hpacket : msgVframeMaxPacketSize = 65496 := rfl
  have hdata27 : msgVframeData = 27 := rfl
  have hsize : (announce frameCnt zeroVframe b).header.size = 65469 := by
    unfold announce
    simp only [hb]
    rfl
  have hlen : (65469 : U32).toNat = 65469 := by decide
  have hlong : msgVframeMaxFrameSize < (announce frameCnt zeroVframe b).header.size.toNat := by
    rw [hsize, hlen]
    decide
  obtain ⟨m, rest, hsent, hheader, hall, hidx, hdata⟩ := sendLoop_first (fun d => Int.natCast_nonneg d.length) b hlong
  rw [announce_one frameCnt zeroVframe (by omega)] at hall
  have hm : m.toBytes msgVframeMaxPacketSize ∈ sendFrames maxFrame frameCnt [longFrame b] := by
    refine List.mem_append_left _ ?_
    show m.toBytes msgVframeMaxPacketSize ∈ (sendMulticastData maxFrame (fun d => d.length) frameCnt zeroVframe b).1.1
    unfold sendMulticastData
    rw [if_neg (by omega), hsent]
    exact List.mem_cons_self
  intro hf
  -- another byte on the stack than the frame has there
  obtain ⟨x, hx⟩ : ∃ x, b[65468]? = some x := ⟨_, List.getElem?_eq_getElem (by omega)⟩
  have hrx : (⟨fun _ => 0, [], 0⟩ : Receiver).rxFrames = [] := rfl
  have hrec := (receive_only (fun _ => x + 1) (by decide) (Nat.le_refl msgVframeMaxPacketSize) hrx
    (by rw [hheader]; rfl) hall (by omega)).2
  obtain ⟨f, hfm, -, hcontents⟩ := hf [m.toBytes msgVframeMaxPacketSize] (by simpa using hm)
    (fun _ _ => x + 1) ⟨fun _ => 0, [], 0⟩ rfl _ (by unfold receiveAll; exact List.mem_cons.2 (Or.inl hrec.symm))
  rw [List.mem_singleton.1 hfm] at hcontents
  change load _ 0 _ = b at hcontents
  rw [hheader, hsize, show (65469 : U32).toInt.toNat = 65469 from rfl] at hcontents
  rw [← hcontents, getElem?_load _ _ (by decide),
    store_of_outside _ (Or.inr (by rw [hidx, length_load, hdata]; decide)), Option.some.injEq] at hx
  simp at hx

theorem not_faithful_one_byte_more : ¬ Faithful 921600 0 [longFrame (List.replicate 65469 0)] :=
  not_faithful_longFrame (by decide) 0 List.length_replicate

/-- The receiver dumps nothing but frames, for all sequences of frames up to a capacity, exactly if frames of this size
fit one datagram. -/
theorem faithful_iff (capacity : Nat) :
    (∀ maxFrame frameCnt frames, (∀ f ∈ frames, f.encodedBuffer.length ≤ capacity) →
      Faithful maxFrame frameCnt frames) ↔ capacity ≤ msgVframeMaxFrameSize := by
  constructor
  · intro h
    by_contra hlong
    have hframe : msgVframeMaxFrameSize = 65468 := rfl
    refine not_faithful_longFrame (Nat.le_refl _) 0 (b := List.replicate 65469 0) List.length_replicate (h 65469 0 _ ?_)
    intro f hf
    rw [List.mem_singleton.1 hf]
    show (List.replicate 65469 (0 : Byte)).length ≤ capacity
    rw [List.length_replicate]
    omega
  · intro h maxFrame frameCnt frames hfit
    exact faithful_of_le fun f hf => Nat.le_trans (hfit f hf) h

end RcCarControl.Video
