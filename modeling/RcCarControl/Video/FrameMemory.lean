import RcCarControl.Lib.Runs
import RcCarControl.Video.Packets

/-!
# The bytes that the receiver touches

The turn of the loop of `read_video_stream` with the bytes that `memcpy` and `write` are told to read and to write.  The
place in the array, the number of bytes and the size of the frame come from the datagram, and none of them is checked, nor
is the number of bytes that `recvfrom` returned.

All bytes lie in the datagram and in the array exactly if the fields of the datagrams say so (`inside_iff`).  Behind the
first access for which they do not the memory is no longer known, and the two sides are false already.
-/

namespace RcCarControl.Video

open Interface LittleEndian Memory Lts

/-! ### The turn with its accesses -/

def cMaxFrameSize : Nat := 640 * 480 * 3

/-- The bytes of the array of a frame, which is one of `int`. -/
def frameArray : Nat := intSize * cMaxFrameSize

/-- The bytes that are copied from the structure to the array of an entry, or written to a file from the array. -/
inductive Access
  | memcpy (dst src n : Nat)
  | write (n : Nat)
  deriving DecidableEq

/-- What `recvfrom` takes of a datagram. -/
def received (datagram : List Byte) : List Byte := datagram.take msgVframeMaxPacketSize

/-- The entry that a message is for: the one with its count and its size, or else a new one. -/
def entryFor (stack vf : Mem Byte) (rxFrames : List RxFrame) : RxFrame :=
  (findFrame (cntFrame vf).toNat (headerSize vf).toInt rxFrames).2.1.getD
    { sizeFrame := (headerSize vf).toInt
      cntFrame := (cntFrame vf).toNat
      numAllMsgs := (allMsgs vf).toNat
      numRxMsgs := 0
      frame := stack }

/-- A turn of the loop as in `receive`, with its accesses. -/
def turn (stack : Mem Byte) (rx : Receiver) (datagram : List Byte) : (Receiver × Option Dump) × List Access :=
  let vf := store rx.videoFrame 0 (received datagram)
  if headerMagic vf = rcciMsgInitMagic then
    let found := findFrame (cntFrame vf).toNat (headerSize vf).toInt rx.rxFrames
    let old := entryFor stack vf rx.rxFrames
    let copy := Access.memcpy (intSize * (idxFrame vf).toNat) msgVframeData (sizeFrame vf).toNat
    let it := { old with
      numRxMsgs := old.numRxMsgs + 1
      frame := store old.frame (intSize * (idxFrame vf).toNat) (load vf msgVframeData (sizeFrame vf).toNat) }
    let rxFrames := found.1 ++ it :: found.2.2
    if it.numRxMsgs = it.numAllMsgs then
      (({ videoFrame := store (store vf 8 (bytes32 0)) 0 (bytes16 0)
          rxFrames := eraseFrames it.cntFrame rxFrames
          frameCnt := rx.frameCnt + 1 },
        some ⟨rx.frameCnt, load it.frame 0 it.sizeFrame.toNat⟩), [copy, Access.write (sizeT it.sizeFrame)])
    else (({ rx with videoFrame := vf, rxFrames := rxFrames }, none), [copy])
  else (({ rx with videoFrame := vf }, none), [])

theorem turn_fst (stack : Mem Byte) (rx : Receiver) (datagram : List Byte) :
    (turn stack rx datagram).1 = receive stack rx datagram := by
  unfold turn receive
  by_cases hmagic : headerMagic (store rx.videoFrame 0 (received datagram)) = rcciMsgInitMagic
  · rw [if_pos hmagic]
    refine Eq.trans ?_ (if_pos hmagic).symm
    simp only
    split
    · next hall => exact (if_pos hall).symm
    · next hall => exact (if_neg hall).symm
  · rw [if_neg hmagic]
    exact (if_neg hmagic).symm

/-- The loop: an event is what the stack holds and a datagram. -/
def rxStep (rx : Receiver) (e : Mem Byte × List Byte) : Option Receiver := some (turn e.1 rx e.2).1.1

/-! ### Inside and outside -/

/-- Every byte that is read from the structure was received, and every byte of the array is one of its own. -/
def Access.Inside (nbytes : Nat) : Access → Prop
  | .memcpy dst src n => ∀ k < n, src + k < nbytes ∧ dst + k < frameArray
  | .write n => ∀ k < n, k < frameArray

/-- All accesses of the turn are inside. -/
def Inside (rx : Receiver) (e : Mem Byte × List Byte) : Prop :=
  ∀ a ∈ (turn e.1 rx e.2).2, a.Inside (received e.2).length

theorem Access.inside_memcpy_iff {nbytes dst src n : Nat} :
    (Access.memcpy dst src n).Inside nbytes ↔ n = 0 ∨ src + n ≤ nbytes ∧ dst + n ≤ frameArray := by
  constructor
  · intro h
    rcases Nat.eq_zero_or_pos n with h0 | hpos
    · exact Or.inl h0
    · have hlast := h (n - 1) (by omega)
      right
      omega
  · rintro (rfl | h) k hk
    · omega
    · omega

theorem Access.inside_write_iff {nbytes n : Nat} : (Access.write n).Inside nbytes ↔ n ≤ frameArray := by
  constructor
  · intro h
    rcases Nat.eq_zero_or_pos n with h0 | hpos
    · omega
    · have hlast : n - 1 < frameArray := h (n - 1) (by omega)
      omega
  · intro h k hk
    omega

/-! ### The fields that are not checked -/

/-- The message in the structure is the last one of its frame. -/
def Completes (vf : Mem Byte) (rxFrames : List RxFrame) : Prop :=
  match (findFrame (cntFrame vf).toNat (headerSize vf).toInt rxFrames).2.1 with
  | some f => f.numRxMsgs + 1 = f.numAllMsgs
  | none => (allMsgs vf).toNat = 1

/-- The data was received and fits the array at its place, and a complete frame fits the array. -/
def Bounded (rx : Receiver) (e : Mem Byte × List Byte) : Prop :=
  let vf := store rx.videoFrame 0 (received e.2)
  headerMagic vf = rcciMsgInitMagic →
    ((sizeFrame vf).toNat = 0 ∨ msgVframeData + (sizeFrame vf).toNat ≤ (received e.2).length ∧
      intSize * (idxFrame vf).toNat + (sizeFrame vf).toNat ≤ frameArray) ∧
    (Completes vf rx.rxFrames → (headerSize vf).toNat ≤ frameArray)

/-- The frame that is found has the count and the size of the message. -/
theorem findFrame_some {cnt size : Int} {fs : List RxFrame} {f : RxFrame} (h : (findFrame cnt size fs).2.1 = some f) :
    f.cntFrame = cnt ∧ f.sizeFrame = size := by
  induction fs with
  | nil => simp [findFrame] at h
  | cons g gs ih =>
    unfold findFrame at h
    split at h
    · next hcnt =>
      split at h
      · next hsize =>
        cases h
        exact ⟨hcnt, hsize⟩
      · cases h
    · exact ih h

theorem entryFor_spec (stack vf : Mem Byte) (rxFrames : List RxFrame) :
    (entryFor stack vf rxFrames).cntFrame = (cntFrame vf).toNat ∧
      (entryFor stack vf rxFrames).sizeFrame = (headerSize vf).toInt := by
  unfold entryFor
  cases hfound : (findFrame (cntFrame vf).toNat (headerSize vf).toInt rxFrames).2.1 with
  | none => exact ⟨rfl, rfl⟩
  | some f => exact findFrame_some hfound

theorem completes_iff (stack vf : Mem Byte) (rxFrames : List RxFrame) :
    Completes vf rxFrames ↔ (entryFor stack vf rxFrames).numRxMsgs + 1 = (entryFor stack vf rxFrames).numAllMsgs := by
  unfold Completes entryFor
  cases (findFrame (cntFrame vf).toNat (headerSize vf).toInt rxFrames).2.1 with
  | none =>
    simp only [Option.getD_none]
    omega
  | some f => exact Iff.rfl

theorem sizeT_toInt (x : U32) : sizeT x.toInt = x.toNat := by
  unfold sizeT
  rw [BitVec.ofInt_toInt]

/-- One turn. -/
theorem inside_iff_bounded (rx : Receiver) (e : Mem Byte × List Byte) : Inside rx e ↔ Bounded rx e := by
  unfold Inside Bounded turn
  by_cases hmagic : headerMagic (store rx.videoFrame 0 (received e.2)) = rcciMsgInitMagic
  · simp only [hmagic, if_true, true_imp_iff, completes_iff e.1]
    generalize store rx.videoFrame 0 (received e.2) = vf
    obtain ⟨-, hsize⟩ := entryFor_spec e.1 vf rx.rxFrames
    by_cases hall : (entryFor e.1 vf rx.rxFrames).numRxMsgs + 1 = (entryFor e.1 vf rx.rxFrames).numAllMsgs
    · simp only [hall, if_true, true_imp_iff, List.forall_mem_cons, Access.inside_memcpy_iff, Access.inside_write_iff,
        hsize, sizeT_toInt, List.not_mem_nil, false_imp_iff, implies_true, and_true]
    · simp only [hall, if_false, false_imp_iff, List.forall_mem_cons, Access.inside_memcpy_iff, List.not_mem_nil,
        implies_true, and_true]
  · simp only [hmagic, if_false, false_imp_iff, List.not_mem_nil, implies_true]

/-- All accesses of a run are inside exactly if the fields of its messages are bounded. -/
theorem inside_iff (rx : Receiver) (es : List (Mem Byte × List Byte)) :
    StepsMeet rxStep Inside rx es ↔ StepsMeet rxStep Bounded rx es :=
  stepsMeet_congr (fun _ _ _ (_ : True) _ => trivial) (fun rx e _ => inside_iff_bounded rx e) trivial es

/-! ### A copy behind the array -/

/-- Four bytes for the place behind the last integer, in the first of two messages. -/
def behindArray : MsgVframe := ⟨⟨rcciMsgInitMagic, 0, 0, 4, 0⟩, 4, 921600, 0, 2, 0, fun _ => 0⟩

theorem not_inside_behindArray :
    ¬ StepsMeet rxStep Inside ⟨fun _ => 0, [], 0⟩ [(fun _ => 0, behindArray.toBytes 31)] := by
  rintro ⟨h, -⟩
  have hcarries : Carries (store (fun _ => 0) 0 (received (behindArray.toBytes 31))) behindArray 31 :=
    carries_toBytes _ behindArray (by decide) (by decide)
  obtain ⟨hcopy, -⟩ := (inside_iff_bounded _ _).1 h hcarries.magic
  rw [hcarries.sizeFrame, hcarries.idxFrame] at hcopy
  rcases hcopy with hzero | ⟨-, hfit⟩
  · exact absurd hzero (by decide)
  · exact absurd hfit (by decide)

end RcCarControl.Video
