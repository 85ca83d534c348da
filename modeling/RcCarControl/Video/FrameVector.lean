import Mathlib.Data.List.Nodup
import Mathlib.Data.List.Perm.Subperm
import RcCarControl.Video.FrameMemory
import RcCarControl.Video.CleanUp

/-!
# The vector of frames

The turn of the receiver with `rxFrames` as one piece of memory: what `memcpy` writes behind the array of its entry goes
into the entries behind it.

As long as every copy fits its array the turn is `receive` (`Machine.receive_eq`), and the counts of the entries differ
(`Unique`).  A copy that does not fit can give an entry the count of another one.
-/

namespace RcCarControl.Video

open Interface LittleEndian Memory Lts

/-! ### The memory of the vector -/

/-- The four integers in front of the array. -/
def entryHead : Nat := intSize * 4

/-- `sizeof(rcc_rx_frame_t)`. -/
def entrySize : Nat := entryHead + frameArray

/-- The bytes of an entry. -/
def RxFrame.toMem (f : RxFrame) : Mem Byte := fun k =>
  if k < entryHead then
    (bytes32 (BitVec.ofInt 32 f.sizeFrame) ++ bytes32 (BitVec.ofInt 32 f.cntFrame) ++
      bytes32 (BitVec.ofInt 32 f.numAllMsgs) ++ bytes32 (BitVec.ofInt 32 f.numRxMsgs)).getD k 0
  else f.frame (k - entryHead)

def RxFrame.ofMem (m : Mem Byte) : RxFrame where
  sizeFrame := (u32 (load m 0 4) 0).toInt
  cntFrame := (u32 (load m 4 4) 0).toInt
  numAllMsgs := (u32 (load m 8 4) 0).toInt
  numRxMsgs := (u32 (load m 12 4) 0).toInt
  frame := fun k => m (entryHead + k)

/-- A copy into the bytes of an entry; behind the integers it changes the array alone. -/
def RxFrame.overwrite (f : RxFrame) (off : Nat) (data : List Byte) : RxFrame :=
  if data = [] then f
  else if entryHead ≤ off then { f with frame := store f.frame (off - entryHead) data }
  else RxFrame.ofMem (store f.toMem off data)

/-- A copy into the entries, from a place in the first one on.  What is written behind the last one is left out. -/
def spill (off : Nat) (data : List Byte) : List RxFrame → List RxFrame
  | [] => []
  | f :: fs =>
    f.overwrite off (data.take (entrySize - off)) :: spill (off - entrySize) (data.drop (entrySize - off)) fs

/-- The state after a turn of the loop. -/
def Machine.receive (stack : Mem Byte) (rx : Receiver) (datagram : List Byte) : Receiver :=
  let vf := store rx.videoFrame 0 (received datagram)
  if headerMagic vf = rcciMsgInitMagic then
    let found := findFrame (cntFrame vf).toNat (headerSize vf).toInt rx.rxFrames
    let old := entryFor stack vf rx.rxFrames
    let it := { old with numRxMsgs := old.numRxMsgs + 1 }
    let rxFrames := found.1 ++
      spill (entryHead + intSize * (idxFrame vf).toNat) (load vf msgVframeData (sizeFrame vf).toNat) (it :: found.2.2)
    if it.numRxMsgs = it.numAllMsgs then
      { videoFrame := store (store vf 8 (bytes32 0)) 0 (bytes16 0)
        rxFrames := eraseFrames it.cntFrame rxFrames
        frameCnt := rx.frameCnt + 1 }
    else { rx with videoFrame := vf, rxFrames := rxFrames }
  else { rx with videoFrame := vf }

def Machine.rxStep (rx : Receiver) (e : Mem Byte × List Byte) : Option Receiver := some (Machine.receive e.1 rx e.2)

/-! ### Copies that fit -/

/-- The data of the message fits the array at its place. -/
def Fits (rx : Receiver) (e : Mem Byte × List Byte) : Prop :=
  let vf := store rx.videoFrame 0 (received e.2)
  headerMagic vf = rcciMsgInitMagic →
    (sizeFrame vf).toNat = 0 ∨ intSize * (idxFrame vf).toNat + (sizeFrame vf).toNat ≤ frameArray

theorem overwrite_nil (f : RxFrame) (off : Nat) : f.overwrite off [] = f := if_pos rfl

theorem spill_nil (off : Nat) (fs : List RxFrame) : spill off [] fs = fs := by
  induction fs generalizing off with
  | nil => rfl
  | cons f fs ih => rw [spill, List.take_nil, List.drop_nil, overwrite_nil, ih]

theorem store_nil {α : Type*} (m : Mem α) (off : Nat) : store m off [] = m := by
  funext k
  exact store_of_outside m (by rw [List.length_nil]; omega)

/-- A copy that fits changes the array of its entry. -/
theorem spill_of_fits {off : Nat} {data : List Byte} (h : data = [] ∨ off + data.length ≤ frameArray) (f : RxFrame)
    (fs : List RxFrame) :
    spill (entryHead + off) data (f :: fs) = { f with frame := store f.frame off data } :: fs := by
  rcases h with rfl | h
  · rw [spill_nil, store_nil]
  · have hle : data.length ≤ entrySize - (entryHead + off) := by
      unfold entrySize
      omega
    rw [spill, List.take_of_length_le hle, List.drop_eq_nil_of_le hle, spill_nil]
    by_cases hnil : data = []
    · rw [hnil, overwrite_nil, store_nil]
    · unfold RxFrame.overwrite
      rw [if_neg hnil, if_pos (Nat.le_add_right _ _), Nat.add_sub_cancel_left]

/-- While the copies fit, the turn is the one of the receiver. -/
theorem Machine.receive_eq {rx : Receiver} {e : Mem Byte × List Byte} (h : Fits rx e) :
    Machine.receive e.1 rx e.2 = (Video.receive e.1 rx e.2).1 := by
  rw [← turn_fst]
  unfold Machine.receive turn
  by_cases hmagic : headerMagic (store rx.videoFrame 0 (received e.2)) = rcciMsgInitMagic
  · have hfit := h hmagic
    generalize store rx.videoFrame 0 (received e.2) = vf at hmagic hfit
    have hdata : load vf msgVframeData (sizeFrame vf).toNat = [] ∨
        intSize * (idxFrame vf).toNat + (load vf msgVframeData (sizeFrame vf).toNat).length ≤ frameArray := by
      rw [length_load]
      rcases hfit with hzero | hle
      · left
        rw [hzero]
        rfl
      · exact Or.inr hle
    simp only [if_pos hmagic, spill_of_fits hdata]
    split
    · rfl
    · rfl
  · simp only [if_neg hmagic]

/-! ### Counts -/

/-- The counts of the entries differ, so that there are not more than the 256 values of a count. -/
structure Unique (rx : Receiver) : Prop where
  counts : (rx.rxFrames.map RxFrame.cntFrame).Nodup
  few : rx.rxFrames.length ≤ 256

/-- The entry that a message is copied into has the count and the size in the structure. -/
def Matching (rx : Receiver) (e : Mem Byte × List Byte) : Prop :=
  let vf := store rx.videoFrame 0 (received e.2)
  headerMagic vf = rcciMsgInitMagic →
    (entryFor e.1 vf rx.rxFrames).cntFrame = (cntFrame vf).toNat ∧
      (entryFor e.1 vf rx.rxFrames).sizeFrame = (headerSize vf).toInt

/-- The counts differ and are bytes. -/
structure Counted (fs : List RxFrame) : Prop where
  nodup : (fs.map RxFrame.cntFrame).Nodup
  byte : ∀ f ∈ fs, 0 ≤ f.cntFrame ∧ f.cntFrame < 256

theorem Counted.length_le {fs : List RxFrame} (h : Counted fs) : fs.length ≤ 256 := by
  have hsub : fs.map RxFrame.cntFrame ⊆ (List.range 256).map Int.ofNat := by
    intro c hc
    obtain ⟨f, hf, rfl⟩ := List.mem_map.1 hc
    obtain ⟨hlow, hhigh⟩ := h.byte f hf
    exact List.mem_map.2 ⟨f.cntFrame.toNat, List.mem_range.2 (by omega), Int.toNat_of_nonneg hlow⟩
  have hle := (List.subperm_of_subset h.nodup hsub).length_le
  rwa [List.length_map, List.length_map, List.length_range] at hle

theorem Counted.sublist {fs gs : List RxFrame} (h : Counted fs) (hgs : gs.Sublist fs) : Counted gs :=
  ⟨(hgs.map _).nodup h.nodup, fun f hf => h.byte f (hgs.subset hf)⟩

/-- What the search leaves around the entry has other counts. -/
theorem findFrame_rest (cnt size : Int) {fs : List RxFrame} (h : (fs.map RxFrame.cntFrame).Nodup) :
    ((findFrame cnt size fs).1 ++ (findFrame cnt size fs).2.2).Sublist fs ∧
      ∀ f ∈ (findFrame cnt size fs).1 ++ (findFrame cnt size fs).2.2, f.cntFrame ≠ cnt := by
  induction fs with
  | nil => simp [findFrame]
  | cons f fs ih =>
    rw [List.map_cons, List.nodup_cons] at h
    obtain ⟨hnotin, hfs⟩ := h
    unfold findFrame
    by_cases hcnt : f.cntFrame = cnt
    · -- no other entry has this count
      have hother : ∀ g ∈ fs, g.cntFrame ≠ cnt := by
        intro g hg heq
        apply hnotin
        rw [hcnt, ← heq]
        exact List.mem_map_of_mem hg
      rw [if_pos hcnt]
      split
      · exact ⟨List.sublist_cons_self f fs, hother⟩
      · rw [List.append_nil]
        exact ⟨List.sublist_cons_self f fs, hother⟩
    · obtain ⟨hsub, hother⟩ := ih hfs
      rw [if_neg hcnt]
      refine ⟨hsub.cons_cons f, ?_⟩
      intro g hg
      rcases List.mem_cons.1 hg with rfl | hg
      · exact hcnt
      · exact hother g hg

/-- An entry with this count can be put in. -/
theorem Counted.insert {cnt size : Int} {fs : List RxFrame} (h : Counted fs) (hbyte : 0 ≤ cnt ∧ cnt < 256) {it : RxFrame}
    (hit : it.cntFrame = cnt) : Counted ((findFrame cnt size fs).1 ++ it :: (findFrame cnt size fs).2.2) := by
  obtain ⟨hsub, hother⟩ := findFrame_rest cnt size h.nodup
  have hrest := h.sublist hsub
  constructor
  · rw [List.map_append, List.map_cons, List.nodup_middle, ← List.map_append, List.nodup_cons]
    refine ⟨?_, hrest.nodup⟩
    intro hmem
    obtain ⟨f, hf, heq⟩ := List.mem_map.1 hmem
    exact hother f hf (heq.trans hit)
  · intro f hf
    rw [List.mem_append, List.mem_cons] at hf
    rcases hf with hf | rfl | hf
    · exact hrest.byte f (List.mem_append_left _ hf)
    · rwa [hit]
    · exact hrest.byte f (List.mem_append_right _ hf)

theorem eraseFrames_sublist (cnt : Int) (fs : List RxFrame) : (eraseFrames cnt fs).Sublist fs := by
  rw [← sweep_eq]
  exact sweep_sublist _ cnt fs

/-- A turn keeps the counts apart. -/
theorem receive_counted {stack : Mem Byte} {rx : Receiver} {d : List Byte} (h : Counted rx.rxFrames) :
    Counted (Video.receive stack rx d).1.rxFrames := by
  rw [← turn_fst]
  unfold turn
  by_cases hmagic : headerMagic (store rx.videoFrame 0 (received d)) = rcciMsgInitMagic
  · generalize store rx.videoFrame 0 (received d) = vf at hmagic
    have hbyte := (cntFrame vf).isLt
    obtain ⟨hcnt, -⟩ := entryFor_spec stack vf rx.rxFrames
    simp only [if_pos hmagic]
    split
    · refine Counted.sublist (h.insert ?_ ?_) (eraseFrames_sublist _ _)
      · omega
      · exact hcnt
    · refine h.insert ?_ ?_
      · omega
      · exact hcnt
  · simp only [if_neg hmagic]
    exact h

/-- In a run whose copies fit, the counts of the entries differ in every state and every message is copied into the entry
with its count and size. -/
theorem unique_of_fits (vf : Mem Byte) (frameCnt : Nat) (es : List (Mem Byte × List Byte))
    (h : StepsMeet Machine.rxStep Fits ⟨vf, [], frameCnt⟩ es) :
    StatesMeet Machine.rxStep Unique ⟨vf, [], frameCnt⟩ es ∧ StepsMeet Machine.rxStep Matching ⟨vf, [], frameCnt⟩ es := by
  have hstart : Counted (⟨vf, [], frameCnt⟩ : Receiver).rxFrames := ⟨List.nodup_nil, by simp⟩
  have hkeep (rx : Receiver) (e : Mem Byte × List Byte) (rx' : Receiver) (hrx : Counted rx.rxFrames) (hfits : Fits rx e)
      (hstep : Machine.rxStep rx e = some rx') : Counted rx'.rxFrames := by
    cases hstep
    rw [Machine.receive_eq hfits]
    exact receive_counted hrx
  constructor
  · exact h.statesMeet_of_invariant hkeep (fun rx hrx => ⟨hrx.nodup, hrx.length_le⟩) hstart
  · exact h.of_invariant hkeep (fun rx e _ _ _ => entryFor_spec e.1 _ rx.rxFrames) hstart

/-- The first message of the frame with this count, of three, with two bytes. -/
def firstOf (cnt : Byte) : MsgVframe := ⟨⟨rcciMsgInitMagic, 0, 0, 10, 0⟩, 2, 0, cnt, 3, 0, store (fun _ => 0) 0 [cnt, 7]⟩

theorem fits_firstOf (rx : Receiver) (stack : Mem Byte) (cnt : Byte) : Fits rx (stack, (firstOf cnt).toBytes 30) := by
  have hcarries : Carries (store rx.videoFrame 0 (received ((firstOf cnt).toBytes 30))) (firstOf cnt) 30 :=
    carries_toBytes rx.videoFrame (firstOf cnt) (by decide) (by decide)
  intro _
  right
  rw [hcarries.sizeFrame, hcarries.idxFrame]
  exact show intSize * 0 + 2 ≤ frameArray by decide

/-- Two frames are begun. -/
def twoFrames : List (Mem Byte × List Byte) :=
  [(fun _ => 0, (firstOf 1).toBytes 30), (fun _ => 0, (firstOf 2).toBytes 30)]

/-- Each of the two has its own bytes. -/
theorem unique_twoFrames :
    (StatesMeet Machine.rxStep Unique ⟨fun _ => 0, [], 0⟩ twoFrames ∧
      StepsMeet Machine.rxStep Matching ⟨fun _ => 0, [], 0⟩ twoFrames) ∧
    ∃ rx, exec Machine.rxStep ⟨fun _ => 0, [], 0⟩ twoFrames = some rx ∧
      rx.rxFrames.map (fun f => (f.cntFrame, f.frame 0, f.frame 1)) = [(1, 1, 7), (2, 2, 7)] :=
  ⟨unique_of_fits (fun _ => 0) 0 twoFrames ⟨fits_firstOf _ _ 1, fun _ _ => ⟨fits_firstOf _ _ 2, fun _ _ => trivial⟩⟩,
    exists_exec (by decide)⟩

/-! ### A copy that does not fit -/

/-- A message of the first frame with a size and a count for the place behind its array. -/
def intoNext : MsgVframe :=
  ⟨⟨rcciMsgInitMagic, 0, 0, 10, 0⟩, 8, 921600, 1, 3, 1, store (fun _ => 0) 0 (bytes32 10 ++ bytes32 1)⟩

def overrun : List (Mem Byte × List Byte) := twoFrames ++ [(fun _ => 0, intoNext.toBytes 36)]

theorem not_unique_overrun : ¬ StatesMeet Machine.rxStep Unique ⟨fun _ => 0, [], 0⟩ overrun := by
  intro h
  obtain ⟨rx, hrx, hcounts⟩ : ∃ rx, exec Machine.rxStep ⟨fun _ => 0, [], 0⟩ overrun = some rx ∧
      rx.rxFrames.map RxFrame.cntFrame = [1, 1] :=
    exists_exec (by decide)
  have hunique := statesMeet_iff.1 h overrun [] rx (List.append_nil _).symm hrx
  have hnodup := hunique.counts
  rw [hcounts] at hnodup
  exact absurd hnodup (by decide)

end RcCarControl.Video
