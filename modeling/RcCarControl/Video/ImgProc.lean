import Mathlib.Algebra.Ring.Nat
import RcCarControl.Lib.Runs

/-!
# The frame buffers of `rccImgProc`

`rccImgProc` of `sw/daemon/rcc_img_proc.cpp` opens a camera through V4L2 or, where that fails, through OpenCV.  The flag
`m_v4l2Open` decides which of the two `readFrame` uses.  It is set before the buffers are requested, and a failure from
then on leaves it set; the mappings of a device stay in `m_buffers` when it is closed.

So a run keeps to `Sound` exactly if no `open` leaves the V4L2 path on a device that is not ready, and none initialises a
device while `m_buffers` has entries (`OpensClean`, `v4l2_path_ready_iff`).
-/

namespace RcCarControl.Video

open Lts

/-- A buffer of the driver: the opening of a device on which it was requested, and its index. -/
structure Mapping where
  session : Nat
  index : Nat
deriving DecidableEq

/-- What the driver has done for the descriptor `m_devFd`, which is the `id`-th that was opened. -/
structure Session where
  id : Nat
  /-- The number of buffers granted. -/
  requested : Option Nat
  queued : Nat
  streaming : Bool
deriving DecidableEq

def Session.blank (id : Nat) : Session := ⟨id, none, 0, false⟩

structure ImgProc where
  devName : List Char
  isOpened : Bool
  width : Int
  height : Int
  v4l2Open : Bool
  devFd : Int
  /-- `m_buffers`; `none` is `MAP_FAILED`. -/
  buffers : List (Option Mapping)
  session : Session
deriving DecidableEq

/-- What the calls of one `open` return. -/
structure OpenCalls where
  fd : Int
  queryCap : Bool
  /-- The width and the height of the device's format. -/
  gFmt : Option (Int × Int)
  gParm : Bool
  /-- The number of buffers that `VIDIOC_REQBUFS` grants. -/
  reqBufs : Option (BitVec 32)
  queryBuf : Nat → Bool
  mmap : Nat → Bool
  qBuf : Nat → Bool
  streamOn : Bool
  /-- The width and the height of the OpenCV capture, if it opens. -/
  capture : Option (Int × Int)

/-- What the calls of one `readFrame` return. -/
structure ReadCalls where
  select : Bool
  /-- The index of the buffer that the driver has filled. -/
  dqBuf : Option Nat
  qBuf : Bool

/-- Where the picture comes from. -/
inductive Frame where
  | yuv (height width : Int) (buffer : Option Mapping)
  | videoCap
deriving DecidableEq

namespace ImgProc

/-- The constructor. -/
def rccImgProc : ImgProc where
  devName := ['/', 'd', 'e', 'v', '/', 'v', 'i', 'd', 'e', 'o', '0']
  isOpened := false
  width := -1
  height := -1
  v4l2Open := false
  devFd := -1
  buffers := []
  session := .blank 0

variable (s : ImgProc) (c : OpenCalls)

/-! ### V4L2 -/

def devStart : List Char := ['/', 'd', 'e', 'v', '/']

def closeV4L2Device : ImgProc :=
  let s := if s.devFd > 0 then { s with devFd := -1, session := .blank s.session.id } else s
  { s with v4l2Open := false }

/-- The device that is open is closed. -/
def closedFirst : ImgProc := if s.devFd > 0 then s.closeV4L2Device else s

/-- `openV4L2Device(m_devName)`. -/
def openV4L2Device : Bool × ImgProc :=
  if !devStart.isPrefixOf s.devName then (false, s)
  else
    let s := s.closedFirst
    if c.fd < 0 then (false, { s with devFd := c.fd, session := .blank s.session.id })
    else
      let s := { s with devFd := c.fd, session := .blank (s.session.id + 1) }
      if !c.queryCap then (false, s.closeV4L2Device)
      else
        match c.gFmt with
        | none => (false, s.closeV4L2Device)
        | some (width, height) =>
          if !c.gParm then (false, s.closeV4L2Device)
          else (true, { s with width := width, height := height, v4l2Open := true })

/-- `left` turns of a loop from `i` on that ends at the first call that fails. -/
def whileOk (ok : Nat → Bool) (f : Nat → ImgProc → ImgProc) : (left i : Nat) → ImgProc → Bool × ImgProc
  | 0, _, s => (true, s)
  | left + 1, i, s => if ok i then whileOk ok f left (i + 1) (f i s) else (false, s)

/-- What `mmap` gives for buffer `i`. -/
def mapped (session i : Nat) : Option Mapping := if c.mmap i then some ⟨session, i⟩ else none

def mapBuffer (i : Nat) (s : ImgProc) : ImgProc := { s with buffers := s.buffers ++ [mapped c s.session.id i] }

def queueBuffer (_ : Nat) (s : ImgProc) : ImgProc :=
  { s with session := { s.session with queued := s.session.queued + 1 } }

/-- The turns of a loop up to `int numBuffers = req.count`. -/
def numBuffers (count : BitVec 32) : Nat := count.toInt.toNat

/-- `VIDIOC_REQBUFS` grants `count` buffers. -/
def granted (count : BitVec 32) : ImgProc := { s with session := { s.session with requested := some count.toNat } }

def initV4L2Device : Bool × ImgProc :=
  if !s.v4l2Open then (false, s)
  else
    match c.reqBufs with
    | none => (false, s)
    | some count =>
      let m := whileOk c.queryBuf (mapBuffer c) (numBuffers count) 0 (s.granted count)
      if !m.1 then m
      else
        let q := whileOk c.qBuf queueBuffer (numBuffers count) 0 m.2
        if !q.1 then q
        else if !c.streamOn then (false, q.2)
        else (true, { q.2 with session := { q.2.session with streaming := true } })

def readV4L2Frame (r : ReadCalls) : Bool × Option Frame :=
  if !s.v4l2Open then (false, none)
  else if !r.select then (false, none)
  else
    match r.dqBuf with
    | none => (false, none)
    | some index =>
      match s.buffers[index]? with
      | none => (false, none)
      | some buffer => (r.qBuf, some (.yuv s.height s.width buffer))

/-! ### The interface -/

/-- `openV4L2Device(m_devName) && initV4L2Device()`. -/
def viaV4L2 : Bool × ImgProc :=
  let r := s.openV4L2Device c
  if r.1 then r.2.initV4L2Device c else r

/-- `open`, `none` for a null pointer. -/
def open' (devName : Option (List Char)) : Bool × ImgProc :=
  let r := viaV4L2 { s with devName := devName.getD s.devName } c
  if r.1 then (true, { r.2 with isOpened := true })
  else
    match c.capture with
    | none => (false, r.2)
    | some (width, height) => (true, { r.2 with width := width, height := height, isOpened := true })

def close : Bool × ImgProc := (true, { s.closeV4L2Device with isOpened := false })

def readFrame (r : ReadCalls) : Bool × Option Frame :=
  if !s.isOpened then (false, none)
  else if s.v4l2Open then s.readV4L2Frame r
  else (true, some .videoCap)

end ImgProc

/-- A call of the interface, with what the calls in it return. -/
inductive ImgCall where
  | open (devName : Option (List Char)) (c : OpenCalls)
  | close
  | readFrame (r : ReadCalls)

namespace ImgProc

def call (s : ImgProc) : ImgCall → ImgProc
  | .open devName c => (s.open' c devName).2
  | .close => s.close.2
  | .readFrame _ => s

/-- Every call may follow every other. -/
def step (s : ImgProc) (e : ImgCall) : Option ImgProc := some (s.call e)

/-! ### Ready to read -/

/-- The buffers of the open device are requested, queued and streaming, and `m_buffers` are their mappings in order. -/
def Ready (s : ImgProc) : Prop :=
  s.session.streaming = true ∧ s.session.requested = some s.session.queued ∧
    s.buffers = (List.range s.session.queued).map fun i => some ⟨s.session.id, i⟩

/-- Whichever buffer the driver has filled, the picture is made from the memory of that buffer. -/
def SelectsFilled (s : ImgProc) : Prop :=
  ∀ r index count, r.select = true → r.dqBuf = some index → s.session.requested = some count → index < count →
    s.readFrame r = (r.qBuf, some (.yuv s.height s.width (some ⟨s.session.id, index⟩)))

/-- Where `readFrame` takes the V4L2 path, the device is ready. -/
def Sound (s : ImgProc) : Prop :=
  s.isOpened = true → s.v4l2Open = true → s.Ready ∧ s.SelectsFilled

/-! ### The condition on `open` -/

/-- The name is one of a device, which opens and tells its format. -/
def Answers (devName : List Char) (c : OpenCalls) : Prop :=
  devStart.isPrefixOf devName = true ∧ 0 ≤ c.fd ∧ c.queryCap = true ∧ c.gFmt.isSome = true ∧ c.gParm = true

/-- The calls of `initV4L2Device` whose results it looks at succeed. -/
def Initialises (c : OpenCalls) : Prop :=
  ∃ count, c.reqBufs = some count ∧
    (∀ i < numBuffers count, c.queryBuf i = true) ∧ (∀ i < numBuffers count, c.qBuf i = true) ∧ c.streamOn = true

/-- The calls of an `open` from state `s` that leave `readFrame` with a device that is ready, or without V4L2. -/
structure OpensClean (s : ImgProc) (devName : List Char) (c : OpenCalls) : Prop where
  /-- No mappings are left from an earlier device, and `mmap` does not fail. -/
  initialised : Answers devName c → Initialises c → s.buffers = [] ∧
    ∀ count, c.reqBufs = some count → count.toNat < 2 ^ 31 ∧ ∀ i < count.toNat, c.mmap i = true
  /-- A device that fails after it has told its format is not read from: nothing was open, and OpenCV fails too. -/
  failed : Answers devName c → ¬ Initialises c → s.isOpened = false ∧ c.capture = none
  /-- The same for one that does not open in place of a device with the descriptor 0, which is not closed. -/
  lost : devStart.isPrefixOf devName = true → c.fd < 0 → s.v4l2Open = true → s.devFd ≤ 0 →
    s.isOpened = false ∧ c.capture = none
  /-- After a device that failed so, OpenCV does not open a file. -/
  file : devStart.isPrefixOf devName = false → s.v4l2Open = true → s.isOpened = false → c.capture = none

def Clean (s : ImgProc) : ImgCall → Prop
  | .open devName c => s.OpensClean (devName.getD s.devName) c
  | .close => True
  | .readFrame _ => True

/-! ### The loops -/

theorem whileOk_fst {ok : Nat → Bool} {f : Nat → ImgProc → ImgProc} {left i : Nat} {s : ImgProc} :
    (whileOk ok f left i s).1 = true ↔ ∀ j, i ≤ j → j < i + left → ok j = true := by
  induction left generalizing i s with
  | zero =>
    refine ⟨fun _ j hij hj => ?_, fun _ => rfl⟩
    omega
  | succ left ih =>
    unfold whileOk
    split
    · rename_i hi
      rw [ih]
      constructor
      · intro h j hij hj
        rcases Nat.eq_or_lt_of_le hij with rfl | hlt
        · exact hi
        · exact h j hlt (by omega)
      · intro h j hij hj
        exact h j (by omega) (by omega)
    · rename_i hi
      refine ⟨fun h => (by cases h), fun h => ?_⟩
      exact absurd (h i (Nat.le_refl i) (by omega)) hi

theorem whileOk_keeps {P : ImgProc → Prop} {ok : Nat → Bool} {f : Nat → ImgProc → ImgProc}
    (hf : ∀ i s, P s → P (f i s)) {left i : Nat} {s : ImgProc} (hs : P s) : P (whileOk ok f left i s).2 := by
  induction left generalizing i s with
  | zero => exact hs
  | succ left ih =>
    unfold whileOk
    split
    · exact ih (hf i s hs)
    · exact hs

theorem map_snd {c : OpenCalls} {left i : Nat} {s : ImgProc}
    (h : (whileOk c.queryBuf (mapBuffer c) left i s).1 = true) :
    (whileOk c.queryBuf (mapBuffer c) left i s).2 =
      { s with buffers := s.buffers ++ (List.range' i left).map (mapped c s.session.id) } := by
  induction left generalizing i s with
  | zero => simp [whileOk]
  | succ left ih =>
    unfold whileOk at h ⊢
    split at h
    · rw [if_pos (by assumption), ih h]
      simp [mapBuffer, List.range'_succ]
    · cases h

theorem queue_snd {c : OpenCalls} {left i : Nat} {s : ImgProc}
    (h : (whileOk c.qBuf queueBuffer left i s).1 = true) :
    (whileOk c.qBuf queueBuffer left i s).2 =
      { s with session := { s.session with queued := s.session.queued + left } } := by
  induction left generalizing i s with
  | zero => simp [whileOk]
  | succ left ih =>
    unfold whileOk at h ⊢
    split at h
    · rw [if_pos (by assumption), ih h]
      simp [queueBuffer, Nat.add_assoc, Nat.add_comm 1 left]
    · cases h

theorem numBuffers_eq_iff {count : BitVec 32} : numBuffers count = count.toNat ↔ count.toNat < 2 ^ 31 := by
  have hcount := count.isLt
  rw [numBuffers, BitVec.toInt_eq_toNat_cond]
  split <;> omega

/-! ### `initV4L2Device` -/

section Init

variable {s : ImgProc} {c : OpenCalls}

/-- The turns of one of the two loops. -/
theorem loop_fst {ok : Nat → Bool} {f : Nat → ImgProc → ImgProc} {n : Nat} :
    (whileOk ok f n 0 s).1 = true ↔ ∀ i < n, ok i = true := by
  rw [whileOk_fst, Nat.zero_add]
  exact ⟨fun h i hi => h i (Nat.zero_le i) hi, fun h i _ hi => h i hi⟩

/-- The device streams with `m_buffers` longer by its buffers. -/
theorem init_of_initialises (hopen : s.v4l2Open = true) {count : BitVec 32} (hcount : c.reqBufs = some count)
    (h : Initialises c) :
    s.initV4L2Device c =
      (true, { s with
        buffers := s.buffers ++ (List.range (numBuffers count)).map (mapped c s.session.id),
        session := ⟨s.session.id, some count.toNat, s.session.queued + numBuffers count, true⟩ }) := by
  obtain ⟨count', hcount', hquery, hqueue, hstream⟩ := h
  obtain rfl : count = count' := by
    rw [hcount] at hcount'
    exact Option.some.inj hcount'
  have hmap (s : ImgProc) := loop_fst (s := s) (f := mapBuffer c) |>.2 hquery
  have hq (s : ImgProc) := loop_fst (s := s) (f := queueBuffer) |>.2 hqueue
  simp only [initV4L2Device, hopen, hcount, hmap, hq, hstream, map_snd (hmap _), queue_snd (hq _), granted,
    List.range_eq_range', Bool.not_true, Bool.false_eq_true, if_false]

/-- The flags of `t` are those of `s`, and the device streams as it did. -/
structure SameFlags (s t : ImgProc) : Prop where
  isOpened : t.isOpened = s.isOpened
  v4l2Open : t.v4l2Open = s.v4l2Open
  streaming : t.session.streaming = s.session.streaming

theorem SameFlags.map {t : ImgProc} (h : SameFlags s t) (c : OpenCalls) (n : Nat) :
    SameFlags s (whileOk c.queryBuf (mapBuffer c) n 0 t).2 :=
  whileOk_keeps (fun _ _ h => ⟨h.isOpened, h.v4l2Open, h.streaming⟩) h

theorem SameFlags.queue {t : ImgProc} (h : SameFlags s t) (c : OpenCalls) (n : Nat) :
    SameFlags s (whileOk c.qBuf queueBuffer n 0 t).2 :=
  whileOk_keeps (fun _ _ h => ⟨h.isOpened, h.v4l2Open, h.streaming⟩) h

/-- Otherwise it does not, and the flag of V4L2 is left as it is. -/
theorem init_of_not_initialises (h : ¬ Initialises c) :
    (s.initV4L2Device c).1 = false ∧ SameFlags s (s.initV4L2Device c).2 := by
  have hself : SameFlags s s := ⟨rfl, rfl, rfl⟩
  unfold initV4L2Device
  by_cases hopen : s.v4l2Open = true
  · rw [if_neg (by simp [hopen])]
    cases hcount : c.reqBufs with
    | none => exact ⟨rfl, hself⟩
    | some count =>
      have hgranted : SameFlags s (s.granted count) := ⟨rfl, rfl, rfl⟩
      have hmapped := hgranted.map c (numBuffers count)
      have hqueued := hmapped.queue c (numBuffers count)
      dsimp only
      split
      · rename_i hquery
        exact ⟨by simpa using hquery, hmapped⟩
      · rename_i hquery
        split
        · rename_i hqueue
          exact ⟨by simpa using hqueue, hqueued⟩
        · rename_i hqueue
          split
          · exact ⟨rfl, hqueued⟩
          · rename_i hstream
            simp only [Bool.not_eq_true', Bool.not_eq_false] at hquery hqueue hstream
            exact absurd ⟨count, hcount, loop_fst.1 hquery, loop_fst.1 hqueue, hstream⟩ h
  · rw [if_pos (by simpa using hopen)]
    exact ⟨rfl, hself⟩

end Init

/-! ### `open` -/

section Open

variable {s : ImgProc} {c : OpenCalls} {devName : List Char}

@[simp] theorem closeV4L2Device_isOpened : s.closeV4L2Device.isOpened = s.isOpened := by
  unfold closeV4L2Device
  split <;> rfl

@[simp] theorem closeV4L2Device_v4l2Open : s.closeV4L2Device.v4l2Open = false := rfl

@[simp] theorem closeV4L2Device_buffers : s.closeV4L2Device.buffers = s.buffers := by
  unfold closeV4L2Device
  split <;> rfl

@[simp] theorem closedFirst_isOpened : s.closedFirst.isOpened = s.isOpened := by
  unfold closedFirst
  split
  · exact closeV4L2Device_isOpened
  · rfl

@[simp] theorem closedFirst_buffers : s.closedFirst.buffers = s.buffers := by
  unfold closedFirst
  split
  · exact closeV4L2Device_buffers
  · rfl

theorem closedFirst_v4l2Open : s.closedFirst.v4l2Open = true ↔ s.v4l2Open = true ∧ s.devFd ≤ 0 := by
  unfold closedFirst
  split
  · rw [closeV4L2Device_v4l2Open]
    constructor
    · intro h
      cases h
    · omega
  · exact ⟨fun h => ⟨h, by omega⟩, fun h => h.1⟩

theorem openV4L2Device_file (h : devStart.isPrefixOf s.devName = false) : s.openV4L2Device c = (false, s) := by
  simp [openV4L2Device, h]

/-- A device that does not open. -/
theorem openV4L2Device_lost (h : devStart.isPrefixOf s.devName = true) (hfd : c.fd < 0) :
    s.openV4L2Device c =
      (false, { s.closedFirst with devFd := c.fd, session := .blank s.closedFirst.session.id }) := by
  simp [openV4L2Device, h, hfd]

/-- A device that opens and is closed again. -/
theorem openV4L2Device_refused (h : devStart.isPrefixOf s.devName = true) (hfd : 0 ≤ c.fd)
    (ha : ¬ Answers s.devName c) :
    (s.openV4L2Device c).1 = false ∧ (s.openV4L2Device c).2.isOpened = s.isOpened ∧
      (s.openV4L2Device c).2.v4l2Open = false := by
  have hfd' : ¬ c.fd < 0 := by omega
  cases hq : c.queryCap with
  | false => simp [openV4L2Device, h, hfd', hq]
  | true =>
    cases hf : c.gFmt with
    | none => simp [openV4L2Device, h, hfd', hq, hf]
    | some size =>
      cases hp : c.gParm with
      | false => simp [openV4L2Device, h, hfd', hq, hf, hp]
      | true => exact absurd ⟨h, hfd, hq, by rw [hf]; rfl, hp⟩ ha

/-- A device that goes over to the buffers. -/
theorem openV4L2Device_answers (h : Answers s.devName c) :
    (s.openV4L2Device c).1 = true ∧ (s.openV4L2Device c).2.isOpened = s.isOpened ∧
      (s.openV4L2Device c).2.v4l2Open = true ∧ (s.openV4L2Device c).2.buffers = s.buffers ∧
      ∃ id, (s.openV4L2Device c).2.session = .blank id := by
  obtain ⟨hdev, hfd, hq, hf, hp⟩ := h
  obtain ⟨size, hf⟩ := Option.isSome_iff_exists.1 hf
  have hfd' : ¬ c.fd < 0 := by omega
  simp [openV4L2Device, hdev, hfd', hq, hf, hp]

theorem viaV4L2_file (h : devStart.isPrefixOf s.devName = false) : s.viaV4L2 c = (false, s) := by
  rw [viaV4L2, openV4L2Device_file h]
  rfl

theorem viaV4L2_lost (h : devStart.isPrefixOf s.devName = true) (hfd : c.fd < 0) :
    (s.viaV4L2 c).1 = false ∧ (s.viaV4L2 c).2.isOpened = s.isOpened ∧
      ((s.viaV4L2 c).2.v4l2Open = true ↔ s.v4l2Open = true ∧ s.devFd ≤ 0) ∧
      (s.viaV4L2 c).2.session.streaming = false := by
  rw [viaV4L2, openV4L2Device_lost h hfd]
  exact ⟨rfl, closedFirst_isOpened, closedFirst_v4l2Open, rfl⟩

theorem viaV4L2_refused (h : devStart.isPrefixOf s.devName = true) (hfd : 0 ≤ c.fd) (ha : ¬ Answers s.devName c) :
    (s.viaV4L2 c).1 = false ∧ (s.viaV4L2 c).2.isOpened = s.isOpened ∧ (s.viaV4L2 c).2.v4l2Open = false := by
  have hopen := openV4L2Device_refused h hfd ha
  have hvia : s.viaV4L2 c = s.openV4L2Device c := by
    rw [viaV4L2, hopen.1]
    rfl
  rw [hvia]
  exact hopen

theorem viaV4L2_answers (ha : Answers s.devName c) :
    s.viaV4L2 c = (s.openV4L2Device c).2.initV4L2Device c := by
  rw [viaV4L2, (openV4L2Device_answers ha).1]
  rfl

theorem viaV4L2_failed (ha : Answers s.devName c) (hi : ¬ Initialises c) :
    (s.viaV4L2 c).1 = false ∧ (s.viaV4L2 c).2.isOpened = s.isOpened ∧ (s.viaV4L2 c).2.v4l2Open = true ∧
      (s.viaV4L2 c).2.session.streaming = false := by
  obtain ⟨_, hopened, hv4l2, _, id, hsession⟩ := openV4L2Device_answers (s := s) ha
  rw [viaV4L2_answers ha]
  have hinit := init_of_not_initialises (s := (s.openV4L2Device c).2) hi
  refine ⟨hinit.1, ?_, ?_, ?_⟩
  · rw [hinit.2.isOpened, hopened]
  · rw [hinit.2.v4l2Open, hv4l2]
  · rw [hinit.2.streaming, hsession]
    rfl

theorem append_mapped_iff {bs : List (Option Mapping)} {n id : Nat} :
    bs ++ (List.range n).map (mapped c id) = (List.range n).map (fun i => some ⟨id, i⟩) ↔
      bs = [] ∧ ∀ i < n, c.mmap i = true := by
  have hmapped (i : Nat) : mapped c id i = some ⟨id, i⟩ ↔ c.mmap i = true := by
    unfold mapped
    split <;> simp [*]
  constructor
  · intro h
    have hlen := congrArg List.length h
    rw [List.length_append, List.length_map, List.length_map] at hlen
    obtain rfl : bs = [] := List.eq_nil_of_length_eq_zero (by omega)
    refine ⟨rfl, fun i hi => ?_⟩
    rw [List.nil_append, List.map_inj_left] at h
    exact (hmapped i).1 (h i (List.mem_range.2 hi))
  · rintro ⟨rfl, h⟩
    rw [List.nil_append, List.map_inj_left]
    intro i hi
    exact (hmapped i).2 (h i (List.mem_range.1 hi))

theorem viaV4L2_initialised (ha : Answers s.devName c) (hi : Initialises c) :
    (s.viaV4L2 c).1 = true ∧ (s.viaV4L2 c).2.isOpened = s.isOpened ∧ (s.viaV4L2 c).2.v4l2Open = true ∧
      ((s.viaV4L2 c).2.Ready ↔
        s.buffers = [] ∧
          ∀ count, c.reqBufs = some count → count.toNat < 2 ^ 31 ∧ ∀ i < count.toNat, c.mmap i = true) := by
  obtain ⟨_, hopened, hv4l2, hbuffers, id, hsession⟩ := openV4L2Device_answers (s := s) ha
  have hcalls := hi
  obtain ⟨count, hcount, _⟩ := hcalls
  rw [viaV4L2_answers ha, init_of_initialises hv4l2 hcount hi]
  refine ⟨rfl, hopened, hv4l2, ?_⟩
  simp only [Ready, hbuffers, hsession, Session.blank, Nat.zero_add, Option.some.injEq, append_mapped_iff]
  constructor
  · rintro ⟨_, hall, hnil, hmmap⟩
    refine ⟨hnil, fun count' hcount' => ?_⟩
    obtain rfl : count = count' := by
      rw [hcount] at hcount'
      exact Option.some.inj hcount'
    refine ⟨numBuffers_eq_iff.1 hall.symm, ?_⟩
    rw [hall]
    exact hmmap
  · rintro ⟨hnil, hall⟩
    obtain ⟨hsmall, hmmap⟩ := hall count hcount
    have hn := numBuffers_eq_iff.2 hsmall
    refine ⟨trivial, hn.symm, hnil, ?_⟩
    rw [hn]
    exact hmmap

end Open

/-! ### Runs -/

section Runs

variable {s t : ImgProc} {c : OpenCalls}

/-- In a ready device every index that the driver may return is one of its own buffers. -/
theorem Ready.selectsFilled (hopen : s.isOpened = true) (hv4l2 : s.v4l2Open = true) (h : s.Ready) :
    s.SelectsFilled := by
  intro r index count hselect hindex hrequested hlt
  obtain ⟨_, hqueued, hbuffers⟩ := h
  obtain rfl : count = s.session.queued := by
    rw [hrequested] at hqueued
    exact Option.some.inj hqueued
  have hentry : s.buffers[index]? = some (some ⟨s.session.id, index⟩) := by
    rw [hbuffers]
    simp [hlt]
  simp [readFrame, readV4L2Frame, hopen, hv4l2, hselect, hindex, hentry]

theorem sound_iff : s.Sound ↔ (s.isOpened = true → s.v4l2Open = true → s.Ready) := by
  constructor
  · intro h hopen hv4l2
    exact (h hopen hv4l2).1
  · intro h hopen hv4l2
    exact ⟨h hopen hv4l2, (h hopen hv4l2).selectsFilled hopen hv4l2⟩

/-- A device that failed in an `open` that failed is not streaming. -/
def FailedIdle (s : ImgProc) : Prop := s.v4l2Open = true → s.isOpened = false → s.session.streaming = false

/-- What `open` leaves is what the attempt through V4L2 leaves, and the object is opened if one of the two ways is
open or it was opened before. -/
theorem open_fields (s : ImgProc) (c : OpenCalls) (devName : Option (List Char)) :
    let v := viaV4L2 { s with devName := devName.getD s.devName } c
    ((s.open' c devName).2.isOpened = true ↔ v.1 = true ∨ v.2.isOpened = true ∨ c.capture ≠ none) ∧
      (s.open' c devName).2.v4l2Open = v.2.v4l2Open ∧ (s.open' c devName).2.session = v.2.session ∧
      (s.open' c devName).2.buffers = v.2.buffers := by
  intro v
  have hopen : s.open' c devName =
      if v.1 then (true, { v.2 with isOpened := true })
      else
        match c.capture with
        | none => (false, v.2)
        | some (width, height) => (true, { v.2 with width := width, height := height, isOpened := true }) := rfl
  rw [hopen]
  cases hv : v.1 with
  | true => simp
  | false => cases c.capture <;> simp

theorem not_ready (h : s.session.streaming = false) : ¬ s.Ready := fun hready => by
  rw [hready.1] at h
  cases h

/-- After the attempt through V4L2 it matters whether it left the flag set. -/
theorem open_sound_iff {devName : Option (List Char)} {v : Bool × ImgProc}
    (hv : viaV4L2 { s with devName := devName.getD s.devName } c = v) (hopened : v.2.isOpened = s.isOpened) :
    (s.open' c devName).2.Sound ↔
      (v.1 = true ∨ s.isOpened = true ∨ c.capture ≠ none → v.2.v4l2Open = true → v.2.Ready) := by
  have hfields := open_fields s c devName
  rw [hv] at hfields
  obtain ⟨h1, h2, h3, h4⟩ := hfields
  rw [sound_iff, h1, h2, hopened, Ready, h3, h4, ← Ready]

/-- Neither opened before nor now. -/
theorem unopened_iff {b : Bool} (hb : b = false) :
    s.isOpened = false ∧ c.capture = none ↔ ¬ (b = true ∨ s.isOpened = true ∨ c.capture ≠ none) := by
  subst hb
  cases s.isOpened <;> simp

section Exact

variable {devName : Option (List Char)}

/-- For the name of a file only the last condition counts. -/
theorem opensClean_of_file {name : List Char} (h : devStart.isPrefixOf name = false)
    (file : s.v4l2Open = true → s.isOpened = false → c.capture = none) : s.OpensClean name c := by
  have hnot : ¬ devStart.isPrefixOf name = true := by
    rw [h]
    decide
  exact ⟨fun ha => absurd ha.1 hnot, fun ha => absurd ha.1 hnot, fun hdev => absurd hdev hnot, fun _ => file⟩

/-- For the name of a device that opens only the first two count. -/
theorem opensClean_of_device {name : List Char} (h : devStart.isPrefixOf name = true) (hfd : 0 ≤ c.fd)
    (initialised : Answers name c → Initialises c → s.buffers = [] ∧
      ∀ count, c.reqBufs = some count → count.toNat < 2 ^ 31 ∧ ∀ i < count.toNat, c.mmap i = true)
    (failed : Answers name c → ¬ Initialises c → s.isOpened = false ∧ c.capture = none) : s.OpensClean name c := by
  refine ⟨initialised, failed, fun _ hlt => by omega, fun hfile => ?_⟩
  rw [h] at hfile
  cases hfile

theorem open_exact_file (hidle : s.FailedIdle) (hs : s.Sound)
    (h : devStart.isPrefixOf (devName.getD s.devName) = false) :
    (s.open' c devName).2.Sound ↔ s.OpensClean (devName.getD s.devName) c := by
  rw [open_sound_iff (viaV4L2_file h) rfl]
  constructor
  · intro hsound
    apply opensClean_of_file h
    intro hv4l2 hclosed
    by_contra hcapture
    exact not_ready (hidle hv4l2 hclosed) (hsound (Or.inr (Or.inr hcapture)) hv4l2)
  · intro hclean hopen hv4l2
    cases hopened : s.isOpened with
    | true => exact (hs hopened hv4l2).1
    | false =>
      have hunopened := (unopened_iff rfl).1 ⟨hopened, hclean.file h hv4l2 hopened⟩
      exact absurd hopen hunopened

theorem open_exact_lost (h : devStart.isPrefixOf (devName.getD s.devName) = true) (hfd : c.fd < 0) :
    (s.open' c devName).2.Sound ↔ s.OpensClean (devName.getD s.devName) c := by
  obtain ⟨hret, hopened, hv4l2, hidle⟩ := viaV4L2_lost (s := { s with devName := devName.getD s.devName }) h hfd
  rw [open_sound_iff rfl hopened, hv4l2]
  constructor
  · intro hsound
    have hnot : ¬ Answers (devName.getD s.devName) c := fun ha => by
      have := ha.2.1
      omega
    refine ⟨fun ha => absurd ha hnot, fun ha => absurd ha hnot, fun _ _ hflag hle => ?_, fun hfile => ?_⟩
    · rw [unopened_iff hret]
      intro hopen
      exact not_ready hidle (hsound hopen ⟨hflag, hle⟩)
    · rw [h] at hfile
      cases hfile
  · intro hclean hopen hflag
    have hunopened := (unopened_iff hret).1 (hclean.lost h hfd hflag.1 hflag.2)
    exact absurd hopen hunopened

theorem open_exact_refused (h : devStart.isPrefixOf (devName.getD s.devName) = true) (hfd : 0 ≤ c.fd)
    (ha : ¬ Answers (devName.getD s.devName) c) :
    (s.open' c devName).2.Sound ↔ s.OpensClean (devName.getD s.devName) c := by
  obtain ⟨_, hopened, hv4l2⟩ := viaV4L2_refused (s := { s with devName := devName.getD s.devName }) h hfd ha
  rw [open_sound_iff rfl hopened, hv4l2]
  constructor
  · intro _
    exact opensClean_of_device h hfd (fun ha' => absurd ha' ha) fun ha' => absurd ha' ha
  · intro _ _ hflag
    cases hflag

theorem open_exact_failed (ha : Answers (devName.getD s.devName) c) (hi : ¬ Initialises c) :
    (s.open' c devName).2.Sound ↔ s.OpensClean (devName.getD s.devName) c := by
  obtain ⟨hret, hopened, hv4l2, hidle⟩ := viaV4L2_failed (s := { s with devName := devName.getD s.devName }) ha hi
  rw [open_sound_iff rfl hopened, hv4l2]
  constructor
  · intro hsound
    apply opensClean_of_device ha.1 ha.2.1
    · exact fun _ hi' => absurd hi' hi
    · intro _ _
      rw [unopened_iff hret]
      intro hopen
      exact not_ready hidle (hsound hopen rfl)
  · intro hclean hopen _
    have hunopened := (unopened_iff hret).1 (hclean.failed ha hi)
    exact absurd hopen hunopened

theorem open_exact_initialised (ha : Answers (devName.getD s.devName) c) (hi : Initialises c) :
    (s.open' c devName).2.Sound ↔ s.OpensClean (devName.getD s.devName) c := by
  obtain ⟨hret, hopened, hv4l2, hready⟩ :=
    viaV4L2_initialised (s := { s with devName := devName.getD s.devName }) ha hi
  rw [open_sound_iff rfl hopened, hv4l2, hready]
  constructor
  · intro hsound
    apply opensClean_of_device ha.1 ha.2.1
    · exact fun _ _ => hsound (Or.inl hret) rfl
    · exact fun _ hi' => absurd hi hi'
  · intro hclean _ _
    exact hclean.initialised ha hi

end Exact

/-- How far the attempt through V4L2 gets. -/
theorem device_cases (devName : List Char) (c : OpenCalls) :
    devStart.isPrefixOf devName = false ∨
    (devStart.isPrefixOf devName = true ∧ c.fd < 0) ∨
    (devStart.isPrefixOf devName = true ∧ 0 ≤ c.fd ∧ ¬ Answers devName c) ∨
    (Answers devName c ∧ ¬ Initialises c) ∨
    (Answers devName c ∧ Initialises c) := by
  cases hdev : devStart.isPrefixOf devName with
  | false => exact Or.inl rfl
  | true =>
    right
    by_cases hfd : c.fd < 0
    · exact Or.inl ⟨rfl, hfd⟩
    · by_cases ha : Answers devName c
      · by_cases hi : Initialises c
        · exact Or.inr (Or.inr (Or.inr ⟨ha, hi⟩))
        · exact Or.inr (Or.inr (Or.inl ⟨ha, hi⟩))
      · exact Or.inr (Or.inl ⟨rfl, by omega, ha⟩)

/-- An `open` keeps to `Sound` exactly if it is clean. -/
theorem open_exact (hidle : s.FailedIdle) (hs : s.Sound) (devName : Option (List Char)) :
    (s.open' c devName).2.Sound ↔ s.OpensClean (devName.getD s.devName) c := by
  rcases device_cases (devName.getD s.devName) c with h | ⟨h, hfd⟩ | ⟨h, hfd, ha⟩ | ⟨ha, hi⟩ | ⟨ha, hi⟩
  · exact open_exact_file hidle hs h
  · exact open_exact_lost h hfd
  · exact open_exact_refused h hfd ha
  · exact open_exact_failed ha hi
  · exact open_exact_initialised ha hi

/-- The attempt through V4L2 that fails leaves the flag on an idle device only. -/
theorem viaV4L2_failedIdle (hidle : s.FailedIdle) (hret : (s.viaV4L2 c).1 = false) : (s.viaV4L2 c).2.FailedIdle := by
  intro hflag hclosed
  rcases device_cases s.devName c with h | ⟨h, hfd⟩ | ⟨h, hfd, ha⟩ | ⟨ha, hi⟩ | ⟨ha, hi⟩
  · rw [viaV4L2_file h] at hflag hclosed ⊢
    exact hidle hflag hclosed
  · exact (viaV4L2_lost h hfd).2.2.2
  · rw [(viaV4L2_refused h hfd ha).2.2] at hflag
    cases hflag
  · exact (viaV4L2_failed ha hi).2.2.2
  · rw [(viaV4L2_initialised ha hi).1] at hret
    cases hret

theorem open_failedIdle (hidle : s.FailedIdle) (devName : Option (List Char)) :
    (s.open' c devName).2.FailedIdle := by
  intro hflag hclosed
  obtain ⟨hopened, hv4l2, hsession, _⟩ := open_fields s c devName
  rw [hv4l2] at hflag
  rw [hsession]
  have hnot := mt hopened.2 (by rw [hclosed]; decide)
  rw [not_or, not_or, Bool.not_eq_true, Bool.not_eq_true] at hnot
  exact viaV4L2_failedIdle (s := { s with devName := devName.getD s.devName }) hidle hnot.1 hflag hnot.2.1

theorem call_failedIdle (hidle : s.FailedIdle) (e : ImgCall) : (s.call e).FailedIdle := by
  cases e with
  | «open» devName c => exact open_failedIdle hidle devName
  | close =>
    intro hflag
    cases hflag
  | readFrame r => exact hidle

theorem call_exact (hidle : s.FailedIdle) (hs : s.Sound) (e : ImgCall) : (s.call e).Sound ↔ s.Clean e := by
  cases e with
  | «open» devName c => exact open_exact hidle hs devName
  | close =>
    refine ⟨fun _ => trivial, fun _ hopen => ?_⟩
    cases hopen
  | readFrame r => exact ⟨fun _ => trivial, fun _ => hs⟩

end Runs

theorem v4l2_path_ready_iff (es : List ImgCall) :
    StatesMeet step Sound rccImgProc es ↔ StepsMeet step Clean rccImgProc es := by
  have total : ∀ s e, ∃ t, step s e = some t := fun s e => ⟨s.call e, rfl⟩
  have keep : ∀ s e t, FailedIdle s → step s e = some t → FailedIdle t := by
    intro s e t hidle hstep
    cases hstep
    exact call_failedIdle hidle e
  have exact_step : ∀ s e t, FailedIdle s → Sound s → step s e = some t → (Sound t ↔ Clean s e) := by
    intro s e t hidle hs hstep
    cases hstep
    exact call_exact hidle hs e
  have hidle : rccImgProc.FailedIdle := by
    intro hflag
    cases hflag
  have hsound : rccImgProc.Sound := by
    intro hopen
    cases hopen
  obtain ⟨t, ht⟩ := exec_total total rccImgProc es
  exact statesMeet_iff_stepsMeet keep exact_step hidle hsound ht

/-- All calls succeed, for three buffers. -/
def camera : OpenCalls :=
  ⟨5, true, some (640, 480), true, some 3, fun _ => true, fun _ => true, fun _ => true, true, none⟩

/-- A camera that is opened, closed and opened again: `readFrame` shows the memory of the first opening. -/
theorem v4l2_path_stale :
    ∃ t, exec step rccImgProc [.open none camera, .close, .open none camera] = some t ∧
      t.session = ⟨2, some 3, 3, true⟩ ∧
      t.readFrame ⟨true, some 0, true⟩ = (true, some (.yuv 480 640 (some ⟨1, 0⟩))) ∧ ¬ t.Sound := by
  refine ⟨_, rfl, by decide, by decide, ?_⟩
  intro h
  have hbuffers := (h rfl rfl).1.2.2
  exact absurd hbuffers (by decide)

/-- A camera that does not start streaming, where OpenCV opens: `readFrame` stays with V4L2. -/
example :
    ∃ t, exec step rccImgProc [.open none { camera with streamOn := false, capture := some (640, 480) }] = some t ∧
      t.isOpened = true ∧ t.v4l2Open = true ∧ t.session.streaming = false :=
  ⟨_, rfl, by decide, by decide, by decide⟩

end ImgProc

end RcCarControl.Video
