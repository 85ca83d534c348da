import RcCarControl.Driver.Streaming

/-!
# Formats and sizes

The negotiation of the format in `linux/xilinx-rcc-cam.c` (`xrcc_cam_try_format`, `xrcc_cam_set_format`), the sizes of the
buffers (`xrcc_cam_queue_setup`, `xrcc_cam_buffer_prepare`) and what `vdma_ctrl_configure` programs when the stream starts.
videobuf2 is busy while buffers are allocated, and starts the stream only then; when it frees them it stops the stream.
-/

namespace RcCarControl.Driver

open Lts

/-! ### Structures -/

def v4l2PixFmtYuyv : U32 := 0x56595559
def v4l2PixFmtRgb24 : U32 := 0x33424752
def v4l2ColorspaceSrgb : U32 := 8
def v4l2FieldAny : U32 := 0
def v4l2BufTypeVideoCapture : U32 := 1

/-- `struct v4l2_pix_format`. -/
structure V4l2PixFormat where
  width : U32
  height : U32
  pixelformat : U32
  field : U32
  bytesperline : U32
  sizeimage : U32
  colorspace : U32
  priv : U32
  flags : U32
  ycbcrEnc : U32
  quantization : U32
  xferFunc : U32
deriving DecidableEq

/-- An entry of `xrcc_cam_formats` with its fourcc. -/
structure XrccCamFourcc extends XrccCamFmt where
  fourcc : U32

def xrccCamFourccs : List XrccCamFourcc := [⟨⟨640, 480, 2⟩, v4l2PixFmtYuyv⟩, ⟨⟨640, 480, 3⟩, v4l2PixFmtRgb24⟩]

theorem xrccCamFourccs_map : xrccCamFourccs.map (·.toXrccCamFmt) = xrccCamFormats := rfl

/-- `xrcc_cam_formats[fmt_idx]`. -/
def fmtAt (fmtIdx : Nat) : XrccCamFourcc := xrccCamFourccs.getD fmtIdx ⟨⟨640, 480, 2⟩, v4l2PixFmtYuyv⟩

/-- The test of the first loop of `__xrcc_cam_do_try_fmt`. -/
def XrccCamFourcc.exactMatch (fmt : XrccCamFourcc) (pix : V4l2PixFormat) : Bool :=
  pix.width == fmt.width && pix.height == fmt.height && pix.pixelformat == fmt.fourcc

/-! ### Negotiation -/

/-- `__xrcc_cam_do_try_fmt` for a device with the format. -/
def doTryFmt (format pix : V4l2PixFormat) : V4l2PixFormat × Nat :=
  let pix := { pix with colorspace := format.colorspace, field := format.field }
  match xrccCamFourccs.findIdx? (·.exactMatch pix) with
  | some fmtIdx =>
    ({ pix with
      bytesperline := pix.width * (fmtAt fmtIdx).depth
      sizeimage := pix.width * pix.height * (fmtAt fmtIdx).depth }, fmtIdx)
  | none =>
    let found := xrccCamFourccs.findIdx? fun fmt => pix.pixelformat == fmt.fourcc
    let fmtIdx := found.getD 0
    ({ pix with
      pixelformat := if found.isSome then pix.pixelformat else (fmtAt fmtIdx).fourcc
      width := (fmtAt fmtIdx).width
      height := (fmtAt fmtIdx).height
      bytesperline := (fmtAt fmtIdx).width * (fmtAt fmtIdx).depth
      sizeimage := (fmtAt fmtIdx).width * (fmtAt fmtIdx).height * (fmtAt fmtIdx).depth }, fmtIdx)

/-! ### The device under videobuf2 -/

variable {n : Nat}

structure FormatDev (n : Nat) where
  fmtIdx : Nat
  format : V4l2PixFormat
  /-- Buffers are allocated. -/
  busy : Bool
  /-- The plane sizes of the buffers that `xrcc_cam_buffer_prepare` has accepted. -/
  accepted : List Nat
  vdma : Vdma n

inductive FormatEvent (n : Nat) where
  | setFormat (type : U32) (pix : V4l2PixFormat)
  | tryFormat (type : U32) (pix : V4l2PixFormat)
  /-- videobuf2 asks for buffers; with `nplanes` the caller has chosen the size.  There may be no memory for them. -/
  | queueSetup (nplanes : Bool) (size : U32) (memory : Bool)
  | prepare (planeSize : Nat)
  /-- With the device's slots. -/
  | start (dev : XrccCamDev n)
  | stop
  | free

/-- After `xrcc_cam_probe`, with zeros where `xrcc_cam_video_config` sets nothing. -/
def FormatDev.probed (vdma : Vdma n) : FormatDev n where
  fmtIdx := 0
  format :=
    { width := (fmtAt 0).width
      height := (fmtAt 0).height
      pixelformat := (fmtAt 0).fourcc
      field := v4l2FieldAny
      bytesperline := (fmtAt 0).width * (fmtAt 0).depth
      sizeimage := (fmtAt 0).width * (fmtAt 0).height * (fmtAt 0).depth
      colorspace := v4l2ColorspaceSrgb
      priv := 0
      flags := 0
      ycbcrEnc := 0
      quantization := 0
      xferFunc := 0 }
  busy := false
  accepted := []
  vdma := vdmaCtrlReset vdma

namespace FormatDev

variable (s : FormatDev n)

/-- `xrcc_cam_set_format`. -/
def setFormat (type : U32) (pix : V4l2PixFormat) : FormatDev n :=
  if type ≠ v4l2BufTypeVideoCapture then s
  else if s.busy then s
  else
    let r := doTryFmt s.format pix
    { s with format := r.1, fmtIdx := r.2 }

/-- `xrcc_cam_try_format`: the negotiated format goes to the caller only. -/
def tryFormat (type : U32) (pix : V4l2PixFormat) : Option V4l2PixFormat :=
  if type ≠ v4l2BufTypeVideoCapture then none else some (doTryFmt s.format pix).1

/-- `xrcc_cam_queue_setup`: the plane size of the buffers, unless the caller's is too small. -/
def queueSetup (nplanes : Bool) (size : U32) : Option U32 :=
  if nplanes then if size < s.format.sizeimage then none else some size else some s.format.sizeimage

/-- `xrcc_cam_buffer_prepare`. -/
def bufferPrepare (planeSize : Nat) : FormatDev n :=
  if planeSize < s.format.sizeimage.toNat then s else { s with accepted := s.accepted ++ [planeSize] }

/-- `xrcc_cam_start_streaming`, as far as the VDMA goes. -/
def startStreaming [NeZero n] (dev : XrccCamDev n) : FormatDev n :=
  match xrccCamFormats[s.fmtIdx]? with
  | none => s
  | some fmt => { s with vdma := vdmaCtrlConfigure dev s.vdma fmt.width fmt.height fmt.depth }

def step [NeZero n] (s : FormatDev n) : FormatEvent n → Option (FormatDev n)
  | .setFormat type pix => some (s.setFormat type pix)
  | .tryFormat _ _ => some s
  | .queueSetup nplanes size memory => some { s with busy := s.busy || (s.queueSetup nplanes size).isSome && memory }
  | .prepare planeSize => if s.busy then some (s.bufferPrepare planeSize) else none
  | .start dev => if s.busy then some (s.startStreaming dev) else none
  | .stop => some { s with vdma := vdmaCtrlReset s.vdma }
  | .free => some { s with busy := false, accepted := [], vdma := vdmaCtrlReset s.vdma }

/-- The format is the table's entry at the index, and a running VDMA writes no more than fits a buffer. -/
structure Sound (s : FormatDev n) : Prop where
  fmtIdx : s.fmtIdx < xrccCamFourccs.length
  width : s.format.width = (fmtAt s.fmtIdx).width
  height : s.format.height = (fmtAt s.fmtIdx).height
  pixelformat : s.format.pixelformat = (fmtAt s.fmtIdx).fourcc
  bytesperline : s.format.bytesperline = (fmtAt s.fmtIdx).width * (fmtAt s.fmtIdx).depth
  sizeimage : s.format.sizeimage = (fmtAt s.fmtIdx).width * (fmtAt s.fmtIdx).height * (fmtAt s.fmtIdx).depth
  fits : s.vdma.running = true → ∀ planeSize ∈ s.accepted, s.vdma.hsize.toNat * s.vdma.vsize.toNat ≤ planeSize

end FormatDev

/-! ### The table -/

theorem fmtAt_of_findIdx? {p : XrccCamFourcc → Bool} {i : Nat} (h : xrccCamFourccs.findIdx? p = some i) :
    i < xrccCamFourccs.length ∧ p (fmtAt i) = true := by
  obtain ⟨hi, hp, -⟩ := List.findIdx?_eq_some_iff_getElem.1 h
  exact ⟨hi, by rwa [fmtAt, List.getD_eq_getElem?_getD, List.getElem?_eq_getElem hi, Option.getD_some]⟩

theorem length_cases {i : Nat} (hi : i < xrccCamFourccs.length) : i = 0 ∨ i = 1 := by
  have hlen : xrccCamFourccs.length = 2 := rfl
  omega

/-- No two entries have the same fourcc, so a format that is an entry's is found there. -/
theorem findIdx?_exactMatch {pix : V4l2PixFormat} {i : Nat} (hi : i < xrccCamFourccs.length)
    (hw : pix.width = (fmtAt i).width) (hh : pix.height = (fmtAt i).height) (hp : pix.pixelformat = (fmtAt i).fourcc) :
    xrccCamFourccs.findIdx? (·.exactMatch pix) = some i := by
  simp only [XrccCamFourcc.exactMatch, hw, hh, hp]
  rcases length_cases hi with rfl | rfl <;> decide

theorem xrccCamFormats_get {i : Nat} (hi : i < xrccCamFourccs.length) :
    xrccCamFormats[i]? = some (fmtAt i).toXrccCamFmt := by
  have hat : xrccCamFourccs[i]? = some (fmtAt i) := by
    rw [fmtAt, List.getD_eq_getElem?_getD, List.getElem?_eq_getElem hi, Option.getD_some]
  rw [← xrccCamFourccs_map, List.getElem?_map, hat, Option.map_some]

/-- The size of a line times the number of lines is the size of the image. -/
theorem lines_eq_sizeimage {i : Nat} (hi : i < xrccCamFourccs.length) :
    ((fmtAt i).width * (fmtAt i).depth).toNat * (fmtAt i).height.toNat =
      ((fmtAt i).width * (fmtAt i).height * (fmtAt i).depth).toNat := by
  rcases length_cases hi with rfl | rfl <;> decide

/-- The negotiated format is the entry at the index, with the colours and the field of the device. -/
theorem doTryFmt_spec (format pix : V4l2PixFormat) :
    (doTryFmt format pix).2 < xrccCamFourccs.length ∧
      (doTryFmt format pix).1 = { pix with
        colorspace := format.colorspace
        field := format.field
        width := (fmtAt (doTryFmt format pix).2).width
        height := (fmtAt (doTryFmt format pix).2).height
        pixelformat := (fmtAt (doTryFmt format pix).2).fourcc
        bytesperline := (fmtAt (doTryFmt format pix).2).width * (fmtAt (doTryFmt format pix).2).depth
        sizeimage := (fmtAt (doTryFmt format pix).2).width * (fmtAt (doTryFmt format pix).2).height *
          (fmtAt (doTryFmt format pix).2).depth } := by
  have hsame (fmt : XrccCamFourcc) :
      fmt.exactMatch { pix with colorspace := format.colorspace, field := format.field } = fmt.exactMatch pix := rfl
  unfold doTryFmt
  simp only [hsame]
  cases he : xrccCamFourccs.findIdx? (·.exactMatch pix) with
  | some i =>
    obtain ⟨hi, hp⟩ := fmtAt_of_findIdx? he
    simp only [XrccCamFourcc.exactMatch, Bool.and_eq_true, beq_iff_eq] at hp
    obtain ⟨⟨hw, hh⟩, hf⟩ := hp
    exact ⟨hi, by simp only [hw, hh, hf]⟩
  | none =>
    cases hs : xrccCamFourccs.findIdx? fun fmt => pix.pixelformat == fmt.fourcc with
    | some i =>
      obtain ⟨hi, hp⟩ := fmtAt_of_findIdx? hs
      rw [beq_iff_eq] at hp
      exact ⟨hi, by simp only [Option.isSome_some, Option.getD_some, if_true, hp]⟩
    | none => exact ⟨Nat.zero_lt_two, by simp only [Option.isSome_none, Option.getD_none, Bool.false_eq_true, if_false]⟩

theorem doTryFmt_idem (format pix : V4l2PixFormat) :
    doTryFmt format (doTryFmt format pix).1 = doTryFmt format pix := by
  obtain ⟨hi, hf⟩ := doTryFmt_spec format pix
  generalize hr : doTryFmt format pix = r at hi hf
  obtain ⟨pix', i⟩ := r
  simp only at hi hf
  have hx : xrccCamFourccs.findIdx?
      (·.exactMatch { pix' with colorspace := format.colorspace, field := format.field }) = some i := by
    rw [hf]
    exact findIdx?_exactMatch hi rfl rfl rfl
  unfold doTryFmt
  simp only [hx]
  rw [hf]

/-! ### Runs -/

namespace FormatDev

/-- The sound states; besides, what was accepted is as large as the image, and the VDMA runs with the format only while
buffers are allocated. -/
structure Inv (s : FormatDev n) : Prop where
  fmtIdx : s.fmtIdx < xrccCamFourccs.length
  format : s.format = { s.format with
    width := (fmtAt s.fmtIdx).width
    height := (fmtAt s.fmtIdx).height
    pixelformat := (fmtAt s.fmtIdx).fourcc
    bytesperline := (fmtAt s.fmtIdx).width * (fmtAt s.fmtIdx).depth
    sizeimage := (fmtAt s.fmtIdx).width * (fmtAt s.fmtIdx).height * (fmtAt s.fmtIdx).depth }
  idle : s.busy = false → s.accepted = [] ∧ s.vdma.running = false
  accepted : ∀ planeSize ∈ s.accepted, s.format.sizeimage.toNat ≤ planeSize
  running : s.vdma.running = true →
    s.vdma.hsize = (fmtAt s.fmtIdx).width * (fmtAt s.fmtIdx).depth ∧ s.vdma.vsize = (fmtAt s.fmtIdx).height

theorem Inv.sound {s : FormatDev n} (h : s.Inv) : s.Sound := by
  have hsize : s.format.sizeimage = (fmtAt s.fmtIdx).width * (fmtAt s.fmtIdx).height * (fmtAt s.fmtIdx).depth := by
    rw [h.format]
  refine ⟨h.fmtIdx, ?_, ?_, ?_, ?_, hsize, fun hrun planeSize hp => ?_⟩
  · rw [h.format]
  · rw [h.format]
  · rw [h.format]
  · rw [h.format]
  · obtain ⟨hh, hv⟩ := h.running hrun
    rw [hh, hv, lines_eq_sizeimage h.fmtIdx, ← hsize]
    exact h.accepted planeSize hp

theorem inv_probed (vdma : Vdma n) : (probed vdma).Inv where
  fmtIdx := Nat.zero_lt_two
  format := rfl
  idle _ := ⟨rfl, rfl⟩
  accepted _ hp := by cases hp
  running hrun := by cases hrun

/-- A format is set only while no buffers are allocated, so nothing depends on the old one. -/
theorem Inv.setFormat {s : FormatDev n} (h : s.Inv) (type : U32) (pix : V4l2PixFormat) : (s.setFormat type pix).Inv := by
  unfold FormatDev.setFormat
  split_ifs with htype hbusy
  · exact h
  · exact h
  · rw [Bool.not_eq_true] at hbusy
    obtain ⟨hacc, hrun⟩ := h.idle hbusy
    obtain ⟨hi, hf⟩ := doTryFmt_spec s.format pix
    constructor
    · exact hi
    · simp only
      rw [hf]
    · exact fun _ => ⟨hacc, hrun⟩
    · intro planeSize hp
      simp only [hacc] at hp
      cases hp
    · intro hr
      simp only [hrun] at hr
      cases hr

theorem Inv.bufferPrepare {s : FormatDev n} (h : s.Inv) (hbusy : s.busy = true) (planeSize : Nat) :
    (s.bufferPrepare planeSize).Inv := by
  unfold FormatDev.bufferPrepare
  split_ifs with hlt
  · exact h
  · constructor
    · exact h.fmtIdx
    · exact h.format
    · intro hb
      rw [hbusy] at hb
      cases hb
    · intro size hp
      rcases List.mem_append.1 hp with hp | hp
      · exact h.accepted size hp
      · rw [List.mem_singleton.1 hp]
        exact Nat.le_of_not_lt hlt
    · exact h.running

theorem Inv.startStreaming [NeZero n] {s : FormatDev n} (h : s.Inv) (hbusy : s.busy = true) (dev : XrccCamDev n) :
    (s.startStreaming dev).Inv := by
  unfold FormatDev.startStreaming
  rw [xrccCamFormats_get h.fmtIdx]
  constructor
  · exact h.fmtIdx
  · exact h.format
  · intro hb
    rw [hbusy] at hb
    cases hb
  · exact h.accepted
  · intro hrun
    obtain ⟨hhsize, hvsize, -⟩ := vdmaCtrlConfigure_running hrun
    exact ⟨hhsize, hvsize⟩

theorem Inv.step [NeZero n] {s t : FormatDev n} {e : FormatEvent n} (h : s.Inv) (ht : s.step e = some t) : t.Inv := by
  cases e with
  | setFormat type pix =>
    cases ht
    exact h.setFormat type pix
  | tryFormat type pix =>
    cases ht
    exact h
  | queueSetup nplanes size memory =>
    cases ht
    refine ⟨h.fmtIdx, h.format, fun hb => h.idle ?_, h.accepted, h.running⟩
    exact (Bool.or_eq_false_iff.1 hb).1
  | prepare planeSize =>
    simp only [FormatDev.step, Option.ite_none_right_eq_some, Option.some.injEq] at ht
    obtain ⟨hbusy, rfl⟩ := ht
    exact h.bufferPrepare hbusy planeSize
  | start dev =>
    simp only [FormatDev.step, Option.ite_none_right_eq_some, Option.some.injEq] at ht
    obtain ⟨hbusy, rfl⟩ := ht
    exact h.startStreaming hbusy dev
  | stop =>
    cases ht
    exact ⟨h.fmtIdx, h.format, fun hb => ⟨(h.idle hb).1, rfl⟩, h.accepted, fun hrun => by cases hrun⟩
  | free =>
    cases ht
    exact ⟨h.fmtIdx, h.format, fun _ => ⟨rfl, rfl⟩, (fun _ hp => by cases hp), fun hrun => by cases hrun⟩

/-- To set a format that was tried is to set the format that was asked for. -/
theorem setFormat_tryFormat {s : FormatDev n} {type : U32} {pix pix' : V4l2PixFormat}
    (h : s.tryFormat type pix = some pix') : s.setFormat type pix' = s.setFormat type pix := by
  simp only [FormatDev.tryFormat, Option.ite_none_left_eq_some, Option.some.injEq] at h
  obtain ⟨-, rfl⟩ := h
  simp only [FormatDev.setFormat, doTryFmt_idem]

/-- In every run the format is that of its index and a running VDMA keeps inside the buffers; and negotiating the result
of a negotiation changes nothing. -/
theorem statesMeet_sound [NeZero n] (vdma : Vdma n) (es : List (FormatEvent n)) :
    StatesMeet step Sound (probed vdma) es ∧
      ∀ format pix, doTryFmt format (doTryFmt format pix).1 = doTryFmt format pix :=
  ⟨statesMeet_of_invariant (fun _ _ _ h ht => h.step ht) (fun _ h => h.sound) (inv_probed vdma) es, doTryFmt_idem⟩

/-- A session with three buffers in RGB. -/
def rgbSession : List (FormatEvent 3) :=
  [.setFormat v4l2BufTypeVideoCapture ⟨640, 480, v4l2PixFmtRgb24, 0, 0, 0, 0, 0, 0, 0, 0, 0⟩, .queueSetup false 0 true,
    .prepare 921600, .start ⟨fun slot => ⟨some slot, 0x1000, true⟩, false, 0, 0, true, true⟩, .stop, .free]

theorem statesMeet_sound_rgbSession :
    StatesMeet step Sound (probed ⟨fun _ => 0, 0, 0, 0, false, 0⟩) rgbSession ∧
      ∀ format pix, doTryFmt format (doTryFmt format pix).1 = doTryFmt format pix :=
  statesMeet_sound ⟨fun _ => 0, 0, 0, 0, false, 0⟩ rgbSession

/-- A request for RGB with a size of its own is met with the table's size, and the VDMA is given three bytes a pixel. -/
example : (doTryFmt ⟨0, 0, 0, 0, 0, 0, 8, 0, 0, 0, 0, 0⟩ ⟨1920, 1080, v4l2PixFmtRgb24, 0, 7, 7, 1, 0, 0, 0, 0, 0⟩) =
    (⟨640, 480, v4l2PixFmtRgb24, 0, 1920, 921600, 8, 0, 0, 0, 0, 0⟩, 1) := by
  decide

end FormatDev

end RcCarControl.Driver
