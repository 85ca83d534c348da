import RcCarControl.Fpga.Bt656ToAxiStream
import RcCarControl.Fpga.TpFrames
import RcCarControl.Fpga.VideoCtrlAxi

/-!
# The camera core

`fpga/rtl/video_ctrl/video_ctrl_top.sv`: the registers, the receiver, the test pattern generator and the multiplexer of
`axi_stream_mux.sv` in front of the video bus.  A write to a register may come at any edge of the AXI clock.

The source that is not selected always finds TREADY high, so it goes on as if its beats were taken.  The picture of the
camera is therefore where it would be when the test pattern is switched off again: what is on the bus of each source is
a part of what the source alone would put there, in its order (`bus_of_sources`).
-/

namespace RcCarControl.Fpga

open Lts

structure VideoCtrlTop where
  regs : VideoCtrlRegs
  rx : Bt656ToAxiStream
  tp : TpGen

/-- An instant at which PCLK, the stream clock (with TREADY of the bus) or the AXI clock (with `vdma_frame_ptr_i` and
the register that is written) rise. -/
structure CoreTick where
  pclk : Option CameraIn
  aclk : Option Bool
  axiClk : Option (BitVec 6 × Option (BitVec 6 × BitVec 32))

namespace VideoCtrlTop

variable (s : VideoCtrlTop) (e : CoreTick) (tready : Bool)

/-- `mux_sel`: the test pattern is on the bus. -/
def muxSel : Bool := s.regs.tpEnGen

/-- `axi_video_in1_i.TREADY`, of the receiver. -/
def rxTready : Bool := if !s.muxSel then tready else true

/-- `axi_video_in2_i.TREADY`, of the generator. -/
def tpTready : Bool := if s.muxSel then tready else true

def rxCfg : Bt656Cfg := ⟨s.regs.pureBt656, s.regs.embFrameCnt⟩

def fifoCtrl : FifoCtrl := ⟨s.regs.dataFifoLineLen, s.regs.dataFifoStartRead⟩

/-- What the receiver sees of an instant. -/
def moduleTick : ModuleTick := ⟨e.pclk, e.aclk.map s.rxTready, e.axiClk.map fun _ => s.regs.rstSizeErr⟩

/-- What the generator sees at an edge of the stream clock. -/
def tpIn : TpGenIn :=
  ⟨s.regs.tpEnGen, s.regs.tpWidth, s.regs.tpHeight, s.regs.tpNumFrames, s.regs.tpBlanking, s.tpTready tready⟩

/-- The registers behind an instant. -/
def regsClock : VideoCtrlRegs := e.axiClk.elim s.regs fun (vdmaFramePtrI, wr) => s.regs.clock vdmaFramePtrI wr

/-- The receiver is in reset while `rx_enable` is low. -/
def clock : VideoCtrlTop where
  regs := s.regsClock e
  rx := if s.regs.rxEnable then s.rx.clock s.rxCfg s.fifoCtrl (s.moduleTick e) else s.rx
  tp := e.aclk.elim s.tp fun tready => s.tp.clock (s.tpIn tready)

/-- A run ends when the receiver is disabled. -/
def step : Option VideoCtrlTop :=
  if s.regs.rxEnable = true ∧ (s.regsClock e).rxEnable = false then none else some (s.clock e)

/-- The transfer of the receiver at an instant. -/
def rxBeat : Option Beat :=
  if s.regs.rxEnable then s.rx.stream.beat s.fifoCtrl (s.rx.streamTick (s.moduleTick e)) else none

/-- The transfer of the generator. -/
def tpBeat : Option Beat := e.aclk.bind fun tready => s.tp.beat (s.tpIn tready)

end VideoCtrlTop

/-- A beat of the bus, with its source and with its position among all beats of the source. -/
structure BusBeat where
  muxSel : Bool
  position : Nat
  beat : Beat
deriving DecidableEq

/-- The log of the receiver since it was enabled, that of the generator, and the beats of the bus. -/
structure CoreLog where
  rx : ModuleLog
  tp : TpLog
  bus : List BusBeat

def CoreLog.start : CoreLog := ⟨.start, ⟨⟨0, 0⟩, []⟩, []⟩

/-- The multiplexer passes the transfer of the selected source on. -/
def CoreLog.note (s : VideoCtrlTop) (e : CoreTick) (g : CoreLog) : CoreLog where
  rx := if s.regs.rxEnable then ModuleLog.note s.rxCfg s.rx (s.moduleTick e) g.rx else g.rx
  tp := e.aclk.elim g.tp fun tready => TpLog.note s.tp (s.tpIn tready) g.tp
  bus := g.bus ++
    if s.muxSel then (s.tpBeat e).toList.map fun b => ⟨true, g.tp.beats.length, b⟩
    else (s.rxBeat e).toList.map fun b => ⟨false, s.rx.stream.beats.length, b⟩

namespace VideoCtrlTop

abbrev Logged := VideoCtrlTop × CoreLog

def Logged.step : Logged → CoreTick → Option Logged := withGhost VideoCtrlTop.step CoreLog.note

/-- The part with the receiver. -/
def Logged.rx (r : Logged) : Bt656ToAxiStream.Logged := (r.1.rx, r.2.rx)

/-- The part with the generator. -/
def Logged.tp (r : Logged) : TpGen × TpLog := (r.1.tp, r.2.tp)

/-- While the receiver is enabled its settings are the ones given, and the instant is regular for it. -/
def Received (rxCfg : Bt656Cfg) (cfg : FifoCtrl) (r : Logged) (e : CoreTick) : Prop :=
  r.1.regs.rxEnable = true → (r.1.regs.pureBt656 = rxCfg.pureBt656 ∧ r.1.regs.embFrameCnt = rxCfg.embFrameCnt) ∧
    (r.1.regs.dataFifoLineLen = cfg.dataFifoLineLen ∧ r.1.regs.dataFifoStartRead = cfg.dataFifoStart) ∧
    Bt656ToAxiStream.Regular rxCfg cfg r.rx (r.1.moduleTick e)

/-- The generator samples good sizes at good moments. -/
def Generated (r : Logged) (e : CoreTick) : Prop :=
  ∀ tready ∈ e.aclk, TpGen.SizedStart r.tp (r.1.tpIn tready) ∧ TpGen.GoodStart r.tp (r.1.tpIn tready)

instance (rxCfg : Bt656Cfg) (cfg : FifoCtrl) (r : Logged) (e : CoreTick) : Decidable (Received rxCfg cfg r e) :=
  inferInstanceAs (Decidable (_ → (_ ∧ _) ∧ (_ ∧ _) ∧ _))

instance (r : Logged) (e : CoreTick) : Decidable (Generated r e) :=
  inferInstanceAs (Decidable (∀ tready ∈ e.aclk, _ ∧ _))

/-- Each beat of the bus is the one of its source at its position, and no source is put back. -/
structure Merged (rxBeats tpBeats : List Beat) (bus : List BusBeat) : Prop where
  source : ∀ b ∈ bus, (if b.muxSel then tpBeats else rxBeats)[b.position]? = some b.beat
  order : ∀ muxSel, ((bus.filter fun b => b.muxSel == muxSel).map BusBeat.position).Pairwise (· < ·)

section Merged

variable {rxBeats tpBeats : List Beat} {bus : List BusBeat}

theorem Merged.position_lt (h : Merged rxBeats tpBeats bus) {b : BusBeat} (hb : b ∈ bus) :
    b.position < (if b.muxSel then tpBeats else rxBeats).length :=
  (List.getElem?_eq_some_iff.1 (h.source b hb)).1

/-- The sources go on. -/
theorem Merged.more (h : Merged rxBeats tpBeats bus) (rxMore tpMore : List Beat) :
    Merged (rxBeats ++ rxMore) (tpBeats ++ tpMore) bus := by
  refine ⟨fun b hb => ?_, h.order⟩
  have hlt := h.position_lt hb
  have hbeat := h.source b hb
  cases hsel : b.muxSel with
  | true =>
    simp only [hsel, if_true] at hlt hbeat ⊢
    exact (List.getElem?_append_left hlt).trans hbeat
  | false =>
    simp only [hsel] at hlt hbeat ⊢
    exact (List.getElem?_append_left hlt).trans hbeat

/-- The selected source has transferred a beat. -/
theorem Merged.push (h : Merged rxBeats tpBeats bus) (muxSel : Bool) (beat : Beat) :
    Merged (if muxSel then rxBeats else rxBeats ++ [beat]) (if muxSel then tpBeats ++ [beat] else tpBeats)
      (bus ++ [⟨muxSel, (if muxSel then tpBeats else rxBeats).length, beat⟩]) := by
  constructor
  · intro b hb
    obtain hold | hnew := List.mem_append.1 hb
    · cases muxSel with
      | true => simpa using (h.more [] [beat]).source b hold
      | false => simpa using (h.more [beat] []).source b hold
    · obtain rfl := List.mem_singleton.1 hnew
      cases muxSel <;> simp
  · intro sel
    rw [List.filter_append, List.map_append, List.pairwise_append]
    refine ⟨h.order sel, ?_, ?_⟩
    · cases muxSel <;> cases sel <;> simp
    · intro p hp q hq
      obtain ⟨b, hb, rfl⟩ := List.mem_map.1 hp
      obtain ⟨c, hc, rfl⟩ := List.mem_map.1 hq
      obtain ⟨hb, hsel⟩ := List.mem_filter.1 hb
      obtain ⟨hc, hsel'⟩ := List.mem_filter.1 hc
      obtain rfl := List.mem_singleton.1 hc
      have hlt := h.position_lt hb
      rw [beq_iff_eq] at hsel hsel'
      rw [hsel, ← hsel'] at hlt
      exact hlt

end Merged

/-! ### One instant -/

variable {rxCfg : Bt656Cfg} {cfg : FifoCtrl} {cnts : BitVec 32} {xs : Nat → VideoIn} {r t : Logged} {e : CoreTick}

theorem step_eq (h : Logged.step r e = some t) : t = (r.1.clock e, CoreLog.note r.1 e r.2) := by
  obtain ⟨s, g⟩ := r
  obtain ⟨t, g'⟩ := t
  obtain ⟨h, rfl⟩ := withGhost_eq_some.1 h
  have hs : VideoCtrlTop.step s e = some t := h
  unfold VideoCtrlTop.step at hs
  split_ifs at hs
  cases hs
  rfl

/-- An instant of an enabled receiver. -/
theorem clock_rx (hr : Received rxCfg cfg r e) (hen : r.1.regs.rxEnable = true) (h : Logged.step r e = some t) :
    Bt656ToAxiStream.Logged.step rxCfg cfg r.rx (r.1.moduleTick e) = some t.rx := by
  obtain rfl := step_eq h
  obtain ⟨⟨hpure, hemb⟩, ⟨hlen, hstart⟩, -⟩ := hr hen
  have hrxCfg : r.1.rxCfg = rxCfg := by rw [VideoCtrlTop.rxCfg, hpure, hemb]
  have hcfg : r.1.fifoCtrl = cfg := by rw [fifoCtrl, hlen, hstart]
  have hclock : (r.1.clock e).rx = r.1.rx.clock rxCfg cfg (r.1.moduleTick e) := by
    rw [← hrxCfg, ← hcfg]
    exact if_pos hen
  have hnote : (CoreLog.note r.1 e r.2).rx = ModuleLog.note rxCfg r.1.rx (r.1.moduleTick e) r.2.rx := by
    rw [← hrxCfg]
    exact if_pos hen
  exact withGhost_eq_some.2 ⟨congrArg some hclock.symm, hnote⟩

/-- A receiver in reset stays as it is. -/
theorem clock_rx_disabled (hen : r.1.regs.rxEnable = false) (h : Logged.step r e = some t) : t.rx = r.rx := by
  obtain rfl := step_eq h
  simp [Logged.rx, clock, CoreLog.note, hen]

theorem clock_tp (h : Logged.step r e = some t) :
    t.tp = e.aclk.elim r.tp fun tready =>
      (r.1.tp.clock (r.1.tpIn tready), TpLog.note r.1.tp (r.1.tpIn tready) r.2.tp) := by
  obtain rfl := step_eq h
  cases haclk : e.aclk <;> simp [Logged.tp, clock, CoreLog.note, haclk]

/-- The beats of the receiver. -/
theorem clock_rxBeats (h : Logged.step r e = some t) :
    t.1.rx.stream.beats = r.1.rx.stream.beats ++ (r.1.rxBeat e).toList := by
  obtain rfl := step_eq h
  cases hen : r.1.regs.rxEnable with
  | false => simp [clock, rxBeat, hen]
  | true =>
    simp only [clock, rxBeat, hen, if_true]
    rfl

/-- The beats of the generator. -/
theorem clock_tpBeats (h : Logged.step r e = some t) :
    t.2.tp.beats.map Prod.fst = r.2.tp.beats.map Prod.fst ++ (r.1.tpBeat e).toList := by
  obtain rfl := step_eq h
  cases haclk : e.aclk with
  | none => simp [CoreLog.note, tpBeat, haclk]
  | some tready => simp [CoreLog.note, tpBeat, haclk, TpLog.note, Function.comp_def]

theorem Merged.clock (hm : Merged r.1.rx.stream.beats (r.2.tp.beats.map Prod.fst) r.2.bus)
    (h : Logged.step r e = some t) : Merged t.1.rx.stream.beats (t.2.tp.beats.map Prod.fst) t.2.bus := by
  rw [clock_rxBeats h, clock_tpBeats h]
  obtain rfl := step_eq h
  simp only [CoreLog.note]
  cases hsel : r.1.muxSel with
  | true =>
    have hrest := hm.more (r.1.rxBeat e).toList []
    cases hbeat : r.1.tpBeat e with
    | none => simpa [hbeat] using hrest
    | some beat => simpa [hbeat] using hrest.push true beat
  | false =>
    have hrest := hm.more [] (r.1.tpBeat e).toList
    cases hbeat : r.1.rxBeat e with
    | none => simpa [hbeat] using hrest
    | some beat => simpa [hbeat] using hrest.push false beat

/-- What holds in every state of a run: the receiver is in its invariant, and the bus is a part of the two sources. -/
structure Inv (rxCfg : Bt656Cfg) (cfg : FifoCtrl) (cnts : BitVec 32) (xs : Nat → VideoIn) (r : Logged) : Prop where
  rx : Bt656ToAxiStream.Inv rxCfg cfg cnts xs r.rx
  merged : Merged r.1.rx.stream.beats (r.2.tp.beats.map Prod.fst) r.2.bus

theorem Inv.step (h : Inv rxCfg cfg cnts xs r) (hp : rxCfg.pureBt656 = false) (hL : 1 ≤ cfg.dataFifoLineLen.toNat)
    (hr : Received rxCfg cfg r e) (ht : Logged.step r e = some t) : Inv rxCfg cfg cnts xs t where
  rx := by
    cases hen : r.1.regs.rxEnable with
    | true => exact h.rx.step hp hL (hr hen).2.2 (clock_rx hr hen ht)
    | false =>
      rw [clock_rx_disabled hen ht]
      exact h.rx
  merged := h.merged.clock ht

theorem framed_step (h : TpGen.Framed r.1.tp r.2.tp) (hg : Generated r e) (ht : Logged.step r e = some t) :
    TpGen.Framed t.1.tp t.2.tp := by
  have htp := clock_tp ht
  cases haclk : e.aclk with
  | none =>
    rw [haclk] at htp
    have htp : t.tp = r.tp := htp
    show TpGen.Framed t.tp.1 t.tp.2
    rw [htp]
    exact h
  | some tready =>
    rw [haclk] at htp
    obtain ⟨hs, hgood⟩ := hg tready haclk
    exact TpGen.Framed.step (r := r.tp) (t := t.tp) h hs hgood (congrArg some htp.symm)

/-! ### Runs -/

/-- The beats of a generator in its invariant form frames. -/
theorem wellFormed_of_framed {s : TpGen} {m : TpLog} (h : TpGen.Framed s m) : Framing.WellFormed tpFrame m.beats := by
  cases hst : s.state with
  | vdata => exact (h.position hst).2.2.wellFormed
  | idle => exact (h.between (by rw [hst]; nofun)).2.wellFormed
  | blanking => exact (h.between (by rw [hst]; nofun)).2.wellFormed

/-- Behind a reset of the receiver and of the generator. -/
def off (regs : VideoCtrlRegs) (sizeMem : BitVec 2 → BitVec 32) (sizeStatus : BitVec 32) (counts : FrameLength)
    (mem : BitVec 11 → BitVec 8) (dataOut : BitVec 8) : VideoCtrlTop :=
  ⟨regs, .enabled sizeMem sizeStatus counts mem dataOut, .reset⟩

variable (regs : VideoCtrlRegs) (sizeMem : BitVec 2 → BitVec 32) (sizeStatus : BitVec 32) (counts : FrameLength)
  (mem : BitVec 11 → BitVec 8) (dataOut : BitVec 8)

theorem inv_off (xs : Nat → VideoIn) :
    Inv rxCfg cfg counts.rxFrameCnts xs (off regs sizeMem sizeStatus counts mem dataOut, .start) where
  rx := Bt656ToAxiStream.inv_enabled sizeMem sizeStatus counts mem dataOut xs
  merged := ⟨nofun, fun _ => List.Pairwise.nil⟩

/-- In every run whose instants are regular for the receiver, for pins whose lines have two bytes at least and keep clear of
the frame starts, whenever the test pattern is switched on and off and whatever else is written that leaves the settings of
the receiver: the beats of the camera on the bus are bytes of the
video at their own positions, with TUSER and TLAST where they would be without the test pattern; those of the test
pattern are beats of the generator at their positions, which form frames if it is started well; and neither source ever
goes back. -/
theorem bus_of_sources (hp : rxCfg.pureBt656 = false) (he : rxCfg.embFrameCnt = true)
    (hL : 1 ≤ cfg.dataFifoLineLen.toNat) {es : List CoreTick} {t : Logged} {xs : Nat → VideoIn}
    (hr : StepsMeet Logged.step (Received rxCfg cfg) (off regs sizeMem sizeStatus counts mem dataOut, .start) es)
    (h : exec Logged.step (off regs sizeMem sizeStatus counts mem dataOut, .start) es = some t)
    (hx : Extends xs t.2.rx.status.samples) (hl : LongLines xs) (hq : QuietStarts xs)
    (hfull : ∀ k, (xs k).dataFifoFull = false) :
    (∀ b ∈ t.2.bus, b.muxSel = false → ∃ k, (captured xs (t.2.rx.status.samples.length - 1))[b.position]? = some k ∧
        numberedByte counts.rxFrameCnts xs k = some b.beat.tdata ∧ (b.beat.tuser = true ↔ byteNo xs k = 0) ∧
        (b.beat.tlast = true ↔ (b.position + 1) % cfg.dataFifoLineLen.toNat = 0)) ∧
      (∀ b ∈ t.2.bus, b.muxSel = true → (t.2.tp.beats.map Prod.fst)[b.position]? = some b.beat) ∧
      (StepsMeet Logged.step Generated (off regs sizeMem sizeStatus counts mem dataOut, .start) es →
        Framing.WellFormed tpFrame t.2.tp.beats) ∧
      ∀ muxSel, ((t.2.bus.filter fun b => b.muxSel == muxSel).map BusBeat.position).Pairwise (· < ·) := by
  have hinv : Inv rxCfg cfg counts.rxFrameCnts xs t :=
    exec_invariant (fun _ _ _ hi hr ht => hi.step hp hL hr ht)
      (inv_off regs sizeMem sizeStatus counts mem dataOut xs) hr h
  refine ⟨fun b hb hsel => ?_, fun b hb hsel => ?_, fun hg => ?_, hinv.merged.order⟩
  · have hbeat := hinv.merged.source b hb
    rw [hsel] at hbeat
    exact hinv.rx.beat hp he hx hl hq hfull hbeat
  · have hbeat := hinv.merged.source b hb
    rw [hsel] at hbeat
    exact hbeat
  · have hframed : TpGen.Framed t.1.tp t.2.tp :=
      exec_invariant (fun _ _ _ hf hg ht => framed_step hf hg ht) TpGen.framed_start hg h
    exact wellFormed_of_framed hframed

/-- An enabled camera with lines of three bytes, and a test pattern of lines of two. -/
def twoLines : VideoCtrlRegs :=
  { VideoCtrlRegs.reset with
    rxEnable := true
    embFrameCnt := true
    dataFifoStartRead := 3
    dataFifoLineLen := 3
    tpWidth := 2
    tpHeight := 1 }

/-- The two frames of one line of `StatusPath.twoFramesPins`. -/
def twoFramesCamera (k : Nat) : CameraIn :=
  ⟨(StatusPath.twoFramesPins k).vsync, (StatusPath.twoFramesPins k).href, (StatusPath.twoFramesPins k).data⟩

/-- The test pattern is on during the first of the two frames. -/
def firstHidden : List CoreTick :=
  (List.range 24).flatMap fun k =>
    let tpCtrl := if k = 5 then some (tpCtrlAddr, 0x301) else if k = 15 then some (tpCtrlAddr, 0x300) else none
    [⟨none, some true, some (0, tpCtrl)⟩, ⟨some (twoFramesCamera k), none, none⟩, ⟨none, some true, some (0, none)⟩]

/-- The first beat of the camera on the bus is the first byte of the second frame. -/
theorem bus_of_sources_firstHidden : ∃ t k,
    exec Logged.step (off twoLines (fun _ => 0) 0 ⟨0, 0, 255⟩ (fun _ => 0) 0, .start) firstHidden = some t ∧
      t.2.bus.find? (fun b => !b.muxSel) = some ⟨false, 3, ⟨1, false, true⟩⟩ ∧
      (captured StatusPath.twoFramesVideo (t.2.rx.status.samples.length - 1))[3]? = some k ∧
      numberedByte 255 StatusPath.twoFramesVideo k = some 1 ∧ byteNo StatusPath.twoFramesVideo k = 0 := by
  obtain ⟨t, ht, hbeat, hsamples⟩ := @exists_exec _ _ Logged.step
    (fun t => t.2.bus.find? (fun b => !b.muxSel) = some ⟨false, 3, ⟨1, false, true⟩⟩ ∧
      t.2.rx.status.samples = (List.range 24).map StatusPath.twoFramesVideo) _
    (off twoLines (fun _ => 0) 0 ⟨0, 0, 255⟩ (fun _ => 0) 0, .start) firstHidden (by decide +kernel)
  have hx : Extends StatusPath.twoFramesVideo t.2.rx.status.samples := by
    rw [hsamples]
    exact extends_range _ _
  have hr : StepsMeet Logged.step (Received ⟨false, true⟩ ⟨3, 3⟩)
      (off twoLines (fun _ => 0) 0 ⟨0, 0, 255⟩ (fun _ => 0) 0, .start) firstHidden := by decide +kernel
  have hcamera := (bus_of_sources twoLines (fun _ => 0) 0 ⟨0, 0, 255⟩ (fun _ => 0) 0 rfl rfl (by decide) hr ht hx
    StatusPath.longLines_twoFrames StatusPath.quietStarts_twoFrames fun _ => rfl).1
  obtain ⟨k, hk, hdata, htuser, -⟩ := hcamera _ (List.mem_of_find?_eq_some hbeat) rfl
  exact ⟨t, k, ht, hbeat, hk, hdata, htuser.1 rfl⟩

end VideoCtrlTop

end RcCarControl.Fpga
