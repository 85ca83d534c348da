import Mathlib.Algebra.Group.Fin.Basic
import RcCarControl.Driver.RingSafety

/-!
# The pictures of a session

What user space gets between `xrcc_cam_start_streaming` and `xrcc_cam_stop_streaming`.  All buffers are queued when the
streaming starts, so each slot keeps its buffer for the session, and that buffer is the one the VDMA writes at the
place of the slot in its ring.

However slow user space is and whenever the interrupts come, the completed buffers carry the sequence numbers
0, 1, 2, … and are those of the slots that the interrupts named (`completed_numbered`).  When each frame has its
interrupt, and the buffer of the frame is back by then, no frame is lost: frame `k` is completion `k`
(`frames_in_order`).  Both are about a driver whose lock is free: after the error exit of `xrcc_cam_buffer_queue` it is
held for ever, and nothing comes back any more.
-/

namespace RcCarControl.Driver

open Fpga Lts

variable {n : Nat}

/-- What happened since streaming started: the buffers of the slots then, the slots of the frames that the VDMA began,
the slots of the interrupts that found a buffer, and what the interrupts gave back. -/
structure Session (n : Nat) where
  bufAt : Fin n → Option Nat
  frames : List (Fin n)
  taken : List (Fin n)
  done : Returned

def Session.blank (n : Nat) : Session n := ⟨fun _ => none, [], [], []⟩

section Note

variable [NeZero n] (named : BitVec 6 → Option (Fin n))

/-- The slot that an interrupt names. -/
def Streaming.irqSlot (s : Streaming n) (bus : BusIn) : Fin n :=
  irqIdx (s.regs.read bus.vdmaFramePtrI bus.rx (regAddr videoCtrlRxCtrl))

def Session.note (s : Streaming n) (e : StreamEvent) (g : Session n) : Session n :=
  match e with
  | .start fmtIdx _ =>
    if fmtIdx < xrccCamFormats.length then ⟨fun i => (s.capture.dev.vectBufs i).buf, [], [], []⟩ else g
  | .frame => { g with frames := g.frames ++ [s.vdma.target named s.regs.vdmaFramePtrO] }
  | .irq bus =>
    { g with
      taken := if (s.capture.dev.vectBufs (s.irqSlot bus)).registered then g.taken ++ [s.irqSlot bus] else g.taken
      done := g.done ++ (s.irqEffects (s.regs.read bus.vdmaFramePtrI bus.rx (regAddr videoCtrlRxCtrl))).1 }
  | _ => g

abbrev Filmed (n : Nat) := Streaming n × Session n

def Filmed.step : Filmed n → StreamEvent → Option (Filmed n) :=
  withGhost (Streaming.step named) (Session.note named)

end Note

/-! ### One call -/

section Calls

variable [NeZero n] {c c' : Capture n}

/-- Calls that take the lock come back from a free one. -/
theorem queue_dev {vbuf : Nat} {addr : U32} (h : c.step (.queue vbuf addr) = some c') :
    c'.dev.sequence = c.dev.sequence ∧ c'.idle = false := by
  obtain ⟨-, hc⟩ := step_cases h
  cases hl : c.dev.queuedLock with
  | true => simp [Capture.call, queue_held hl, bind, Except.bind] at hc
  | false =>
    cases hf : findSlot c.dev addr with
    | none =>
      simp only [Capture.call, queue_not_found hl hf, bind, Except.bind, pure, Except.pure, Except.ok.injEq] at hc
      subst hc
      exact ⟨rfl, rfl⟩
    | some idx =>
      rw [call_queue_found hl hf, Except.ok.injEq] at hc
      subst hc
      exact ⟨rfl, rfl⟩

/-- What an interrupt does to the capture: every slot keeps its buffer, and the sequence counter counts the
completions. -/
structure IrqCame (c c' : Capture n) (rxCtrlReg : U32) : Prop where
  unlocked : c.dev.queuedLock = false
  live : c'.live = c.live
  idle : c'.idle = c.idle
  kept : ∀ i, (c'.dev.vectBufs i).buf = (c.dev.vectBufs i).buf ∧ (c'.dev.vectBufs i).addr = (c.dev.vectBufs i).addr
  completes : (c.dev.vectBufs (irqIdx rxCtrlReg)).registered = false ∧ c'.dev.sequence = c.dev.sequence ∧
      (∃ dev, xrccCamIrqHandler c.dev rxCtrlReg = .ok (dev, [], some rxCtrlReg)) ∨
    (c.dev.vectBufs (irqIdx rxCtrlReg)).registered = true ∧ c'.dev.sequence = c.dev.sequence + 1 ∧
      ∃ vbuf dev, (c.dev.vectBufs (irqIdx rxCtrlReg)).buf = some vbuf ∧
        xrccCamIrqHandler c.dev rxCtrlReg = .ok (dev, [(vbuf, .done c.dev.sequence)], some rxCtrlReg)

theorem irq_came (hA : Accounts c) {rxCtrlReg : U32} (h : c.step (.irq rxCtrlReg) = some c') :
    IrqCame c c' rxCtrlReg := by
  obtain ⟨-, hc⟩ := step_cases h
  cases hl : c.dev.queuedLock with
  | true => simp [Capture.call, irq_held hA.videoMem hA.vdmaMem hl, bind, Except.bind] at hc
  | false =>
    cases hr : (c.dev.vectBufs (irqIdx rxCtrlReg)).registered with
    | false =>
      have hirq := irq_unregistered hA.videoMem hA.vdmaMem hl hr
      simp only [Capture.call, hirq, bind, Except.bind, pure, Except.pure, Except.ok.injEq] at hc
      subst hc
      exact ⟨hl, rfl, rfl, fun _ => ⟨rfl, rfl⟩, .inl ⟨hr, rfl, _, hirq⟩⟩
    | true =>
      obtain ⟨vbuf, hb, -⟩ := (hA.ledger hl).holds _ hr
      have hirq := irq_registered hA.videoMem hA.vdmaMem hl hr hb
      simp only [Capture.call, hirq, bind, Except.bind, pure, Except.pure, Except.ok.injEq] at hc
      subst hc
      refine ⟨hl, rfl, rfl, fun i => ?_, .inr ⟨hr, rfl, vbuf, _, hb, hirq⟩⟩
      show ((Function.update c.dev.vectBufs (irqIdx rxCtrlReg) _) i).buf = _ ∧
        ((Function.update c.dev.vectBufs (irqIdx rxCtrlReg) _) i).addr = _
      by_cases hi : i = irqIdx rxCtrlReg
      · subst hi
        rw [Function.update_self]
        exact ⟨rfl, rfl⟩
      · rw [Function.update_of_ne hi]
        exact ⟨rfl, rfl⟩

end Calls

/-! ### The slots at the start -/

/-- With `n` buffers queued every slot is registered. -/
theorem registered_of_allQueued {s : Streaming n} (hA : Accounts s.capture) (hl : s.capture.dev.queuedLock = false)
    (hnodup : (s.capture.live.map Prod.fst).Nodup) (hq : s.AllQueued) (i : Fin n) :
    (s.capture.dev.vectBufs i).registered = true := by
  have hL := hA.ledger hl
  -- each buffer is in a registered slot
  have hslot : ∀ b ∈ s.capture.live.map Prod.fst, ∃ j,
      (s.capture.dev.vectBufs j).registered = true ∧ (s.capture.dev.vectBufs j).buf = some b := by
    intro b hb
    obtain ⟨x, hx, rfl⟩ := List.mem_map.1 hb
    by_contra hno
    have heven := hL.settled x.1 fun j hj hbj => hno ⟨j, hj, hbj⟩
    have howed := hq.2 x hx
    omega
  by_contra hi
  have hsub : (s.capture.live.map Prod.fst).toFinset ⊆
      (Finset.univ.erase i).image fun j => (s.capture.dev.vectBufs j).buf.getD 0 := by
    intro b hb
    obtain ⟨j, hj, hbj⟩ := hslot b (List.mem_toFinset.1 hb)
    have hne : j ≠ i := by
      rintro rfl
      exact hi hj
    exact Finset.mem_image.2 ⟨j, Finset.mem_erase.2 ⟨hne, Finset.mem_univ j⟩, by rw [hbj]; rfl⟩
  have hcard := (Finset.card_le_card hsub).trans Finset.card_image_le
  rw [List.toFinset_card_of_nodup hnodup, List.length_map, hq.1, Finset.card_erase_of_mem (Finset.mem_univ i),
    Finset.card_fin] at hcard
  have := i.pos
  omega

theorem ofNat_succ [NeZero n] (k : Nat) : Fin.ofNat n k + 1 = Fin.ofNat n (k + 1) := by
  ext
  simp [Fin.val_add]

/-! ### A session -/

/-- While streaming: each slot has the buffer it had at the start, and the completions are numbered. -/
structure InSession (s : Streaming n) (g : Session n) : Prop where
  idle : s.capture.idle = false
  slots : ∀ i, ∃ b, (s.capture.dev.vectBufs i).buf = some b ∧ g.bufAt i = some b ∧
    (b, (s.capture.dev.vectBufs i).addr) ∈ s.capture.live
  sequence : s.capture.dev.sequence = BitVec.ofNat 32 g.taken.length
  done : g.done.map (fun d => (some d.1, d.2)) =
    g.taken.mapIdx fun k i => (g.bufAt i, BufState.done (BitVec.ofNat 32 k))

/-- The VDMA goes round the ring. -/
structure Rounds [NeZero n] (s : Streaming n) (g : Session n) : Prop where
  next : s.vdma.next = Fin.ofNat n g.frames.length
  frames : g.frames = (List.range g.frames.length).map (Fin.ofNat n)

/-- What holds in every state of a run.  A call that took the error exit of `xrcc_cam_buffer_queue` has kept the lock,
and nothing comes back any more. -/
structure Filming [NeZero n] (r : Filmed n) : Prop where
  ring : RingSound r.1
  nodup : (r.1.capture.live.map Prod.fst).Nodup
  session : r.1.vdma.running = true → r.1.capture.dev.queuedLock = false → InSession r.1 r.2
  rounds : r.1.vdma.running = true → Rounds r.1 r.2

theorem filming_probed [NeZero n] (vdma : Vdma n) : Filming (Streaming.probed n vdma, Session.blank n) where
  ring := RingSound.probed vdma
  nodup := List.nodup_nil
  session h := absurd (show false = true from h) Bool.false_ne_true
  rounds h := absurd (show false = true from h) Bool.false_ne_true

namespace Filming

variable [NeZero n] {named : BitVec 6 → Option (Fin n)} {s : Streaming n} {g : Session n} {c : Capture n}

theorem alloc (h : Filming (s, g)) {addr : U32} (hc : s.capture.step (.alloc addr) = some c) :
    Filming ({ s with capture := c }, g) := by
  have hring := h.ring.alloc hc
  obtain ⟨-, hcall⟩ := step_cases hc
  cases hcall
  refine ⟨hring, ?_, fun hrun hl => ?_, fun hrun => ⟨(h.rounds hrun).next, (h.rounds hrun).frames⟩⟩
  · refine List.nodup_cons.2 ⟨fun hmem => ?_, h.nodup⟩
    obtain ⟨b, hb, heq⟩ := List.mem_map.1 hmem
    have hold : b.1 < s.capture.next := h.ring.accounts.live.old b hb
    omega
  · have hs := h.session hrun hl
    refine ⟨hs.idle, fun i => ?_, hs.sequence, hs.done⟩
    obtain ⟨b, hb, hat, hlive⟩ := hs.slots i
    exact ⟨b, hb, hat, List.mem_cons_of_mem _ hlive⟩

theorem free (h : Filming (s, g)) {vbuf : Nat} (hc : s.capture.step (.free vbuf) = some c) :
    Filming ({ s with capture := c }, g) := by
  have hring := h.ring.free hc
  obtain ⟨hidle, hcall⟩ := step_cases hc
  cases hcall
  refine ⟨hring, ?_, fun hrun hl => ?_, fun hrun => ⟨(h.rounds hrun).next, (h.rounds hrun).frames⟩⟩
  · exact h.nodup.sublist (List.filter_sublist.map _)
  · have hbusy := (h.session hrun hl).idle
    rw [show s.capture.idle = true from hidle] at hbusy
    cases hbusy

/-- A buffer that is queued goes back to its slot. -/
theorem queue (h : Filming (s, g)) {vbuf : Nat} {addr : U32} (hc : s.capture.step (.queue vbuf addr) = some c) :
    Filming ({ s with capture := c, completed := Function.update s.completed vbuf false }, g) := by
  obtain ⟨hlive, hlive', hl, hslots⟩ := queue_slots hc
  obtain ⟨hseq, hidle⟩ := queue_dev hc
  refine ⟨h.ring.queue hc, ?_, fun hrun _ => ?_, fun hrun => ⟨(h.rounds hrun).next, (h.rounds hrun).frames⟩⟩
  · show (c.live.map Prod.fst).Nodup
    rw [hlive']
    exact h.nodup
  · have hs := h.session hrun hl
    refine ⟨hidle, fun i => ?_, hseq.trans hs.sequence, hs.done⟩
    obtain ⟨b, hb, hat, hmem⟩ := hs.slots i
    show ∃ b, (c.dev.vectBufs i).buf = some b ∧ g.bufAt i = some b ∧ (b, (c.dev.vectBufs i).addr) ∈ c.live
    rw [hlive']
    obtain hsame | ⟨idx, hf, hdev⟩ := hslots
    · rw [hsame]
      exact ⟨b, hb, hat, hmem⟩
    · rw [hdev]
      by_cases hi : i = idx
      · subst hi
        -- no slot is empty, so it is the one with the address
        have haddr : (s.capture.dev.vectBufs i).addr = addr :=
          (findSlot_some hf).1.resolve_left fun hnone => by rw [hb] at hnone; cases hnone
        have hsame : b = vbuf := congrArg Prod.fst (h.ring.accounts.live.addr_inj _ hmem _ hlive haddr)
        subst hsame
        rw [setSlot_self]
        exact ⟨b, rfl, hat, hlive⟩
      · rw [setSlot_ne _ _ hi]
        exact ⟨b, hb, hat, hmem⟩

theorem note_irq_unregistered {bus : BusIn} (hr : (s.capture.dev.vectBufs (s.irqSlot bus)).registered = false)
    {dev : XrccCamDev n} {back : Option U32}
    (hirq : xrccCamIrqHandler s.capture.dev (s.regs.read bus.vdmaFramePtrI bus.rx (regAddr videoCtrlRxCtrl)) =
      .ok (dev, [], back)) : g.note named s (.irq bus) = g := by
  simp [Session.note, Streaming.irqEffects, hr, hirq]

theorem note_irq_registered {bus : BusIn} (hr : (s.capture.dev.vectBufs (s.irqSlot bus)).registered = true)
    {dev : XrccCamDev n} {ds : Returned} {back : Option U32}
    (hirq : xrccCamIrqHandler s.capture.dev (s.regs.read bus.vdmaFramePtrI bus.rx (regAddr videoCtrlRxCtrl)) =
      .ok (dev, ds, back)) :
    g.note named s (.irq bus) = { g with taken := g.taken ++ [s.irqSlot bus], done := g.done ++ ds } := by
  simp [Session.note, Streaming.irqEffects, hr, hirq]

/-- An interrupt completes the buffer of its slot with the next number, or nothing. -/
theorem irq (h : Filming (s, g)) (bus : BusIn)
    (hc : s.capture.step (.irq (s.regs.read bus.vdmaFramePtrI bus.rx (regAddr videoCtrlRxCtrl))) = some c)
    {t : Streaming n} (ht : RingSound t) (hcap : t.capture = c) (hvdma : t.vdma = s.vdma) :
    Filming (t, g.note named s (.irq bus)) := by
  have hcame := irq_came h.ring.accounts hc
  refine ⟨ht, ?_, fun hrun _ => ?_, fun hrun => ?_⟩
  · show (t.capture.live.map Prod.fst).Nodup
    rw [hcap, hcame.live]
    exact h.nodup
  · rw [show t.vdma = s.vdma from hvdma] at hrun
    have hs := h.session hrun hcame.unlocked
    have hslots : ∀ i, ∃ b, (t.capture.dev.vectBufs i).buf = some b ∧ g.bufAt i = some b ∧
        (b, (t.capture.dev.vectBufs i).addr) ∈ t.capture.live := by
      intro i
      rw [hcap, (hcame.kept i).1, (hcame.kept i).2, hcame.live]
      exact hs.slots i
    have hidle : t.capture.idle = false := by
      rw [hcap, hcame.idle]
      exact hs.idle
    obtain ⟨hr, hseq, dev, hirq⟩ | ⟨hr, hseq, vbuf, dev, hb, hirq⟩ := hcame.completes
    · rw [note_irq_unregistered hr hirq]
      refine ⟨hidle, hslots, ?_, hs.done⟩
      rw [hcap, hseq]
      exact hs.sequence
    · rw [note_irq_registered hr hirq]
      refine ⟨hidle, hslots, ?_, ?_⟩
      · rw [hcap, hseq, hs.sequence, List.length_append]
        exact (BitVec.ofNat_add ..).symm
      · obtain ⟨b, hbuf, hat, -⟩ := hs.slots (s.irqSlot bus)
        obtain rfl : b = vbuf := Option.some_injective _ (hbuf.symm.trans hb)
        simp only [List.map_append, List.map_cons, List.map_nil]
        rw [hs.done, List.mapIdx_concat, hat, hs.sequence]
  · rw [show t.vdma = s.vdma from hvdma] at hrun
    refine ⟨?_, (h.rounds hrun).frames⟩
    show t.vdma.next = _
    rw [hvdma]
    exact (h.rounds hrun).next

theorem start (h : Filming (s, g)) (hq : s.AllQueued) (fmtIdx : Nat) (bus : BusIn) :
    Filming (s.startStreaming fmtIdx bus, g.note named s (.start fmtIdx bus)) := by
  have hring := h.ring.startStreaming fmtIdx bus
  unfold Streaming.startStreaming at hring ⊢
  cases hfmt : xrccCamFormats[fmtIdx]? with
  | none =>
    have hge : ¬ fmtIdx < xrccCamFormats.length := not_lt.2 (List.getElem?_eq_none_iff.1 hfmt)
    rw [Session.note, if_neg hge]
    exact h
  | some fmt =>
    have hlt : fmtIdx < xrccCamFormats.length := (List.getElem?_eq_some_iff.1 hfmt).1
    rw [hfmt] at hring
    rw [Session.note, if_pos hlt]
    refine ⟨hring, h.nodup, fun _ hl => ?_, fun hrun => ⟨(vdmaCtrlConfigure_running hrun).2.2, rfl⟩⟩
    have hreg := registered_of_allQueued h.ring.accounts hl h.nodup hq
    refine ⟨?_, fun i => ?_, rfl, rfl⟩
    · show s.capture.idle = false
      -- between sessions no slot is registered
      cases hidle : s.capture.idle with
      | false => rfl
      | true => exact (hreg 0).symm.trans (h.ring.accounts.idle hidle 0)
    · obtain ⟨b, hb, hlive⟩ := (h.ring.accounts.ledger hl).holds i (hreg i)
      exact ⟨b, hb, hb, hlive⟩

theorem stop (h : Filming (s, g)) (bus : BusIn) (hc : s.capture.step .stop = some c) :
    Filming ({ s with capture := c, vdma := vdmaCtrlReset s.vdma, regs := stopStreamingProg.run bus s.regs }, g) := by
  obtain ⟨-, ds, hc', -, -⟩ := h.ring.accounts.stop_spec (step_cases hc).2
  have hlive : c.live = s.capture.live := by rw [hc']; rfl
  refine ⟨h.ring.stop bus hc, ?_, nofun, nofun⟩
  show (c.live.map Prod.fst).Nodup
  rw [hlive]
  exact h.nodup

theorem frame (hnamed : named 0 = none) (h : Filming (s, g)) (hrun : s.vdma.running = true) {t : Streaming n}
    (ht : s.step named .frame = some t) : Filming (t, g.note named s .frame) := by
  have hring := h.ring.step ht
  rw [Streaming.step, if_pos hrun, Option.some.injEq] at ht
  have hr := h.rounds hrun
  have htarget : s.vdma.target named s.regs.vdmaFramePtrO = Fin.ofNat n g.frames.length :=
    (h.ring.target_eq hnamed).trans hr.next
  subst ht
  refine ⟨hring, h.nodup, fun hrun' hl => ?_, fun _ => ?_⟩
  · have hs := h.session hrun' hl
    exact ⟨hs.idle, hs.slots, hs.sequence, hs.done⟩
  · show Rounds _ { g with frames := g.frames ++ [s.vdma.target named s.regs.vdmaFramePtrO] }
    rw [htarget]
    constructor
    · show Fin.ofNat n g.frames.length + 1 = Fin.ofNat n (g.frames ++ [_]).length
      rw [List.length_append]
      exact ofNat_succ _
    · simp only [List.length_append, List.length_singleton]
      rw [List.range_succ, List.map_append, ← hr.frames]
      rfl

/-- One step keeps the record of the session right. -/
theorem step (hnamed : named 0 = none) {r t : Filmed n} (h : Filming r) {e : StreamEvent}
    (hs : Filmed.step named r e = some t) : Filming t := by
  obtain ⟨s, g⟩ := r
  obtain ⟨t, g'⟩ := t
  obtain ⟨hs, hnote⟩ := withGhost_eq_some.1 hs
  obtain rfl : g' = g.note named s e := hnote
  change s.step named e = some t at hs
  cases e with
  | alloc addr =>
    obtain ⟨c, hc, rfl⟩ := Option.map_eq_some_iff.1 hs
    exact h.alloc hc
  | free vbuf =>
    obtain ⟨c, hc, rfl⟩ := Option.map_eq_some_iff.1 hs
    exact h.free hc
  | queue vbuf addr =>
    obtain ⟨c, hc, rfl⟩ := Option.map_eq_some_iff.1 hs
    exact h.queue hc
  | start fmtIdx bus =>
    obtain ⟨⟨hq, -⟩, hs⟩ := Option.ite_none_right_eq_some.1 hs
    cases hs
    exact h.start hq fmtIdx bus
  | irq bus =>
    have hring := h.ring.step hs
    obtain ⟨c, hc, rfl⟩ := Option.map_eq_some_iff.1 hs
    exact h.irq bus hc hring rfl rfl
  | frame => exact h.frame hnamed (Option.ite_none_right_eq_some.1 hs).1 hs
  | stop bus =>
    obtain ⟨c, hc, rfl⟩ := Option.map_eq_some_iff.1 hs
    exact h.stop bus hc

end Filming

/-! ### Every frame has its interrupt -/

/-- When a frame begins, the interrupt of the last one has come and the next buffer is back; an interrupt is that of the
frame that began last, and comes once. -/
def KeepsUp [NeZero n] (r : Filmed n) : StreamEvent → Prop
  | .frame => r.2.taken.length = r.2.frames.length ∧ (r.1.capture.dev.vectBufs r.1.vdma.next).registered = true
  | .irq bus => r.1.vdma.running = true →
      r.1.irqSlot bus + 1 = r.1.vdma.next ∧ r.2.taken.length < r.2.frames.length
  | _ => True

instance [NeZero n] (r : Filmed n) : (e : StreamEvent) → Decidable (KeepsUp r e)
  | .frame => inferInstanceAs (Decidable (_ ∧ _))
  | .irq _ => inferInstanceAs (Decidable (_ → _ ∧ _))
  | .alloc _ => isTrue trivial
  | .free _ => isTrue trivial
  | .queue _ _ => isTrue trivial
  | .start _ _ => isTrue trivial
  | .stop _ => isTrue trivial

/-- The interrupts took the slots in turn; they are at most one frame behind, and have a buffer to complete then. -/
structure InOrder [NeZero n] (slots : Fin n → XrccCamBuf) (g : Session n) : Prop where
  taken : g.taken = (List.range g.taken.length).map (Fin.ofNat n)
  behind : g.frames.length = g.taken.length ∨
    g.frames.length = g.taken.length + 1 ∧ (slots (Fin.ofNat n g.taken.length)).registered = true

namespace InOrder

variable [NeZero n] {named : BitVec 6 → Option (Fin n)} {slots slots' : Fin n → XrccCamBuf} {s : Streaming n}
  {g : Session n}

theorem slots_mono (h : InOrder slots g) (hs : ∀ i, (slots i).registered = true → (slots' i).registered = true) :
    InOrder slots' g :=
  ⟨h.taken, h.behind.imp_right fun hb => ⟨hb.1, hs _ hb.2⟩⟩

/-- A buffer that comes back is registered. -/
theorem queue {c : Capture n} (h : InOrder s.capture.dev.vectBufs g) {vbuf : Nat} {addr : U32}
    (hc : s.capture.step (.queue vbuf addr) = some c) : InOrder c.dev.vectBufs g := by
  refine h.slots_mono fun i hi => ?_
  obtain ⟨-, -, -, hslots | ⟨idx, -, hdev⟩⟩ := queue_slots hc
  · rw [hslots]
    exact hi
  · rw [hdev]
    by_cases hii : i = idx
    · rw [hii, setSlot_self]
    · rw [setSlot_ne _ _ hii]
      exact hi

/-- A session begins with nothing behind. -/
theorem start {fmtIdx : Nat} {bus : BusIn} (hstopped : s.vdma.running = false)
    (hrun : (s.startStreaming fmtIdx bus).vdma.running = true) (slots : Fin n → XrccCamBuf) :
    InOrder slots (g.note named s (.start fmtIdx bus)) := by
  by_cases hlt : fmtIdx < xrccCamFormats.length
  · rw [Session.note, if_pos hlt]
    exact ⟨rfl, .inl rfl⟩
  · -- nothing is started for a format that does not exist
    have hsame : s.startStreaming fmtIdx bus = s := by
      rw [Streaming.startStreaming, List.getElem?_eq_none (not_lt.1 hlt)]
    rw [hsame, hstopped] at hrun
    cases hrun

theorem frame (h : InOrder s.capture.dev.vectBufs g) (hr : Rounds s g) (hk : KeepsUp (s, g) .frame) :
    InOrder s.capture.dev.vectBufs (g.note named s .frame) := by
  obtain ⟨hlen, hreg⟩ := hk
  have hlen : g.taken.length = g.frames.length := hlen
  refine ⟨h.taken, .inr ⟨?_, ?_⟩⟩
  · show (g.frames ++ [_]).length = g.taken.length + 1
    rw [List.length_append, hlen]
    rfl
  · show (s.capture.dev.vectBufs (Fin.ofNat n g.taken.length)).registered = true
    rw [hlen, ← hr.next]
    exact hreg

/-- The interrupt finds the buffer of the frame that began last. -/
theorem irq (h : InOrder s.capture.dev.vectBufs g) (hr : Rounds s g) {bus : BusIn} (hk : KeepsUp (s, g) (.irq bus))
    (hrun : s.vdma.running = true) (slots' : Fin n → XrccCamBuf) : InOrder slots' (g.note named s (.irq bus)) := by
  obtain ⟨hslot, hlt⟩ := hk hrun
  have hlt : g.taken.length < g.frames.length := hlt
  obtain ⟨hlen, hreg⟩ := h.behind.resolve_left hlt.ne'
  have hidx : s.irqSlot bus = Fin.ofNat n g.taken.length := by
    have hnext : s.irqSlot bus + 1 = Fin.ofNat n g.taken.length + 1 := by
      rw [ofNat_succ, ← hlen, ← hr.next]
      exact hslot
    exact add_right_cancel hnext
  have htaken : (g.note named s (.irq bus)).taken = g.taken ++ [Fin.ofNat n g.taken.length] := by
    rw [Session.note, hidx, if_pos hreg]
  have hframes : (g.note named s (.irq bus)).frames = g.frames := rfl
  refine ⟨?_, .inl ?_⟩
  · rw [htaken, List.length_append, List.length_singleton, List.range_succ, List.map_append, ← h.taken]
    rfl
  · rw [hframes, htaken, List.length_append, hlen]
    rfl

end InOrder

/-- What holds in every state of a run in which the interrupts keep up. -/
structure OnTime [NeZero n] (r : Filmed n) : Prop where
  filming : Filming r
  inOrder : r.1.vdma.running = true → InOrder r.1.capture.dev.vectBufs r.2

theorem OnTime.step [NeZero n] {named : BitVec 6 → Option (Fin n)} (hnamed : named 0 = none) {r t : Filmed n}
    (h : OnTime r) {e : StreamEvent} (hk : KeepsUp r e) (hs : Filmed.step named r e = some t) : OnTime t := by
  refine ⟨h.filming.step hnamed hs, fun hrun => ?_⟩
  obtain ⟨s, g⟩ := r
  obtain ⟨t, g'⟩ := t
  obtain ⟨hs, hnote⟩ := withGhost_eq_some.1 hs
  obtain rfl : g' = g.note named s e := hnote
  change s.step named e = some t at hs
  cases e with
  | alloc addr =>
    obtain ⟨c, hc, rfl⟩ := Option.map_eq_some_iff.1 hs
    obtain ⟨-, hcall⟩ := step_cases hc
    cases hcall
    exact h.inOrder hrun
  | free vbuf =>
    obtain ⟨c, hc, rfl⟩ := Option.map_eq_some_iff.1 hs
    obtain ⟨-, hcall⟩ := step_cases hc
    cases hcall
    exact h.inOrder hrun
  | queue vbuf addr =>
    obtain ⟨c, hc, rfl⟩ := Option.map_eq_some_iff.1 hs
    exact (h.inOrder hrun).queue hc
  | start fmtIdx bus =>
    obtain ⟨⟨-, hstopped⟩, hs⟩ := Option.ite_none_right_eq_some.1 hs
    cases hs
    show InOrder (s.startStreaming fmtIdx bus).capture.dev.vectBufs (g.note named s (.start fmtIdx bus))
    exact InOrder.start hstopped hrun _
  | irq bus =>
    obtain ⟨c, -, rfl⟩ := Option.map_eq_some_iff.1 hs
    show InOrder c.dev.vectBufs (g.note named s (.irq bus))
    exact (h.inOrder hrun).irq (h.filming.rounds hrun) hk hrun _
  | frame =>
    obtain ⟨hrun', hs⟩ := Option.ite_none_right_eq_some.1 hs
    cases hs
    exact (h.inOrder hrun').frame (h.filming.rounds hrun') hk
  | stop bus =>
    obtain ⟨c, -, rfl⟩ := Option.map_eq_some_iff.1 hs
    cases hrun

/-! ### Whole runs -/

section Runs

variable [NeZero n] {named : BitVec 6 → Option (Fin n)} (hnamed : named 0 = none) {vdma : Vdma n}
  {es : List StreamEvent} {t : Filmed n} (h : exec (Filmed.step named) (Streaming.probed n vdma, Session.blank n) es = some t)
  (hrun : t.1.vdma.running = true) (hlock : t.1.capture.dev.queuedLock = false)
include hnamed h hrun hlock

/-- In every session the completions are numbered from 0, whatever the pace of user space and of the interrupts; each slot
has the buffer it had at the start, which is the one that the VDMA writes at its place; and the frames went round the
ring. -/
theorem completed_numbered :
    t.2.done.map (fun d => (some d.1, d.2)) =
        t.2.taken.mapIdx (fun k i => (t.2.bufAt i, BufState.done (BitVec.ofNat 32 k))) ∧
      (∀ i, ∃ b, (t.1.capture.dev.vectBufs i).buf = some b ∧ t.2.bufAt i = some b ∧
        (b, t.1.vdma.startAddr i) ∈ t.1.capture.live) ∧
      t.2.frames = (List.range t.2.frames.length).map (Fin.ofNat n) := by
  have hF : Filming t := exec_invariant' (fun _ _ _ hI => hI.step hnamed) (filming_probed vdma) h
  have hs := hF.session hrun hlock
  refine ⟨hs.done, fun i => ?_, (hF.rounds hrun).frames⟩
  obtain ⟨b, hbuf, hat, hlive⟩ := hs.slots i
  exact ⟨b, hbuf, hat, by rw [(hF.ring.ring hrun i).2]; exact hlive⟩

/-- While each frame has its interrupt and the buffer of the next is back, completion `k` is that of frame `k`, and at
most the frame that began last is not completed yet. -/
theorem frames_in_order (hk : StepsMeet (Filmed.step named) KeepsUp (Streaming.probed n vdma, Session.blank n) es) :
    t.2.done.map (fun d => (some d.1, d.2)) =
        (t.2.frames.take t.2.done.length).mapIdx (fun k i => (t.2.bufAt i, BufState.done (BitVec.ofNat 32 k))) ∧
      t.2.done.length ≤ t.2.frames.length ∧ t.2.frames.length ≤ t.2.done.length + 1 := by
  have h₀ : OnTime (Streaming.probed n vdma, Session.blank n) :=
    ⟨filming_probed vdma, fun hrun => absurd (show false = true from hrun) Bool.false_ne_true⟩
  obtain ⟨hF, hO⟩ : OnTime t := exec_invariant (fun _ _ _ hI hk hs => hI.step hnamed hk hs) h₀ hk h
  have hdone := (hF.session hrun hlock).done
  have hO := hO hrun
  have hlen : t.2.done.length = t.2.taken.length := by
    simpa using congrArg List.length hdone
  have hle : t.2.taken.length ≤ t.2.frames.length := by
    have := hO.behind
    omega
  have htake : t.2.frames.take t.2.taken.length = t.2.taken := by
    rw [(hF.rounds hrun).frames, ← List.map_take, List.take_range, Nat.min_eq_left hle]
    exact hO.taken.symm
  refine ⟨?_, ?_, ?_⟩
  · rw [hlen, htake]
    exact hdone
  · rw [hlen]
    exact hle
  · have := hO.behind
    omega

end Runs

/-- User space is slow: it still holds the first buffer when the second round begins, and the fourth frame completes
nothing. -/
theorem completed_numbered_firstRound :
    ∃ t, exec (Filmed.step namedSlot) (Streaming.probed 3 (Vdma.off 3), Session.blank 3)
        (firstRound ++ [.frame, .irq (busIn 1)]) = some t ∧
      t.2.frames = [0, 1, 2, 0] ∧ t.2.taken = [0, 1, 2] ∧
      t.2.done.map (fun d => (some d.1, d.2)) =
        t.2.taken.mapIdx (fun k i => (t.2.bufAt i, BufState.done (BitVec.ofNat 32 k))) := by
  obtain ⟨t, ht, hframes, htaken, hrun, hlock⟩ :
      ∃ t, exec (Filmed.step namedSlot) (Streaming.probed 3 (Vdma.off 3), Session.blank 3)
          (firstRound ++ [.frame, .irq (busIn 1)]) = some t ∧
        t.2.frames = [0, 1, 2, 0] ∧ t.2.taken = [0, 1, 2] ∧ t.1.vdma.running = true ∧
          t.1.capture.dev.queuedLock = false :=
    exists_exec (by decide)
  exact ⟨t, ht, hframes, htaken, (completed_numbered (by decide) ht hrun hlock).1⟩

/-- User space gives the first buffer back in time for the second round. -/
theorem frames_in_order_firstRound :
    ∃ t, exec (Filmed.step namedSlot) (Streaming.probed 3 (Vdma.off 3), Session.blank 3)
        (firstRound ++ [.queue 0 0x1000, .frame, .irq (busIn 1)]) = some t ∧
      t.2.frames = [0, 1, 2, 0] ∧
      t.2.done.map (fun d => (some d.1, d.2)) =
        (t.2.frames.take t.2.done.length).mapIdx (fun k i => (t.2.bufAt i, BufState.done (BitVec.ofNat 32 k))) ∧
      t.2.done.length ≤ t.2.frames.length ∧ t.2.frames.length ≤ t.2.done.length + 1 := by
  obtain ⟨t, ht, hframes, hrun, hlock⟩ :
      ∃ t, exec (Filmed.step namedSlot) (Streaming.probed 3 (Vdma.off 3), Session.blank 3)
          (firstRound ++ [.queue 0 0x1000, .frame, .irq (busIn 1)]) = some t ∧
        t.2.frames = [0, 1, 2, 0] ∧ t.1.vdma.running = true ∧ t.1.capture.dev.queuedLock = false :=
    exists_exec (by decide)
  exact ⟨t, ht, hframes, frames_in_order (by decide) ht hrun hlock (by decide)⟩

end RcCarControl.Driver
