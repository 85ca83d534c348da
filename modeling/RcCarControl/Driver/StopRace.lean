import RcCarControl.Driver.Ownership
import RcCarControl.Driver.Streaming

/-!
# `stop_streaming` against the interrupt handler

The last accesses of `xrcc_cam_stop_streaming` interleaved with `m` invocations of `xrcc_cam_irq_handler` on the other
CPU, on the registers of `video_ctrl_axi`.  A step of a run is one clock of the register file, with at most one access.

A handler writes back the RUN and INTEN bits it read before interrupts were disabled, which are those on entry
(`Race.held`).  What `stop_streaming` cleared it restores when the write-back falls between the clearing write and the
read of `video_ctrl_stop`, or behind the last write; anywhere else it is harmless.
-/

namespace RcCarControl.Driver

open Fpga

/-- The progress of one interrupt handler on RX_CTRL. -/
inductive Handler where
  | waiting
  | holding (rxCtrlReg : U32)
  | returned
deriving DecidableEq

structure StopRace (m : Nat) where
  regs : VideoCtrlRegs
  /-- What `stop_streaming` still has to do. -/
  stop : RegProg
  /-- The accesses `stop_streaming` has made. -/
  accesses : Nat
  handlers : Fin m → Handler

/-- Who accesses the bus at a clock. -/
inductive Access (m : Nat) where
  | none
  | stop
  | irqRead (i : Fin m)
  | irqWrite (i : Fin m)
deriving DecidableEq

/-- One clock: the inputs of the register file and the access. -/
structure Edge (m : Nat) where
  vdmaFramePtrI : BitVec 6
  rx : RxStatus
  access : Access m

variable {m : Nat}

/-- The number of accesses after which interrupts are disabled. -/
def intenCleared : Nat := 2

def StopRace.entered (m : Nat) (regs : VideoCtrlRegs) : StopRace m where
  regs := regs
  stop := stopStreamingProg
  accesses := 0
  handlers := fun _ => .waiting

def StopRace.step (s : StopRace m) (e : Edge m) : Option (StopRace m) :=
  let clock wr := s.regs.clock e.vdmaFramePtrI wr
  let read reg := s.regs.read e.vdmaFramePtrI e.rx (regAddr reg)
  match e.access with
  | .none => some { s with regs := clock none }
  | .stop =>
    match s.stop with
    | .ret => none
    | .read reg next => some { s with regs := clock none, stop := next (read reg), accesses := s.accesses + 1 }
    | .write reg value next =>
      some { s with regs := clock (some (regAddr reg, value)), stop := next, accesses := s.accesses + 1 }
  | .irqRead i =>
    -- each handler starts before interrupts are disabled
    if s.accesses < intenCleared ∧ s.handlers i = .waiting then
      some { s with
        regs := clock none
        handlers := Function.update s.handlers i (.holding (read videoCtrlRxCtrl)) }
    else none
  | .irqWrite i =>
    match s.handlers i with
    | .holding rxCtrlReg =>
      some { s with
        regs := clock (some (regAddr videoCtrlRxCtrl, rxCtrlReg))
        handlers := Function.update s.handlers i .returned }
    | _ => none

/-- `stop_streaming` and every handler that started have returned. -/
def StopRace.Returned (s : StopRace m) : Prop :=
  s.stop = .ret ∧ ∀ i, s.handlers i = .waiting ∨ s.handlers i = .returned

instance (s : StopRace m) : Decidable s.Returned :=
  inferInstanceAs (Decidable (_ ∧ _))

/-- The write-backs that do no harm: those before the clearing of INTEN is over and those that the last write of
`stop_streaming` still follows without having read; any other only if the bits it restores were 0 on entry. -/
def Harmless (regs : VideoCtrlRegs) (s : StopRace m) (e : Edge m) : Prop :=
  ∀ i, e.access = .irqWrite i →
    (3 ≤ s.accesses → s.accesses ≤ 6 → regs.vdmaFrameInten = false) ∧
      (s.accesses = 8 → regs.rxEnable = false ∧ regs.vdmaFrameInten = false)

instance (regs : VideoCtrlRegs) (s : StopRace m) (e : Edge m) : Decidable (Harmless regs s e) :=
  inferInstanceAs (Decidable (∀ i, e.access = .irqWrite i → _ ∧ _))

/-! ### Where `stop_streaming` stands -/

/-- The accesses left after the first `k`.  `run` and `inten` are the bits of RX_CTRL on entry; a value that was read
never has one of them set that was not. -/
inductive StopAt (run inten : Bool) : Nat → RegProg → Prop where
  | entered : StopAt run inten 0 stopStreamingProg
  | clear {ctrl : U32} (h : runBit ctrl = true → run = true) :
      StopAt run inten 1 (.write videoCtrlRxCtrl (ctrl &&& ~~~ rxCtrlInten) <|
        .write videoCtrlRxCtrl (ctrl &&& ~~~ rxCtrlInten ||| rxCtrlInt) <| videoCtrlDumpMeas <| videoCtrlStop .ret)
  | acknowledge {ctrl : U32} (h : runBit ctrl = true → run = true) :
      StopAt run inten 2 (.write videoCtrlRxCtrl (ctrl &&& ~~~ rxCtrlInten ||| rxCtrlInt) <|
        videoCtrlDumpMeas <| videoCtrlStop .ret)
  | dump₀ : StopAt run inten 3 (videoCtrlDumpMeas <| videoCtrlStop .ret)
  | dump₁ : StopAt run inten 4 (.read videoCtrlRxFrameLen fun _ => .read videoCtrlRxFrameCnts fun _ =>
      videoCtrlStop .ret)
  | dump₂ : StopAt run inten 5 (.read videoCtrlRxFrameCnts fun _ => videoCtrlStop .ret)
  | stop : StopAt run inten 6 (videoCtrlStop .ret)
  | clearRun {ctrl : U32} (h : intenBit ctrl = true → inten = true) :
      StopAt run inten 7 (.write videoCtrlRxCtrl (ctrl &&& ~~~ rxCtrlRun) .ret)
  | returned : StopAt run inten 8 .ret

/-- No party ever has a value of RX_CTRL with a bit set that was clear on entry, and what the handlers hold are the
bits on entry. -/
structure Race (regs : VideoCtrlRegs) (s : StopRace m) : Prop where
  run_le : s.regs.rxEnable = true → regs.rxEnable = true
  inten_le : s.regs.vdmaFrameInten = true → regs.vdmaFrameInten = true
  fresh : s.accesses < intenCleared →
    s.regs.rxEnable = regs.rxEnable ∧ s.regs.vdmaFrameInten = regs.vdmaFrameInten
  held : ∀ i rxCtrlReg, s.handlers i = .holding rxCtrlReg →
    runBit rxCtrlReg = regs.rxEnable ∧ intenBit rxCtrlReg = regs.vdmaFrameInten
  stopAt : StopAt regs.rxEnable regs.vdmaFrameInten s.accesses s.stop

theorem race_entered (regs : VideoCtrlRegs) : Race regs (StopRace.entered m regs) :=
  ⟨id, id, fun _ => ⟨rfl, rfl⟩, fun _ _ h => (by cases h), .entered⟩

/-- What `stop_streaming` has cleared so far is still clear. -/
structure Clean (s : StopRace m) : Prop where
  dumping : 3 ≤ s.accesses → s.accesses ≤ 6 → s.regs.vdmaFrameInten = false
  stopping : s.accesses = 7 → ∀ reg value next, s.stop = .write reg value next → intenBit value = false
  returned : s.accesses = 8 → s.regs.rxEnable = false ∧ s.regs.vdmaFrameInten = false

theorem Clean.of_lt {s : StopRace m} (h : s.accesses < 3) : Clean s := by
  constructor
  · intro _ _
    omega
  · intro _
    omega
  · intro _
    omega

theorem Clean.of_dumping {s : StopRace m} (hk : s.accesses ≤ 6) (h : s.regs.vdmaFrameInten = false) : Clean s := by
  constructor
  · intro _ _
    exact h
  · intro _
    omega
  · intro _
    omega

theorem Clean.of_stopping {s : StopRace m} {reg : Nat} {value : U32} {next : RegProg} (hk : s.accesses = 7)
    (hp : s.stop = .write reg value next) (h : intenBit value = false) : Clean s := by
  constructor
  · intro _ _
    omega
  · intro _ reg' value' next' hp'
    rw [hp] at hp'
    cases hp'
    exact h
  · intro _
    omega

theorem Clean.of_returned {s : StopRace m} (hk : s.accesses = 8)
    (h : s.regs.rxEnable = false ∧ s.regs.vdmaFrameInten = false) : Clean s := by
  constructor
  · intro _ _
    omega
  · intro _
    omega
  · intro _
    exact h

theorem clean_entered (regs : VideoCtrlRegs) : Clean (StopRace.entered m regs) :=
  .of_lt (by simp [StopRace.entered])

/-! ### One step -/

theorem regAddr_rxCtrl : regAddr videoCtrlRxCtrl = rxCtrlAddr := rfl

theorem StopRace.step_cases {s t : StopRace m} {e : Edge m} (h : s.step e = some t) :
    (e.access = .none ∧ t = { s with regs := s.regs.clock e.vdmaFramePtrI none }) ∨
    (∃ reg next, e.access = .stop ∧ s.stop = .read reg next ∧
      t = { s with
        regs := s.regs.clock e.vdmaFramePtrI none
        stop := next (s.regs.read e.vdmaFramePtrI e.rx (regAddr reg))
        accesses := s.accesses + 1 }) ∨
    (∃ reg value next, e.access = .stop ∧ s.stop = .write reg value next ∧
      t = { s with
        regs := s.regs.clock e.vdmaFramePtrI (some (regAddr reg, value))
        stop := next
        accesses := s.accesses + 1 }) ∨
    (∃ i, e.access = .irqRead i ∧ s.accesses < intenCleared ∧
      t = { s with
        regs := s.regs.clock e.vdmaFramePtrI none
        handlers := Function.update s.handlers i (.holding (s.regs.rxCtrl e.vdmaFramePtrI)) }) ∨
    (∃ i rxCtrlReg, e.access = .irqWrite i ∧ s.handlers i = .holding rxCtrlReg ∧
      t = { s with
        regs := s.regs.clock e.vdmaFramePtrI (some (rxCtrlAddr, rxCtrlReg))
        handlers := Function.update s.handlers i .returned }) := by
  unfold StopRace.step at h
  cases ha : e.access with
  | none =>
    simp only [ha, Option.some.injEq] at h
    exact .inl ⟨rfl, h.symm⟩
  | stop =>
    cases hp : s.stop with
    | ret => simp [ha, hp] at h
    | read reg next =>
      simp only [ha, hp, Option.some.injEq] at h
      exact .inr (.inl ⟨reg, next, rfl, rfl, h.symm⟩)
    | write reg value next =>
      simp only [ha, hp, Option.some.injEq] at h
      exact .inr (.inr (.inl ⟨reg, value, next, rfl, rfl, h.symm⟩))
  | irqRead i =>
    simp only [ha, Option.ite_none_right_eq_some, Option.some.injEq] at h
    obtain ⟨⟨hlt, -⟩, rfl⟩ := h
    exact .inr (.inr (.inr (.inl ⟨i, rfl, hlt, rfl⟩)))
  | irqWrite i =>
    cases hi : s.handlers i with
    | holding rxCtrlReg =>
      simp only [ha, hi, Option.some.injEq] at h
      exact .inr (.inr (.inr (.inr ⟨i, rxCtrlReg, rfl, hi, h.symm⟩)))
    | _ => simp [ha, hi] at h

/-- The three writes of `stop_streaming`, on the two bits. -/
theorem bits_clear_inten (ctrl : U32) :
    runBit (ctrl &&& ~~~ rxCtrlInten) = runBit ctrl ∧ intenBit (ctrl &&& ~~~ rxCtrlInten) = false := by
  constructor <;> simp [runBit, intenBit, rxCtrlInten]

theorem bits_acknowledge (ctrl : U32) :
    runBit (ctrl &&& ~~~ rxCtrlInten ||| rxCtrlInt) = runBit ctrl ∧
      intenBit (ctrl &&& ~~~ rxCtrlInten ||| rxCtrlInt) = false := by
  constructor <;> simp [runBit, intenBit, rxCtrlInten, rxCtrlInt]

theorem bits_clear_run (ctrl : U32) :
    runBit (ctrl &&& ~~~ rxCtrlRun) = false ∧ intenBit (ctrl &&& ~~~ rxCtrlRun) = intenBit ctrl := by
  constructor <;> simp [runBit, intenBit, rxCtrlRun]

/-- The program after a read that returned no bit of RX_CTRL that was clear on entry. -/
theorem StopAt.read {run inten : Bool} {k reg : Nat} {next : U32 → RegProg}
    (h : StopAt run inten k (.read reg next)) {value : U32}
    (hv : reg = videoCtrlRxCtrl → (runBit value = true → run = true) ∧ (intenBit value = true → inten = true)) :
    StopAt run inten (k + 1) (next value) := by
  cases h with
  | entered => exact .clear (hv rfl).1
  | dump₀ => exact .dump₁
  | dump₁ => exact .dump₂
  | dump₂ => exact .stop
  | stop => exact .clearRun (hv rfl).2

/-- The writes of `stop_streaming`: the first two clear INTEN, the last one RUN. -/
structure StopWrite (run inten : Bool) (k reg : Nat) (value : U32) : Prop where
  rxCtrl : reg = videoCtrlRxCtrl
  run_le : runBit value = true → run = true
  inten_le : intenBit value = true → inten = true
  enabled : intenCleared ≤ k + 1
  early : k ≤ 2 → intenBit value = false
  last : 2 < k → k = 7 ∧ runBit value = false

theorem StopAt.write {run inten : Bool} {k reg : Nat} {value : U32} {next : RegProg}
    (h : StopAt run inten k (.write reg value next)) :
    StopWrite run inten k reg value ∧ StopAt run inten (k + 1) next := by
  cases h with
  | @clear ctrl hc =>
    obtain ⟨h₀, h₄⟩ := bits_clear_inten ctrl
    exact ⟨⟨rfl, h₀ ▸ hc, by simp [h₄], by decide, fun _ => h₄, by omega⟩, .acknowledge hc⟩
  | @acknowledge ctrl hc =>
    obtain ⟨h₀, h₄⟩ := bits_acknowledge ctrl
    exact ⟨⟨rfl, h₀ ▸ hc, by simp [h₄], by decide, fun _ => h₄, by omega⟩, .dump₀⟩
  | @clearRun ctrl hc =>
    obtain ⟨h₀, h₄⟩ := bits_clear_run ctrl
    exact ⟨⟨rfl, by simp [h₀], h₄ ▸ hc, by decide, by omega, fun _ => ⟨rfl, h₀⟩⟩, .returned⟩

theorem StopAt.of_ret {run inten : Bool} {k : Nat} (h : StopAt run inten k .ret) : k = 8 := by
  cases h
  rfl

/-- The only read whose value is still to be written is the one of `video_ctrl_stop`. -/
theorem StopAt.read_at {run inten : Bool} {k reg : Nat} {next : U32 → RegProg}
    (h : StopAt run inten k (.read reg next)) :
    k = 0 ∨ 3 ≤ k ∧ k ≤ 5 ∨ k = 6 ∧ RegProg.read reg next = videoCtrlStop .ret := by
  cases h with
  | entered => exact .inl rfl
  | dump₀ => exact .inr (.inl (by omega))
  | dump₁ => exact .inr (.inl (by omega))
  | dump₂ => exact .inr (.inl (by omega))
  | stop => exact .inr (.inr ⟨rfl, rfl⟩)

/-- No step brings in a bit that was clear on entry. -/
theorem Race.step {regs : VideoCtrlRegs} {s t : StopRace m} {e : Edge m} (h : Race regs s)
    (hs : s.step e = some t) : Race regs t := by
  rcases StopRace.step_cases hs with ⟨-, rfl⟩ | ⟨reg, next, -, hp, rfl⟩ | ⟨reg, value, next, -, hp, rfl⟩ |
    ⟨i, -, hlt, rfl⟩ | ⟨i, rxCtrlReg, -, hi, rfl⟩
  · exact ⟨h.run_le, h.inten_le, h.fresh, h.held, h.stopAt⟩
  · -- a read of `stop_streaming`: the program moves on, with RX_CTRL as it is
    have hat := h.stopAt
    rw [hp] at hat
    refine ⟨h.run_le, h.inten_le, ?_, h.held, hat.read ?_⟩
    · intro hlt
      simp only at hlt
      exact h.fresh (by omega)
    · rintro rfl
      simpa [regAddr_rxCtrl, VideoCtrlRegs.read_rxCtrl] using ⟨h.run_le, h.inten_le⟩
  · -- a write of `stop_streaming`: it clears bits of what it read
    have hat := h.stopAt
    rw [hp] at hat
    obtain ⟨hw, hnext⟩ := hat.write
    obtain rfl := hw.rxCtrl
    refine ⟨hw.run_le, hw.inten_le, ?_, h.held, hnext⟩
    intro hlt
    have hen := hw.enabled
    simp only at hlt
    omega
  · refine ⟨h.run_le, h.inten_le, h.fresh, ?_, h.stopAt⟩
    intro j v hj
    by_cases hji : j = i
    · subst hji
      obtain rfl : s.regs.rxCtrl e.vdmaFramePtrI = v := by simpa using hj
      simpa using h.fresh hlt
    · exact h.held j v (by simpa [hji] using hj)
  · obtain ⟨h₀, h₄⟩ := h.held i rxCtrlReg hi
    refine ⟨?_, ?_, fun _ => ⟨h₀, h₄⟩, ?_, h.stopAt⟩
    · intro hr
      exact h₀.symm.trans hr
    · intro hr
      exact h₄.symm.trans hr
    · intro j v hj
      by_cases hji : j = i
      · subst hji
        simp at hj
      · exact h.held j v (by simpa [hji] using hj)

/-- From a clean state exactly the harmless steps lead to a clean one. -/
theorem clean_step {regs : VideoCtrlRegs} {s t : StopRace m} {e : Edge m} (h : Race regs s) (hc : Clean s)
    (hs : s.step e = some t) : Clean t ↔ Harmless regs s e := by
  have quiet : (∀ i, e.access ≠ .irqWrite i) → Clean t → (Clean t ↔ Harmless regs s e) := fun ha ht =>
    ⟨fun _ i hi => absurd hi (ha i), fun _ => ht⟩
  rcases StopRace.step_cases hs with ⟨ha, rfl⟩ | ⟨reg, next, ha, hp, rfl⟩ | ⟨reg, value, next, ha, hp, rfl⟩ |
    ⟨i, ha, -, rfl⟩ | ⟨i, rxCtrlReg, ha, hi, rfl⟩
  · exact quiet (by simp [ha]) ⟨hc.dumping, hc.stopping, hc.returned⟩
  · have hat := h.stopAt
    rw [hp] at hat
    apply quiet (by simp [ha])
    rcases hat.read_at with hk | ⟨hl, hu⟩ | ⟨hk, he⟩
    · exact .of_lt (by simp only; omega)
    · exact .of_dumping (by simp only; omega) (hc.dumping hl (by omega))
    · -- `video_ctrl_stop` reads INTEN as the clearing left it
      have hint : s.regs.vdmaFrameInten = false := hc.dumping (by omega) (by omega)
      cases he
      apply Clean.of_stopping (by simp only; omega) rfl
      rw [(bits_clear_run _).2]
      simpa [regAddr_rxCtrl, VideoCtrlRegs.read_rxCtrl] using hint
  · have hat := h.stopAt
    rw [hp] at hat
    have hw := hat.write.1
    obtain rfl := hw.rxCtrl
    apply quiet (by simp [ha])
    by_cases hk : s.accesses ≤ 2
    · exact .of_dumping (by simp only; omega) (hw.early hk)
    · obtain ⟨h7, hrun⟩ := hw.last (by omega)
      exact .of_returned (by simp only; omega) ⟨hrun, hc.stopping h7 _ _ _ hp⟩
  · exact quiet (by simp [ha]) ⟨hc.dumping, hc.stopping, hc.returned⟩
  · -- a write-back restores the bits on entry
    obtain ⟨h₀, h₄⟩ := h.held i rxCtrlReg hi
    constructor
    · intro ht j _
      constructor
      · intro hl hu
        exact h₄.symm.trans (ht.dumping hl hu)
      · intro hk
        obtain ⟨hr, hn⟩ := ht.returned hk
        exact ⟨h₀.symm.trans hr, h₄.symm.trans hn⟩
    · intro hh
      obtain ⟨hd, hr⟩ := hh i ha
      refine ⟨?_, hc.stopping, ?_⟩
      · intro hl hu
        exact h₄.trans (hd hl hu)
      · intro hk
        obtain ⟨hrun, hint⟩ := hr hk
        exact ⟨h₀.trans hrun, h₄.trans hint⟩

theorem eq_false_of_le {a b : Bool} (h : a = true → b = true) (hb : b = false) : a = false := by
  cases a with
  | false => rfl
  | true => rw [← h rfl, hb]

/-- What a write-back has restored nobody clears again. -/
theorem clean_of_step {regs : VideoCtrlRegs} {s t : StopRace m} {e : Edge m} (h : Race regs s) (hc : Clean t)
    (hs : s.step e = some t) : Clean s := by
  rcases StopRace.step_cases hs with ⟨ha, rfl⟩ | ⟨reg, next, ha, hp, rfl⟩ | ⟨reg, value, next, ha, hp, rfl⟩ |
    ⟨i, ha, -, rfl⟩ | ⟨i, rxCtrlReg, ha, hi, rfl⟩
  · exact ⟨hc.dumping, hc.stopping, hc.returned⟩
  · have hat := h.stopAt
    rw [hp] at hat
    rcases hat.read_at with hk | ⟨hl, hu⟩ | ⟨hk, he⟩
    · exact .of_lt (by omega)
    · exact .of_dumping (by omega) (hc.dumping (by simp only; omega) (by simp only; omega))
    · -- the value to be written back shows INTEN as it was
      cases he
      have hv := hc.stopping (by simp only; omega) _ _ _ rfl
      rw [(bits_clear_run _).2, regAddr_rxCtrl, VideoCtrlRegs.read_rxCtrl, VideoCtrlRegs.rxCtrl_inten] at hv
      exact .of_dumping (by omega) hv
  · have hat := h.stopAt
    rw [hp] at hat
    have hw := hat.write.1
    obtain rfl := hw.rxCtrl
    by_cases hk : s.accesses ≤ 2
    · exact .of_lt (by omega)
    · obtain ⟨h7, -⟩ := hw.last (by omega)
      exact .of_stopping h7 hp (hc.returned (by simp only; omega)).2
  · exact ⟨hc.dumping, hc.stopping, hc.returned⟩
  · obtain ⟨h₀, h₄⟩ := h.held i rxCtrlReg hi
    refine ⟨?_, hc.stopping, ?_⟩
    · intro hl hu
      exact eq_false_of_le h.inten_le (h₄.symm.trans (hc.dumping hl hu))
    · intro hk
      obtain ⟨hr, hn⟩ := hc.returned hk
      exact ⟨eq_false_of_le h.run_le (h₀.symm.trans hr), eq_false_of_le h.inten_le (h₄.symm.trans hn)⟩

/-! ### Whole runs -/

/-- Once `stop_streaming` and the handlers are back, RUN and INTEN are clear exactly if every write-back on the way was
harmless. -/
theorem stop_clears_run_inten (regs : VideoCtrlRegs) (es : List (Edge m)) (s : StopRace m)
    (h : Lts.exec StopRace.step (.entered m regs) es = some s) (hret : s.Returned) (p : BitVec 6) :
    (runBit (s.regs.rxCtrl p) = false ∧ intenBit (s.regs.rxCtrl p) = false) ↔
      Lts.StepsMeet StopRace.step (Harmless regs) (.entered m regs) es := by
  have hrace : Race regs s := Lts.exec_invariant' (fun _ _ _ => Race.step) (race_entered regs) h
  have hat := hrace.stopAt
  rw [hret.1] at hat
  have hk := hat.of_ret
  have hclean : (runBit (s.regs.rxCtrl p) = false ∧ intenBit (s.regs.rxCtrl p) = false) ↔ Clean s := by
    rw [VideoCtrlRegs.rxCtrl_run, VideoCtrlRegs.rxCtrl_inten]
    constructor
    · intro hb
      exact .of_returned hk hb
    · intro hc
      exact hc.returned hk
  rw [hclean]
  exact Lts.exec_iff_stepsMeet (fun _ _ _ => Race.step) (fun _ _ _ => clean_step)
    (fun _ _ _ hI hnot hs hc => hnot (clean_of_step hI hc hs)) (race_entered regs) (clean_entered regs) h

/-- A clock without anything to report. -/
def edge (access : Access m) : Edge m := ⟨1, ⟨0, 0, 0, 0, false, false, 0, false, true, 0⟩, access⟩

/-- RX_CTRL while streaming: RUN and INTEN are set, an interrupt is pending. -/
def streaming : VideoCtrlRegs :=
  { VideoCtrlRegs.reset with rxEnable := true, vdmaFrameInten := true, vdmaFrameInt := true, vdmaFramePtrI := 1 }

/-- The handler is done before `stop_streaming` disables interrupts. -/
def handlerFirst : List (Edge 1) :=
  [edge (.irqRead 0), edge .stop, edge (.irqWrite 0)] ++ List.replicate 7 (edge .stop)

theorem stop_clears_run_inten_handlerFirst :
    ∃ s, Lts.exec StopRace.step (.entered 1 streaming) handlerFirst = some s ∧
      runBit (s.regs.rxCtrl 1) = false ∧ intenBit (s.regs.rxCtrl 1) = false := by
  obtain ⟨s, hs, hret⟩ : ∃ s, Lts.exec StopRace.step (.entered 1 streaming) handlerFirst = some s ∧ s.Returned :=
    Lts.exists_exec (by decide)
  refine ⟨s, hs, (stop_clears_run_inten streaming handlerFirst s hs hret 1).2 ?_⟩
  decide

/-- The handler reads RX_CTRL, `stop_streaming` runs to its end, the handler writes back what it read. -/
def handlerLast : List (Edge 1) :=
  edge (.irqRead 0) :: List.replicate 8 (edge .stop) ++ [edge (.irqWrite 0)]

theorem stale_write_back_restarts :
    ¬ ∀ (regs : VideoCtrlRegs) (es : List (Edge 1)) (s : StopRace 1),
      Lts.exec StopRace.step (.entered 1 regs) es = some s → s.Returned →
        runBit (s.regs.rxCtrl 1) = false ∧ intenBit (s.regs.rxCtrl 1) = false := by
  intro h
  obtain ⟨s, hs, hret, hbit⟩ : ∃ s, Lts.exec StopRace.step (.entered 1 streaming) handlerLast = some s ∧ s.Returned ∧
      runBit (s.regs.rxCtrl 1) = true :=
    Lts.exists_exec (by decide)
  have := (h streaming handlerLast s hs hret).1
  rw [hbit] at this
  cases this

end RcCarControl.Driver
