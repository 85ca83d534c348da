import RcCarControl.Driver.Buffers
import Mathlib.Data.Fintype.Card
import Mathlib.Data.Finset.Card

/-!
# Who owns a video buffer

The results about the buffer slots over any number of streaming sessions.

* Every buffer is given back exactly as often as it was queued, up to the one time it is still with the driver
  (`Accounts`): the error exit of `xrcc_cam_buffer_queue` keeps the lock, so no later call comes back.
* Two slots never hold one address and the search for a slot never fails (`Tidy`) as long as `stop_streaming` finds
  every occupied slot registered; a slot whose buffer is with user space at that moment survives the session.
-/

namespace RcCarControl.Driver

variable {n : Nat}

/-! ### What one call does -/

@[simp] theorem setSlot_self (dev : XrccCamDev n) (idx : Fin n) (slot : XrccCamBuf) :
    (setSlot dev idx slot).vectBufs idx = slot := by
  simp [setSlot]

theorem setSlot_ne (dev : XrccCamDev n) {idx i : Fin n} (slot : XrccCamBuf) (h : i ≠ idx) :
    (setSlot dev idx slot).vectBufs i = dev.vectBufs i := by
  simp [setSlot, h]

theorem findSlot_some {dev : XrccCamDev n} {addr : U32} {idx : Fin n} (h : findSlot dev addr = some idx) :
    ((dev.vectBufs idx).buf = none ∨ (dev.vectBufs idx).addr = addr) ∧
      ∀ j < idx, (dev.vectBufs j).buf ≠ none ∧ (dev.vectBufs j).addr ≠ addr := by
  rw [findSlot, List.find?_eq_some_iff_getElem] at h
  obtain ⟨hp, k, hk, rfl, hlt⟩ := h
  refine ⟨by simpa using hp, ?_⟩
  intro j hj
  have hjk : j.val < k := by simpa [Fin.lt_def] using hj
  simpa [not_or] using hlt j hjk

theorem findSlot_none {dev : XrccCamDev n} {addr : U32} (h : findSlot dev addr = none) (i : Fin n) :
    (dev.vectBufs i).buf ≠ none ∧ (dev.vectBufs i).addr ≠ addr := by
  rw [findSlot, List.find?_eq_none] at h
  simpa [not_or] using h i (List.mem_finRange i)

/-- Nobody gets past a lock that was never released. -/
theorem spinLock_held {dev : XrccCamDev n} (h : dev.queuedLock = true) : spinLock dev = .error .spins := by
  simp [spinLock, h]

theorem spinLock_free {dev : XrccCamDev n} (h : dev.queuedLock = false) :
    spinLock dev = .ok { dev with queuedLock := true } := by
  simp [spinLock, h]

theorem queue_held {dev : XrccCamDev n} (h : dev.queuedLock = true) (vbuf : Nat) (addr : U32) :
    xrccCamBufferQueue dev vbuf addr = .error .spins := by
  simp [xrccCamBufferQueue, spinLock_held h, bind, Except.bind]

theorem queue_found {dev : XrccCamDev n} (h : dev.queuedLock = false) {addr : U32} {idx : Fin n}
    (hf : findSlot dev addr = some idx) (vbuf : Nat) :
    xrccCamBufferQueue dev vbuf addr = .ok (setSlot dev idx ⟨some vbuf, addr, true⟩) := by
  have hf' : findSlot { dev with queuedLock := true } addr = some idx := hf
  simp only [xrccCamBufferQueue, spinLock_free h, bind, Except.bind, hf']
  simp [spinUnlock, setSlot, h, pure, Except.pure]

/-- The error exit leaves the lock taken. -/
theorem queue_not_found {dev : XrccCamDev n} (h : dev.queuedLock = false) {addr : U32}
    (hf : findSlot dev addr = none) (vbuf : Nat) :
    xrccCamBufferQueue dev vbuf addr = .ok { dev with queuedLock := true } := by
  have hf' : findSlot { dev with queuedLock := true } addr = none := hf
  simp only [xrccCamBufferQueue, spinLock_free h, bind, Except.bind, hf']
  rfl

section Irq

variable [NeZero n] {dev : XrccCamDev n} {rxCtrlReg : U32} (hv : dev.videoCtrlMem = true) (hd : dev.vdmaCtrlMem = true)
include hv hd

theorem irq_held (h : dev.queuedLock = true) : xrccCamIrqHandler dev rxCtrlReg = .error .spins := by
  simp [xrccCamIrqHandler, hv, hd, spinLock_held h, bind, Except.bind]

/-- The interrupt for a slot that is not registered changes the frame counter only. -/
theorem irq_unregistered (h : dev.queuedLock = false)
    (hr : (dev.vectBufs (irqIdx rxCtrlReg)).registered = false) :
    xrccCamIrqHandler dev rxCtrlReg = .ok ({ dev with frameCnt := dev.frameCnt + 1 }, [], some rxCtrlReg) := by
  simp [xrccCamIrqHandler, hv, hd, spinLock_free h, bind, Except.bind, hr, spinUnlock, h, pure, Except.pure]

theorem irq_nullPointer (h : dev.queuedLock = false) (hr : (dev.vectBufs (irqIdx rxCtrlReg)).registered = true)
    (hb : (dev.vectBufs (irqIdx rxCtrlReg)).buf = none) : xrccCamIrqHandler dev rxCtrlReg = .error .nullPointer := by
  simp [xrccCamIrqHandler, hv, hd, spinLock_free h, bind, Except.bind, hr, hb, throw, throwThe, MonadExceptOf.throw]

/-- The interrupt for a registered slot gives its buffer back and keeps the slot's buffer and address. -/
theorem irq_registered (h : dev.queuedLock = false) {vbuf : Nat}
    (hr : (dev.vectBufs (irqIdx rxCtrlReg)).registered = true)
    (hb : (dev.vectBufs (irqIdx rxCtrlReg)).buf = some vbuf) :
    xrccCamIrqHandler dev rxCtrlReg =
      .ok ({ setSlot dev (irqIdx rxCtrlReg) { dev.vectBufs (irqIdx rxCtrlReg) with registered := false } with
          sequence := dev.sequence + 1, frameCnt := dev.frameCnt + 1 },
        [(vbuf, .done dev.sequence)], some rxCtrlReg) := by
  simp [xrccCamIrqHandler, hv, hd, spinLock_free h, bind, Except.bind, hr, hb, spinUnlock, setSlot, h, pure,
    Except.pure]

/-- A handler that returns found the lock free, and a buffer in the slot if that is registered. -/
theorem irq_ok_cases {r : XrccCamDev n × Returned × Option U32} (h : xrccCamIrqHandler dev rxCtrlReg = .ok r) :
    dev.queuedLock = false ∧
      ((dev.vectBufs (irqIdx rxCtrlReg)).registered = false ∨
        (dev.vectBufs (irqIdx rxCtrlReg)).registered = true ∧
          ∃ vbuf, (dev.vectBufs (irqIdx rxCtrlReg)).buf = some vbuf) := by
  cases hl : dev.queuedLock with
  | true =>
    rw [irq_held hv hd hl] at h
    cases h
  | false =>
    refine ⟨rfl, ?_⟩
    cases hr : (dev.vectBufs (irqIdx rxCtrlReg)).registered with
    | false => exact Or.inl rfl
    | true =>
      cases hb : (dev.vectBufs (irqIdx rxCtrlReg)).buf with
      | none =>
        rw [irq_nullPointer hv hd hl hr hb] at h
        cases h
      | some vbuf => exact Or.inr ⟨rfl, vbuf, rfl⟩

/-- What the handler writes back is what it read. -/
theorem irq_writes_back {dev' : XrccCamDev n} {ds : Returned} {back : Option U32}
    (h : xrccCamIrqHandler dev rxCtrlReg = .ok (dev', ds, back)) : back = some rxCtrlReg := by
  obtain ⟨hl, hr | ⟨hr, vbuf, hb⟩⟩ := irq_ok_cases hv hd h
  · rw [irq_unregistered hv hd hl hr] at h
    cases h
    rfl
  · rw [irq_registered hv hd hl hr hb] at h
    cases h
    rfl

end Irq

/-- The test in the loop of `xrcc_cam_stop_streaming`. -/
def Clears (slot : XrccCamBuf) (vbuf : Nat) : Prop :=
  slot.buf = some vbuf ∧ slot.addr ≠ 0 ∧ slot.registered = true

theorem stopSlot_held {dev : XrccCamDev n} (h : dev.queuedLock = true) (i : Fin n) :
    stopSlot dev i = .error .spins := by
  simp [stopSlot, spinLock_held h, bind, Except.bind]

theorem stopSlot_clears {dev : XrccCamDev n} (h : dev.queuedLock = false) {i : Fin n} {vbuf : Nat}
    (hc : Clears (dev.vectBufs i) vbuf) :
    stopSlot dev i = .ok (setSlot dev i .empty, [(vbuf, .error)]) := by
  obtain ⟨hb, ha, hr⟩ := hc
  simp [stopSlot, spinLock_free h, bind, Except.bind, hb, hr, spinUnlock, setSlot, h, pure, Except.pure]
  exact ha

theorem stopSlot_skips {dev : XrccCamDev n} (h : dev.queuedLock = false) {i : Fin n}
    (hc : ∀ vbuf, ¬ Clears (dev.vectBufs i) vbuf) : stopSlot dev i = .ok (dev, []) := by
  have hdev : ({ dev with queuedLock := false } : XrccCamDev n) = dev := by
    cases dev
    simp_all
  simp only [stopSlot, spinLock_free h, bind, Except.bind]
  cases hb : (dev.vectBufs i).buf with
  | none => simp [spinUnlock, hdev, pure, Except.pure]
  | some vbuf =>
    have hnot : ¬ ((dev.vectBufs i).addr ≠ 0 ∧ (dev.vectBufs i).registered = true) := fun h' => hc vbuf ⟨hb, h'⟩
    simp only [spinUnlock, hdev, hnot, if_false]
    rfl

/-! ### The ledger: queued against given back -/

/-- The DMA addresses of the buffers that exist are distinct and not zero, their numbers distinct, and there are at
most `n` of them. -/
structure LiveSound (n : Nat) (live : List (Nat × U32)) (next : Nat) : Prop where
  room : live.length ≤ n
  nonzero : ∀ b ∈ live, b.2 ≠ 0
  addr_inj : ∀ b ∈ live, ∀ b' ∈ live, b.2 = b'.2 → b = b'
  old : ∀ b ∈ live, b.1 < next
  id_inj : ∀ b ∈ live, ∀ b' ∈ live, b.1 = b'.1 → b = b'

/-- A registered slot holds a live buffer that was queued once more than it was given back; all other buffers are
even. -/
structure Ledger (slots : Fin n → XrccCamBuf) (live : List (Nat × U32)) (queued returned : Nat → Nat) : Prop where
  holds : ∀ i, (slots i).registered = true → ∃ b, (slots i).buf = some b ∧ (b, (slots i).addr) ∈ live
  once : ∀ i j b, (slots i).registered = true → (slots j).registered = true → (slots i).buf = some b →
    (slots j).buf = some b → i = j
  owed : ∀ i b, (slots i).registered = true → (slots i).buf = some b → queued b = returned b + 1
  settled : ∀ b, (∀ i, (slots i).registered = true → (slots i).buf ≠ some b) → queued b = returned b

theorem Ledger.bounds {slots : Fin n → XrccCamBuf} {live : List (Nat × U32)} {queued returned : Nat → Nat}
    (h : Ledger slots live queued returned) (b : Nat) : returned b ≤ queued b ∧ queued b ≤ returned b + 1 := by
  by_cases hb : ∃ i, (slots i).registered = true ∧ (slots i).buf = some b
  · obtain ⟨i, hr, hi⟩ := hb
    have := h.owed i b hr hi
    omega
  · have := h.settled b fun i hr hi => hb ⟨i, hr, hi⟩
    omega

theorem Ledger.settled_all {slots : Fin n → XrccCamBuf} {live : List (Nat × U32)} {queued returned : Nat → Nat}
    (h : Ledger slots live queued returned) (hr : ∀ i, (slots i).registered = false) (b : Nat) :
    queued b = returned b :=
  h.settled b fun i hi => by simp [hr i] at hi

/-- Giving back the buffer of a registered slot: the slot may keep its buffer and address, but is registered no
longer. -/
theorem Ledger.give {slots : Fin n → XrccCamBuf} {live : List (Nat × U32)} {queued returned : Nat → Nat}
    (h : Ledger slots live queued returned) {i : Fin n} {b : Nat} (hr : (slots i).registered = true)
    (hb : (slots i).buf = some b) (slot : XrccCamBuf) (hs : slot.registered = false) :
    Ledger (Function.update slots i slot) live queued (fun b' => returned b' + [b].count b') := by
  have other : ∀ j, (Function.update slots i slot j).registered = true → j ≠ i ∧ (slots j).registered = true ∧
      Function.update slots i slot j = slots j := by
    intro j hj
    by_cases hji : j = i
    · subst hji
      simp [hs] at hj
    · have he : Function.update slots i slot j = slots j := Function.update_of_ne hji _ _
      exact ⟨hji, he ▸ hj, he⟩
  constructor
  · intro j hj
    obtain ⟨-, hrj, he⟩ := other j hj
    rw [he]
    exact h.holds j hrj
  · intro j k c hj hk hjc hkc
    obtain ⟨-, hrj, hej⟩ := other j hj
    obtain ⟨-, hrk, hek⟩ := other k hk
    rw [hej] at hjc
    rw [hek] at hkc
    exact h.once j k c hrj hrk hjc hkc
  · intro j c hj hjc
    obtain ⟨hji, hrj, hej⟩ := other j hj
    rw [hej] at hjc
    have hcb : c ≠ b := by
      rintro rfl
      exact hji (h.once j i c hrj hr hjc hb)
    have := h.owed j c hrj hjc
    simp [Ne.symm hcb, this]
  · intro c hc
    by_cases hcb : c = b
    · subst hcb
      have := h.owed i c hr hb
      simp [this]
    · have := h.settled c fun j hrj hjc => by
        have hji : j ≠ i := by
          rintro rfl
          rw [hb] at hjc
          exact hcb (Option.some.inj hjc).symm
        exact hc j (by rw [Function.update_of_ne hji]; exact hrj) (by rw [Function.update_of_ne hji]; exact hjc)
      simp [Ne.symm hcb, this]

/-- A buffer that is even is in no registered slot. -/
theorem Ledger.not_owed {slots : Fin n → XrccCamBuf} {live : List (Nat × U32)} {queued returned : Nat → Nat}
    (h : Ledger slots live queued returned) {b : Nat} (he : queued b = returned b) (j : Fin n)
    (hj : (slots j).registered = true) : (slots j).buf ≠ some b := by
  intro hjb
  have := h.owed j b hj hjb
  omega

/-- The slot that is taken for a buffer was not registered. -/
theorem Ledger.free {slots : Fin n → XrccCamBuf} {live : List (Nat × U32)} {queued returned : Nat → Nat} {next : Nat}
    (h : Ledger slots live queued returned) (hl : LiveSound n live next) {idx : Fin n} {b : Nat} {addr : U32}
    (hb : (b, addr) ∈ live) (he : queued b = returned b)
    (hi : (slots idx).buf = none ∨ (slots idx).addr = addr) : (slots idx).registered = false := by
  by_contra hreg
  have hreg' : (slots idx).registered = true := by simpa using hreg
  obtain ⟨c, hc, hcl⟩ := h.holds idx hreg'
  rcases hi with hi | hi
  · rw [hi] at hc
    cases hc
  · rw [hi] at hcl
    have hcb : c = b := congrArg Prod.fst (hl.addr_inj _ hcl _ hb rfl)
    exact h.not_owed he idx hreg' (hcb ▸ hc)

/-- Queueing a live buffer that is even. -/
theorem Ledger.take {slots : Fin n → XrccCamBuf} {live : List (Nat × U32)} {queued returned : Nat → Nat} {next : Nat}
    (h : Ledger slots live queued returned) (hl : LiveSound n live next) {idx : Fin n} {b : Nat} {addr : U32}
    (hb : (b, addr) ∈ live) (he : queued b = returned b)
    (hi : (slots idx).buf = none ∨ (slots idx).addr = addr) :
    Ledger (Function.update slots idx ⟨some b, addr, true⟩) live (Function.update queued b (queued b + 1))
      returned := by
  have notOwed := h.not_owed he
  have free := h.free hl hb he hi
  have other : ∀ j, j ≠ idx → Function.update slots idx ⟨some b, addr, true⟩ j = slots j := fun j hj =>
    Function.update_of_ne hj _ _
  constructor
  · intro j hj
    by_cases hji : j = idx
    · subst hji
      exact ⟨b, by simp, by simpa using hb⟩
    · rw [other j hji] at hj ⊢
      exact h.holds j hj
  · intro j k c hj hk hjc hkc
    by_cases hji : j = idx <;> by_cases hki : k = idx
    · rw [hji, hki]
    · subst hji
      have hbc : b = c := by simpa using hjc
      rw [other k hki] at hk hkc
      exact absurd (hbc ▸ hkc) (notOwed k hk)
    · subst hki
      have hbc : b = c := by simpa using hkc
      rw [other j hji] at hj hjc
      exact absurd (hbc ▸ hjc) (notOwed j hj)
    · rw [other j hji] at hj hjc
      rw [other k hki] at hk hkc
      exact h.once j k c hj hk hjc hkc
  · intro j c hj hjc
    by_cases hji : j = idx
    · subst hji
      have hbc : b = c := by simpa using hjc
      subst hbc
      simp [he]
    · rw [other j hji] at hj hjc
      have hcb : c ≠ b := by
        rintro rfl
        exact notOwed j hj hjc
      rw [Function.update_of_ne hcb]
      exact h.owed j c hj hjc
  · intro c hc
    have hcb : c ≠ b := by
      rintro rfl
      exact hc idx (by simp) (by simp)
    rw [Function.update_of_ne hcb]
    apply h.settled c
    intro j hj hjc
    have hji : j ≠ idx := by
      rintro rfl
      rw [free] at hj
      cases hj
    exact hc j (by rw [other j hji]; exact hj) (by rw [other j hji]; exact hjc)

/-! ### The loop of `stop_streaming` -/

/-- What one turn of the loop, or several, does to the slots `is` and to the ledger. -/
structure Stops (dev dev' : XrccCamDev n) (is : List (Fin n)) (ds : Returned) : Prop where
  unlocked : dev'.queuedLock = false
  videoMem : dev'.videoCtrlMem = dev.videoCtrlMem
  vdmaMem : dev'.vdmaCtrlMem = dev.vdmaCtrlMem
  cleared : ∀ i ∈ is, ∀ b, Clears (dev.vectBufs i) b → dev'.vectBufs i = .empty
  kept : ∀ i, dev'.vectBufs i = .empty ∨ dev'.vectBufs i = dev.vectBufs i
  ledger : ∀ live queued returned, Ledger dev.vectBufs live queued returned →
    Ledger dev'.vectBufs live queued fun b => returned b + (ds.map Prod.fst).count b

theorem stopSlot_spec {dev : XrccCamDev n} (h : dev.queuedLock = false) (i : Fin n) :
    ∃ dev' ds, stopSlot dev i = .ok (dev', ds) ∧ Stops dev dev' [i] ds := by
  by_cases hc : ∃ b, Clears (dev.vectBufs i) b
  · obtain ⟨b, hc⟩ := hc
    refine ⟨_, _, stopSlot_clears h hc, h, rfl, rfl, ?_, ?_, ?_⟩
    · intro j hj _ _
      rw [List.mem_singleton.1 hj]
      exact setSlot_self dev i .empty
    · intro j
      by_cases hji : j = i
      · exact .inl (hji ▸ setSlot_self dev i .empty)
      · exact .inr (setSlot_ne dev _ hji)
    · intro live queued returned hL
      exact hL.give hc.2.2 hc.1 .empty rfl
  · have hno : ∀ b, ¬ Clears (dev.vectBufs i) b := not_exists.1 hc
    refine ⟨_, _, stopSlot_skips h hno, h, rfl, rfl, ?_, fun _ => .inr rfl, ?_⟩
    · intro j hj b hb
      rw [List.mem_singleton.1 hj] at hb
      exact absurd hb (hno b)
    · intro live queued returned hL
      simpa using hL

theorem stopSlots_spec {dev : XrccCamDev n} (h : dev.queuedLock = false) (is : List (Fin n)) :
    ∃ dev' ds, stopSlots dev is = .ok (dev', ds) ∧ Stops dev dev' is ds := by
  induction is generalizing dev with
  | nil =>
    refine ⟨dev, [], rfl, h, rfl, rfl, by simp, fun _ => .inr rfl, ?_⟩
    intro live queued returned hL
    simpa using hL
  | cons i is ih =>
    obtain ⟨dev₁, d, hd, h₁⟩ := stopSlot_spec h i
    obtain ⟨dev₂, ds, hds, h₂⟩ := ih h₁.unlocked
    refine ⟨dev₂, d ++ ds, ?_, h₂.unlocked, h₂.videoMem.trans h₁.videoMem, h₂.vdmaMem.trans h₁.vdmaMem, ?_, ?_, ?_⟩
    · simp [stopSlots, hd, hds, bind, Except.bind, pure, Except.pure]
    · intro j hj b hb
      rcases h₁.kept j with he | he
      · rcases h₂.kept j with he' | he'
        · exact he'
        · rw [he', he]
      · rcases List.mem_cons.1 hj with rfl | hj
        · have hj' := h₁.cleared j (by simp) b hb
          rcases h₂.kept j with he' | he'
          · exact he'
          · rw [he', hj']
        · exact h₂.cleared j hj b (he ▸ hb)
    · intro j
      rcases h₂.kept j with he | he
      · exact .inl he
      · rw [he]
        exact h₁.kept j
    · intro live queued returned hL
      have := h₂.ledger _ _ _ (h₁.ledger _ _ _ hL)
      simpa [List.count_append, Nat.add_assoc] using this

/-! ### Every buffer is given back once -/

theorem step_cases [NeZero n] {c c' : Capture n} {e : Call} (h : c.step e = some c') :
    c.Allowed e ∧ c.call e = .ok c' := by
  unfold Capture.step at h
  split at h
  · rename_i ha
    cases hc : c.call e with
    | error f => simp [hc, Except.toOption] at h
    | ok d =>
      simp only [hc, Except.toOption, Option.some.injEq] at h
      exact ⟨ha, by rw [h]⟩
  · cases h

/-- The invariant of every run: the ledger holds while the lock is free, and no slot is registered between
sessions. -/
structure Accounts (c : Capture n) : Prop where
  live : LiveSound n c.live c.next
  ledger : c.dev.queuedLock = false → Ledger c.dev.vectBufs c.live c.queued c.returned
  bounds : ∀ b, c.returned b ≤ c.queued b ∧ c.queued b ≤ c.returned b + 1
  idle : c.idle = true → ∀ i, (c.dev.vectBufs i).registered = false
  idle_unlocked : c.idle = true → c.dev.queuedLock = false
  videoMem : c.dev.videoCtrlMem = true
  vdmaMem : c.dev.vdmaCtrlMem = true

theorem accounts_probed (n : Nat) : Accounts (Capture.probed n) where
  live := ⟨by simp [Capture.probed], by simp [Capture.probed], by simp [Capture.probed], by simp [Capture.probed],
    by simp [Capture.probed]⟩
  ledger _ := ⟨by simp [Capture.probed, XrccCamBuf.empty], by simp [Capture.probed, XrccCamBuf.empty],
    by simp [Capture.probed, XrccCamBuf.empty], fun _ _ => rfl⟩
  bounds _ := ⟨Nat.le_refl _, Nat.le_succ _⟩
  idle _ _ := rfl
  idle_unlocked _ := rfl
  videoMem := rfl
  vdmaMem := rfl

theorem LiveSound.alloc {live : List (Nat × U32)} {next : Nat} (h : LiveSound n live next) {addr : U32}
    (hroom : live.length < n) (hnz : addr ≠ 0) (hnew : addr ∉ live.map Prod.snd) :
    LiveSound n ((next, addr) :: live) (next + 1) := by
  have hne : ∀ b ∈ live, b.2 ≠ addr := fun b hb he => hnew (List.mem_map.2 ⟨b, hb, he⟩)
  constructor
  · exact hroom
  · intro b hb
    rcases List.mem_cons.1 hb with rfl | hb
    · exact hnz
    · exact h.nonzero b hb
  · intro b hb b' hb' he
    rcases List.mem_cons.1 hb with rfl | hb <;> rcases List.mem_cons.1 hb' with rfl | hb'
    · rfl
    · exact absurd he.symm (hne b' hb')
    · exact absurd he (hne b hb)
    · exact h.addr_inj b hb b' hb' he
  · intro b hb
    rcases List.mem_cons.1 hb with rfl | hb
    · exact Nat.lt_succ_self _
    · exact Nat.lt_succ_of_lt (h.old b hb)
  · intro b hb b' hb' he
    rcases List.mem_cons.1 hb with rfl | hb <;> rcases List.mem_cons.1 hb' with rfl | hb'
    · rfl
    · have := h.old b' hb'
      simp only at he
      omega
    · have := h.old b hb
      simp only at he
      omega
    · exact h.id_inj b hb b' hb' he

theorem LiveSound.filter {live : List (Nat × U32)} {next : Nat} (h : LiveSound n live next)
    (p : Nat × U32 → Bool) : LiveSound n (live.filter p) next := by
  have sub : ∀ b ∈ live.filter p, b ∈ live := fun b hb => (List.mem_filter.1 hb).1
  exact ⟨(List.length_filter_le _ _).trans h.room, fun b hb => h.nonzero b (sub b hb),
    fun b hb b' hb' => h.addr_inj b (sub b hb) b' (sub b' hb'), fun b hb => h.old b (sub b hb),
    fun b hb b' hb' => h.id_inj b (sub b hb) b' (sub b' hb')⟩

theorem Ledger.mono {slots : Fin n → XrccCamBuf} {live live' : List (Nat × U32)} {queued returned : Nat → Nat}
    (h : Ledger slots live queued returned)
    (hl : ∀ i b, (slots i).registered = true → (b, (slots i).addr) ∈ live → (b, (slots i).addr) ∈ live') :
    Ledger slots live' queued returned where
  holds i hi := by
    obtain ⟨b, hb, hm⟩ := h.holds i hi
    exact ⟨b, hb, hl i b hi hm⟩
  once := h.once
  owed := h.owed
  settled := h.settled

section Step

variable [NeZero n] {c c' : Capture n}

theorem call_queue_found (hl : c.dev.queuedLock = false) {addr : U32} {idx : Fin n}
    (hf : findSlot c.dev addr = some idx) (vbuf : Nat) :
    c.call (.queue vbuf addr) = .ok { c with
      dev := setSlot c.dev idx ⟨some vbuf, addr, true⟩
      idle := false
      queued := Function.update c.queued vbuf (c.queued vbuf + 1) } := by
  simp [Capture.call, queue_found hl hf, bind, Except.bind, pure, Except.pure]

theorem call_stop (hl : c.dev.queuedLock = false) :
    ∃ dev' ds, c.call .stop = .ok { c.giveBack dev' ds with idle := true } ∧
      Stops c.dev dev' (List.finRange n) ds := by
  obtain ⟨dev', ds, hd, hS⟩ := stopSlots_spec hl (List.finRange n)
  refine ⟨dev', ds, ?_, hS⟩
  simp [Capture.call, xrccCamStopStreaming, hd, bind, Except.bind, pure, Except.pure]

theorem Accounts.queue (h : Accounts c) {vbuf : Nat} {addr : U32} (ha : c.Allowed (.queue vbuf addr))
    (hc : c.call (.queue vbuf addr) = .ok c') : Accounts c' := by
  obtain ⟨hlive, heven⟩ := ha
  cases hl : c.dev.queuedLock with
  | true => simp [Capture.call, queue_held hl, bind, Except.bind] at hc
  | false =>
    have hL := h.ledger hl
    cases hf : findSlot c.dev addr with
    | none =>
      simp only [Capture.call, queue_not_found hl hf, bind, Except.bind, pure, Except.pure, Except.ok.injEq] at hc
      subst hc
      -- the lock stays taken, so nothing is asked of the slots any more
      refine ⟨h.live, nofun, ?_, nofun, nofun, h.videoMem, h.vdmaMem⟩
      intro b
      by_cases hb : b = vbuf
      · subst hb
        simp [heven]
      · simpa [hb] using h.bounds b
    | some idx =>
      rw [call_queue_found hl hf, Except.ok.injEq] at hc
      subst hc
      have hL' := hL.take h.live hlive heven (findSlot_some hf).1
      exact ⟨h.live, fun _ => hL', hL'.bounds, nofun, nofun, h.videoMem, h.vdmaMem⟩

theorem Accounts.irq (h : Accounts c) {rxCtrlReg : U32} (hc : c.call (.irq rxCtrlReg) = .ok c') : Accounts c' := by
  cases hl : c.dev.queuedLock with
  | true => simp [Capture.call, irq_held h.videoMem h.vdmaMem hl, bind, Except.bind] at hc
  | false =>
    have hL := h.ledger hl
    cases hr : (c.dev.vectBufs (irqIdx rxCtrlReg)).registered with
    | false =>
      simp only [Capture.call, irq_unregistered h.videoMem h.vdmaMem hl hr, bind, Except.bind, pure, Except.pure,
        Except.ok.injEq] at hc
      subst hc
      simp only [Capture.giveBack, List.map_nil, List.count_nil, Nat.add_zero]
      exact ⟨h.live, fun _ => hL, h.bounds, h.idle, h.idle_unlocked, h.videoMem, h.vdmaMem⟩
    | true =>
      obtain ⟨vbuf, hb, -⟩ := hL.holds _ hr
      simp only [Capture.call, irq_registered h.videoMem h.vdmaMem hl hr hb, bind, Except.bind, pure, Except.pure,
        Except.ok.injEq] at hc
      subst hc
      have hL' := hL.give hr hb { c.dev.vectBufs (irqIdx rxCtrlReg) with registered := false } rfl
      refine ⟨h.live, fun _ => hL', hL'.bounds, ?_, h.idle_unlocked, h.videoMem, h.vdmaMem⟩
      intro hi
      have := h.idle hi (irqIdx rxCtrlReg)
      rw [hr] at this
      cases this

omit [NeZero n] in
/-- A slot that is registered is cleared by the loop of `stop_streaming`. -/
theorem Accounts.clears (h : Accounts c) (hl : c.dev.queuedLock = false) {i : Fin n}
    (hr : (c.dev.vectBufs i).registered = true) : ∃ b, Clears (c.dev.vectBufs i) b := by
  obtain ⟨b, hb, hm⟩ := (h.ledger hl).holds i hr
  exact ⟨b, hb, h.live.nonzero _ hm, hr⟩

theorem Accounts.stop_spec (h : Accounts c) (hc : c.call .stop = .ok c') :
    c.dev.queuedLock = false ∧ ∃ ds, c' = { c.giveBack c'.dev ds with idle := true } ∧
      Stops c.dev c'.dev (List.finRange n) ds ∧ ∀ i, (c'.dev.vectBufs i).registered = false := by
  cases hl : c.dev.queuedLock with
  | true =>
    obtain ⟨i, is, hi⟩ : ∃ i is, List.finRange n = i :: is := by
      cases hn : List.finRange n with
      | nil => exact absurd (List.mem_finRange (0 : Fin n)) (by simp [hn])
      | cons i is => exact ⟨i, is, rfl⟩
    simp [Capture.call, xrccCamStopStreaming, hi, stopSlots, stopSlot_held hl, bind, Except.bind] at hc
  | false =>
    obtain ⟨dev', ds, hd, hS⟩ := call_stop hl
    rw [hd, Except.ok.injEq] at hc
    subst hc
    refine ⟨rfl, ds, rfl, hS, ?_⟩
    intro i
    show (dev'.vectBufs i).registered = false
    by_contra hr
    have hr' : (dev'.vectBufs i).registered = true := by simpa using hr
    rcases hS.kept i with he | he
    · rw [he] at hr'
      cases hr'
    · rw [he] at hr'
      obtain ⟨b, hb⟩ := h.clears hl hr'
      rw [← he, hS.cleared i (List.mem_finRange i) b hb] at hr'
      cases hr'

theorem Accounts.stop (h : Accounts c) (hc : c.call .stop = .ok c') :
    Accounts c' ∧ ∀ b, c'.queued b = c'.returned b := by
  obtain ⟨hl, ds, hc', hS, hr⟩ := h.stop_spec hc
  have hL : Ledger c'.dev.vectBufs c'.live c'.queued c'.returned := by
    rw [hc']
    exact hS.ledger _ _ _ (h.ledger hl)
  have hlive : LiveSound n c'.live c'.next := by
    rw [hc']
    exact h.live
  exact ⟨⟨hlive, fun _ => hL, hL.bounds, fun _ => hr, fun _ => hS.unlocked, hS.videoMem.trans h.videoMem,
    hS.vdmaMem.trans h.vdmaMem⟩, hL.settled_all hr⟩

/-- One call keeps the accounts. -/
theorem Accounts.step (h : Accounts c) {e : Call} (hs : c.step e = some c') : Accounts c' := by
  obtain ⟨ha, hc⟩ := step_cases hs
  cases e with
  | alloc addr =>
    obtain ⟨hroom, hnz, hnew⟩ := ha
    simp only [Capture.call, Except.ok.injEq] at hc
    subst hc
    refine ⟨h.live.alloc hroom hnz hnew, ?_, h.bounds, h.idle, h.idle_unlocked, h.videoMem, h.vdmaMem⟩
    intro hl
    apply (h.ledger hl).mono
    intro i b _ hm
    exact List.mem_cons_of_mem _ hm
  | free vbuf =>
    simp only [Capture.call, Except.ok.injEq] at hc
    subst hc
    refine ⟨h.live.filter _, ?_, h.bounds, h.idle, h.idle_unlocked, h.videoMem, h.vdmaMem⟩
    intro hl
    apply (h.ledger hl).mono
    -- between sessions no slot is registered, so nothing of the ledger is freed
    intro i b hr _
    rw [h.idle ha i] at hr
    cases hr
  | queue vbuf addr => exact h.queue ha hc
  | irq rxCtrlReg => exact h.irq hc
  | stop => exact (h.stop hc).1

/-- The accounts of a whole run. -/
theorem accounts_run {es : List Call} (h : Lts.exec Capture.step (Capture.probed n) es = some c) : Accounts c :=
  Lts.exec_invariant' (fun _ _ _ hs ht => hs.step ht) (accounts_probed n) h

end Step

/-- Every queued buffer is given back exactly once: at every moment of every run the driver owes each buffer at most
one `vb2_buffer_done`, and when `stop_streaming` comes back it owes none. -/
theorem buffer_returned_once [NeZero n] (es : List Call) (c : Capture n)
    (h : Lts.exec Capture.step (Capture.probed n) es = some c) :
    (∀ b, c.returned b ≤ c.queued b ∧ c.queued b ≤ c.returned b + 1) ∧
      ∀ fs, es = fs ++ [.stop] → ∀ b, c.queued b = c.returned b := by
  refine ⟨(accounts_run h).bounds, ?_⟩
  rintro fs rfl
  obtain ⟨c₁, h₁, h₂⟩ := Lts.exec_append_cases h
  obtain ⟨c₂, hs, h₃⟩ := Lts.exec_cons_cases h₂
  cases h₃
  exact ((accounts_run h₁).stop (step_cases hs).2).2

/-- Two buffers are queued, the interrupt gives the first one back, `stop_streaming` the second. -/
def shortSession : List Call :=
  [.alloc 0x1000, .alloc 0x2000, .queue 0 0x1000, .queue 1 0x2000, .irq 0x01000000, .stop]

theorem buffer_returned_once_session :
    ∃ c, Lts.exec Capture.step (Capture.probed 3) shortSession = some c ∧ ∀ b, c.queued b = c.returned b := by
  obtain ⟨c, hc⟩ := Option.isSome_iff_exists.1
    (show (Lts.exec Capture.step (Capture.probed 3) shortSession).isSome = true by decide)
  exact ⟨c, hc, (buffer_returned_once shortSession c hc).2 shortSession.dropLast rfl⟩

/-! ### No address twice, always a slot -/

/-- No two occupied slots hold one address, the search of `xrcc_cam_buffer_queue` finds a slot for every buffer that
videobuf2 may queue, and every call comes back with the lock released. -/
structure SlotsSound [NeZero n] (c : Capture n) : Prop where
  distinct : ∀ i j, (c.dev.vectBufs i).buf ≠ none → (c.dev.vectBufs j).buf ≠ none →
    (c.dev.vectBufs i).addr = (c.dev.vectBufs j).addr → i = j
  finds : ∀ vbuf addr, c.Allowed (.queue vbuf addr) → findSlot c.dev addr ≠ none
  comesBack : ∀ e, c.Allowed e → ∃ c', c.call e = .ok c' ∧ c'.dev.queuedLock = false

/-- `stop_streaming` is called while every occupied slot is registered: the driver holds all buffers it ever put into
a slot of this session. -/
def StopsClean (c : Capture n) (e : Call) : Prop :=
  e = .stop → ∀ i, (c.dev.vectBufs i).buf ≠ none → (c.dev.vectBufs i).registered = true

instance (c : Capture n) (e : Call) : Decidable (StopsClean c e) :=
  inferInstanceAs (Decidable (e = .stop → ∀ i, (c.dev.vectBufs i).buf ≠ none → (c.dev.vectBufs i).registered = true))

/-- The invariant of the runs in which `stop_streaming` leaves no stale slot: the occupied slots are the first ones
and hold different live buffers, and between sessions all are empty. -/
structure Tidy (c : Capture n) : Prop extends Accounts c where
  unlocked : c.dev.queuedLock = false
  occupied : ∀ i b, (c.dev.vectBufs i).buf = some b → (b, (c.dev.vectBufs i).addr) ∈ c.live
  distinct : ∀ i j b, (c.dev.vectBufs i).buf = some b → (c.dev.vectBufs j).buf = some b → i = j
  packed : ∀ i j, i < j → (c.dev.vectBufs j).buf ≠ none → (c.dev.vectBufs i).buf ≠ none
  cleared : c.idle = true → ∀ i, (c.dev.vectBufs i).buf = none

theorem tidy_probed (n : Nat) : Tidy (Capture.probed n) where
  toAccounts := accounts_probed n
  unlocked := rfl
  occupied := nofun
  distinct := nofun
  packed _ _ _ h := absurd rfl h
  cleared _ _ := rfl

variable {c c' : Capture n}

/-- With all slots taken by other buffers there would be `n + 1` live buffers. -/
theorem Tidy.finds (h : Tidy c) {vbuf : Nat} {addr : U32} (ha : c.Allowed (.queue vbuf addr)) :
    findSlot c.dev addr ≠ none := by
  intro hf
  have full := findSlot_none hf
  have hbuf : ∀ i, ∃ b, (c.dev.vectBufs i).buf = some b := fun i => Option.ne_none_iff_exists'.1 (full i).1
  choose f hf' using hbuf
  let g : Fin n → Nat × U32 := fun i => (f i, (c.dev.vectBufs i).addr)
  have ginj : Function.Injective g := by
    intro i j hij
    have hfij : f i = f j := congrArg Prod.fst hij
    exact h.distinct i j (f i) (hf' i) (hfij ▸ hf' j)
  have gnot : (vbuf, addr) ∉ Finset.univ.image g := by
    simp only [Finset.mem_image, Finset.mem_univ, true_and, not_exists]
    intro i hi
    exact (full i).2 (congrArg Prod.snd hi)
  have gsub : insert (vbuf, addr) (Finset.univ.image g) ⊆ c.live.toFinset := by
    intro x hx
    rcases Finset.mem_insert.1 hx with rfl | hx
    · exact List.mem_toFinset.2 ha.1
    · obtain ⟨i, -, rfl⟩ := Finset.mem_image.1 hx
      exact List.mem_toFinset.2 (h.occupied i _ (hf' i))
  have hcard := Finset.card_le_card gsub
  rw [Finset.card_insert_of_notMem gnot, Finset.card_image_of_injective _ ginj, Finset.card_fin] at hcard
  have := hcard.trans c.live.toFinset_card_le
  have := h.live.room
  omega

/-- The slot found for a buffer is the one that holds it, if there is one. -/
theorem Tidy.slot_of_buf (h : Tidy c) {vbuf : Nat} {addr : U32} (hlive : (vbuf, addr) ∈ c.live) {idx j : Fin n}
    (hf : findSlot c.dev addr = some idx) (hj : (c.dev.vectBufs j).buf = some vbuf) : j = idx := by
  have haddr : (c.dev.vectBufs j).addr = addr :=
    congrArg Prod.snd (h.live.id_inj _ (h.occupied j vbuf hj) _ hlive rfl)
  obtain ⟨hp, hmin⟩ := findSlot_some hf
  rcases Nat.lt_trichotomy j.val idx.val with hlt | heq | hgt
  · exact absurd haddr (hmin j hlt).2
  · exact Fin.ext heq
  · have hocc := h.packed idx j hgt (by simp [hj])
    rcases hp with hp | hp
    · exact absurd hp hocc
    · obtain ⟨b, hb⟩ := Option.ne_none_iff_exists'.1 hocc
      have hbv : b = vbuf :=
        congrArg Prod.fst (h.live.addr_inj _ (h.occupied idx b hb) _ hlive hp)
      exact h.distinct j idx vbuf hj (hbv ▸ hb)

theorem Tidy.queue [NeZero n] (h : Tidy c) {vbuf : Nat} {addr : U32} (ha : c.Allowed (.queue vbuf addr)) :
    ∃ c', c.call (.queue vbuf addr) = .ok c' ∧ Tidy c' := by
  obtain ⟨idx, hf⟩ := Option.ne_none_iff_exists'.1 (h.finds ha)
  have hc := call_queue_found h.unlocked hf vbuf
  refine ⟨_, hc, h.toAccounts.queue ha hc, h.unlocked, ?_, ?_, ?_, nofun⟩
  · intro i b hb
    by_cases hi : i = idx
    · subst hi
      simp only [setSlot_self, Option.some.injEq] at hb ⊢
      exact hb ▸ ha.1
    · rw [setSlot_ne _ _ hi] at hb ⊢
      exact h.occupied i b hb
  · intro i j b hi hj
    by_cases hii : i = idx <;> by_cases hji : j = idx
    · rw [hii, hji]
    · subst hii
      rw [setSlot_ne _ _ hji] at hj
      simp only [setSlot_self, Option.some.injEq] at hi
      exact absurd (h.slot_of_buf ha.1 hf (hi ▸ hj)) hji
    · subst hji
      rw [setSlot_ne _ _ hii] at hi
      simp only [setSlot_self, Option.some.injEq] at hj
      exact absurd (h.slot_of_buf ha.1 hf (hj ▸ hi)) hii
    · rw [setSlot_ne _ _ hii] at hi
      rw [setSlot_ne _ _ hji] at hj
      exact h.distinct i j b hi hj
  · intro i j hij hj
    by_cases hii : i = idx
    · subst hii
      simp
    · rw [setSlot_ne _ _ hii]
      by_cases hji : j = idx
      · subst hji
        exact ((findSlot_some hf).2 i hij).1
      · rw [setSlot_ne _ _ hji] at hj
        exact h.packed i j hij hj

/-- The interrupt handler only ever changes `registered` of a slot. -/
theorem Tidy.irq_call [NeZero n] (h : Tidy c) (rxCtrlReg : U32) :
    ∃ dev ds, c.call (.irq rxCtrlReg) = .ok (c.giveBack dev ds) ∧ dev.queuedLock = false ∧
      ∀ i, (dev.vectBufs i).buf = (c.dev.vectBufs i).buf ∧ (dev.vectBufs i).addr = (c.dev.vectBufs i).addr := by
  cases hr : (c.dev.vectBufs (irqIdx rxCtrlReg)).registered with
  | false =>
    refine ⟨{ c.dev with frameCnt := c.dev.frameCnt + 1 }, [], ?_, h.unlocked, fun i => ⟨rfl, rfl⟩⟩
    simp [Capture.call, irq_unregistered h.videoMem h.vdmaMem h.unlocked hr, bind, Except.bind, pure, Except.pure]
  | true =>
    obtain ⟨vbuf, hb, -⟩ := (h.ledger h.unlocked).holds _ hr
    have hirq := irq_registered h.videoMem h.vdmaMem h.unlocked hr hb
    refine ⟨{ setSlot c.dev (irqIdx rxCtrlReg) { c.dev.vectBufs (irqIdx rxCtrlReg) with registered := false } with
      sequence := c.dev.sequence + 1, frameCnt := c.dev.frameCnt + 1 }, [(vbuf, .done c.dev.sequence)], ?_,
      h.unlocked, fun i => ?_⟩
    · simp only [Capture.call, hirq, bind, Except.bind, pure, Except.pure]
    by_cases hi : i = irqIdx rxCtrlReg
    · subst hi
      simp
    · simp [setSlot_ne _ _ hi]

theorem Tidy.irq [NeZero n] (h : Tidy c) (rxCtrlReg : U32) :
    ∃ c', c.call (.irq rxCtrlReg) = .ok c' ∧ Tidy c' := by
  obtain ⟨dev, ds, hc, hl, same⟩ := h.irq_call rxCtrlReg
  refine ⟨_, hc, h.toAccounts.irq hc, hl, ?_, ?_, ?_, ?_⟩ <;> simp only [Capture.giveBack, same]
  · exact h.occupied
  · exact h.distinct
  · exact h.packed
  · exact h.cleared

theorem Tidy.stop [NeZero n] (h : Tidy c)
    (hclean : ∀ i, (c.dev.vectBufs i).buf ≠ none → (c.dev.vectBufs i).registered = true) :
    ∃ c', c.call .stop = .ok c' ∧ Tidy c' := by
  obtain ⟨dev', ds, hc, hS⟩ := call_stop h.unlocked
  have empty : ∀ i, (dev'.vectBufs i).buf = none := by
    intro i
    rcases hS.kept i with he | he
    · rw [he]
      rfl
    · by_contra hb
      rw [he] at hb
      obtain ⟨b, hb⟩ := h.clears h.unlocked (hclean i hb)
      have := hS.cleared i (List.mem_finRange i) b hb
      rw [← he, this] at hb
      cases hb.1
  refine ⟨_, hc, (h.toAccounts.stop hc).1, hS.unlocked, ?_, ?_, ?_, fun _ => empty⟩
  · intro i b hb
    simp [Capture.giveBack, empty] at hb
  · intro i j b hb
    simp [Capture.giveBack, empty] at hb
  · intro i j _ hj
    simp [Capture.giveBack, empty] at hj

/-- Every call that videobuf2 may make comes back and, if it is not a `stop_streaming` over a stale slot, keeps the
slots tidy. -/
theorem Tidy.call [NeZero n] (h : Tidy c) {e : Call} (ha : c.Allowed e) (hclean : StopsClean c e) :
    ∃ c', c.call e = .ok c' ∧ Tidy c' := by
  cases e with
  | alloc addr =>
    have hs : c.step (.alloc addr) = some { c with live := (c.next, addr) :: c.live, next := c.next + 1 } := by
      simp [Capture.step, ha, Capture.call, Except.toOption]
    refine ⟨_, rfl, h.toAccounts.step hs, h.unlocked, ?_, h.distinct, h.packed, h.cleared⟩
    intro i b hb
    exact List.mem_cons_of_mem _ (h.occupied i b hb)
  | free vbuf =>
    have hs : c.step (.free vbuf) = some { c with live := c.live.filter fun b => b.1 ≠ vbuf } := by
      simp [Capture.step, ha, Capture.call, Except.toOption]
    refine ⟨_, rfl, h.toAccounts.step hs, h.unlocked, ?_, h.distinct, h.packed, h.cleared⟩
    intro i b hb
    simp [h.cleared ha i] at hb
  | queue vbuf addr => exact h.queue ha
  | irq rxCtrlReg => exact h.irq rxCtrlReg
  | stop => exact h.stop (hclean rfl)

/-- Every call comes back with the lock released, also a `stop_streaming` over a stale slot. -/
theorem Tidy.comesBack [NeZero n] (h : Tidy c) {e : Call} (ha : c.Allowed e) :
    ∃ c', c.call e = .ok c' ∧ c'.dev.queuedLock = false := by
  by_cases hstop : e = .stop
  · subst hstop
    obtain ⟨dev', ds, hc, hS⟩ := call_stop h.unlocked
    exact ⟨_, hc, hS.unlocked⟩
  · obtain ⟨c', hc, hT⟩ := h.call ha fun he => absurd he hstop
    exact ⟨c', hc, hT.unlocked⟩

theorem Tidy.sound [NeZero n] (h : Tidy c) : SlotsSound c where
  distinct i j hi hj he := by
    obtain ⟨b, hb⟩ := Option.ne_none_iff_exists'.1 hi
    obtain ⟨b', hb'⟩ := Option.ne_none_iff_exists'.1 hj
    have hbb : b = b' := congrArg Prod.fst (h.live.addr_inj _ (h.occupied i b hb) _ (h.occupied j b' hb') he)
    exact h.distinct i j b hb (hbb ▸ hb')
  finds _ _ ha := h.finds ha
  comesBack _ ha := h.comesBack ha

/-- The slots stay sound over any number of sessions as long as `stop_streaming` never finds a slot that is occupied
but not registered. -/
theorem slots_sound_of_stops_clean [NeZero n] (es : List Call) (c : Capture n)
    (h : Lts.exec Capture.step (Capture.probed n) es = some c)
    (hclean : Lts.StepsMeet Capture.step StopsClean (Capture.probed n) es) : SlotsSound c := by
  have keep : ∀ (c : Capture n) e c', Tidy c → StopsClean c e → c.step e = some c' → Tidy c' := by
    intro c e c' hT he hs
    obtain ⟨ha, hc⟩ := step_cases hs
    obtain ⟨c'', hc'', hT'⟩ := hT.call ha he
    rw [hc] at hc''
    cases hc''
    exact hT'
  exact (Lts.exec_invariant keep (tidy_probed n) hclean h).sound

/-- A session in which all buffers are back with the driver when it stops, and the start of a second one. -/
def cleanSession : List Call :=
  [.alloc 0x1000, .alloc 0x2000, .queue 0 0x1000, .queue 1 0x2000, .irq 0x01000000, .queue 0 0x1000, .stop,
    .queue 1 0x2000]

theorem slots_sound_of_stops_clean_session :
    ∃ c, Lts.exec Capture.step (Capture.probed 3) cleanSession = some c ∧ SlotsSound c := by
  obtain ⟨c, hc⟩ := Option.isSome_iff_exists.1
    (show (Lts.exec Capture.step (Capture.probed 3) cleanSession).isSome = true by decide)
  exact ⟨c, hc, slots_sound_of_stops_clean cleanSession c hc (by decide)⟩

/-- A session that stops while user space holds the first buffer, after which all buffers are replaced: the slot of
the first buffer survives, so the third new buffer finds no slot. -/
def staleSession : List Call :=
  [.alloc 0x1000, .alloc 0x2000, .alloc 0x3000, .queue 0 0x1000, .queue 1 0x2000, .queue 2 0x3000, .irq 0x01000000,
    .stop, .free 0, .free 1, .free 2, .alloc 0x4000, .alloc 0x5000, .alloc 0x6000, .queue 3 0x4000, .queue 4 0x5000]

theorem stale_slot_not_sound :
    ¬ ∀ (es : List Call) (c : Capture 3), Lts.exec Capture.step (Capture.probed 3) es = some c → SlotsSound c := by
  intro h
  obtain ⟨c, hc, ha, hf⟩ : ∃ c, Lts.exec Capture.step (Capture.probed 3) staleSession = some c ∧
      c.Allowed (.queue 5 0x6000) ∧ findSlot c.dev 0x6000 = none :=
    Lts.exists_exec (by decide)
  exact (h staleSession c hc).finds 5 0x6000 ha hf

end RcCarControl.Driver
