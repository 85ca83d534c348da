import RcCarControl.Fpga.Bt656Bytes
import Mathlib.Data.List.Basic

/-!
# The bytes of the video with embedded headers

`pure_bt656` is 1: the headers in the data say where lines and fields are.  A header is complete in the four registers
of the input four clocks after its first byte, its flags are registered in the clock after that, and the state follows
one clock later, while the byte that is written is that of the clock before (`trace_state_pure`).  So a line reaches the
FIFO without its first active byte and with the header that ends it and one byte more, and a line whose own SAV carries
the field transition does not reach it at all (`written_iff`): the bytes written are the active ones only where no line is
to be captured (`exact_iff`).
-/

namespace RcCarControl.Fpga

/-! ### Lines with headers -/

/-- A line: EAV, blanking, SAV and active bytes, with the last bytes of the two headers. -/
structure Bt656Line where
  eav : BitVec 8
  blanking : List (BitVec 8)
  sav : BitVec 8
  active : List (BitVec 8)
  isEav : eav.getLsbD 7 = true ∧ eav.getLsbD 4 = true
  isSav : sav.getLsbD 7 = true ∧ sav.getLsbD 4 = false
  active_ne : active ≠ []

namespace Bt656Line

def bytes (l : Bt656Line) : List (BitVec 8) :=
  [0xFF, 0x00, 0x00, l.eav] ++ l.blanking ++ [0xFF, 0x00, 0x00, l.sav] ++ l.active

/-- The line is not in the vertical blanking. -/
def isVideo (l : Bt656Line) : Bool := !l.sav.getLsbD 5

end Bt656Line

variable (lines : Nat → Bt656Line)

/-- The clock of the first byte of a line. -/
def eavPos : Nat → Nat
  | 0 => 0
  | i + 1 => eavPos i + (lines i).bytes.length

/-- The clock of the first byte of the SAV of a line. -/
def savPos (i : Nat) : Nat := eavPos lines i + 4 + (lines i).blanking.length

/-- The data are the lines, one after the other, and `FF 00 00` is in them only where a header begins. -/
structure Streams (xs : Nat → VideoIn) : Prop where
  bytes : ∀ i j b, (lines i).bytes[j]? = some b → (xs (eavPos lines i + j)).data = b
  headers : ∀ k, (xs k).data = 0xFF → (xs (k + 1)).data = 0x00 → (xs (k + 2)).data = 0x00 →
    ∃ i, k = eavPos lines i ∨ k = savPos lines i

/-- The field goes from 1 to 0 in the EAV of line `j`. -/
def FallsAtEav (j : Nat) : Prop := 0 < j ∧ (lines (j - 1)).sav.getLsbD 6 = true ∧ (lines j).eav.getLsbD 6 = false

/-- The field goes from 1 to 0 in the SAV of line `j`. -/
def FallsAtSav (j : Nat) : Prop := (lines j).eav.getLsbD 6 = true ∧ (lines j).sav.getLsbD 6 = false

/-- The field goes from 1 to 0 in a header up to the SAV of line `i`, so its active bytes are after the transition. -/
def Captured (i : Nat) : Prop := ∃ j ≤ i, FallsAtEav lines j ∨ FallsAtSav lines j

/-- The field goes from 1 to 0 in a header before the SAV of line `i`, in time for the state to see that SAV. -/
def InTime (i : Nat) : Prop := ∃ j ≤ i, FallsAtEav lines j ∨ j < i ∧ FallsAtSav lines j

/-- The byte sampled in clock `k` is an active byte of a captured line with V = 0. -/
def IsActive (k : Nat) : Prop :=
  ∃ i, Captured lines i ∧ (lines i).isVideo = true ∧ savPos lines i + 4 ≤ k ∧ k < eavPos lines (i + 1)

/-! ### Headers in the input registers -/

/-- A header begins in clock `k`. -/
def isHdr (xs : Nat → VideoIn) (k : Nat) : Bool :=
  (xs k).data == 0xFF && (xs (k + 1)).data == 0x00 && (xs (k + 2)).data == 0x00 && (xs (k + 3)).data.getLsbD 7

/-- The field bit of the last header that began before clock `k`. -/
def fieldBefore (xs : Nat → VideoIn) : Nat → Bool
  | 0 => false
  | k + 1 => if isHdr xs k then (xs (k + 3)).data.getLsbD 6 else fieldBefore xs k

/-- What the header that begins in a clock makes of the state. -/
def headerState (xs : Nat → VideoIn) : Nat → Bt656State
  | 0 => .idle
  | k + 1 =>
    match headerState xs k with
    | .idle => if fieldBefore xs k && !fieldBefore xs (k + 1) then .sav else .idle
    | .sav =>
      if isHdr xs k && !(xs (k + 3)).data.getLsbD 4 then
        if (xs (k + 3)).data.getLsbD 5 then .blanking else .vdata
      else .sav
    | .vdata => if isHdr xs k && (xs (k + 3)).data.getLsbD 4 then .blanking else .vdata
    | .blanking =>
      if isHdr xs k && !(xs (k + 3)).data.getLsbD 4 && !(xs (k + 3)).data.getLsbD 5 then .vdata else .blanking

/-- The field has gone from 1 to 0 in a header that began before clock `k`. -/
def Fallen (xs : Nat → VideoIn) (k : Nat) : Prop := ∃ j < k, fieldBefore xs j = true ∧ fieldBefore xs (j + 1) = false

namespace Bt656

variable {cfg : Bt656Cfg} {xs : Nat → VideoIn} {k : Nat}

/-- No frame counter is put into the data. -/
theorem trace_embFrameWaiting_pure (hp : cfg.pureBt656 = true) (xs : Nat → VideoIn) (k : Nat) :
    (trace cfg xs k).embFrameWaiting = false := by
  induction k with
  | zero => rfl
  | succ k ih => simp [trace, clock, hp, ih]

theorem trace_inData0_pure (hp : cfg.pureBt656 = true) (xs : Nat → VideoIn) (k : Nat) :
    (trace cfg xs (k + 1)).inData0 = (xs k).data := by
  have hlsb : (trace cfg xs k).embFrameLsb cfg (xs k) = false := by
    simp [embFrameLsb, trace_embFrameWaiting_pure hp xs k]
  have hmsb : (trace cfg xs k).embFrameMsb cfg (xs k) = false := by
    simp [embFrameMsb, trace_embFrameWaiting_pure hp xs k]
  rw [trace_succ, clock_inData0, hlsb, hmsb]
  rfl

/-- A header is seen four clocks after its first byte. -/
theorem trace_hdrDet (hp : cfg.pureBt656 = true) (xs : Nat → VideoIn) (k : Nat) :
    (trace cfg xs (k + 4)).hdrDet cfg = isHdr xs k := by
  have h0 : (trace cfg xs (k + 4)).inData0 = (xs (k + 3)).data := trace_inData0_pure hp xs (k + 3)
  have h1 : (trace cfg xs (k + 4)).inData1 = (xs (k + 2)).data := trace_inData0_pure hp xs (k + 2)
  have h2 : (trace cfg xs (k + 4)).inData2 = (xs (k + 1)).data := trace_inData0_pure hp xs (k + 1)
  have h3 : (trace cfg xs (k + 4)).inData3 = (xs k).data := trace_inData0_pure hp xs k
  unfold hdrDet isHdr
  rw [h0, h1, h2, h3, hp, Bool.true_and]

/-- The registers of the input are empty at first. -/
theorem trace_hdrDet_early (cfg : Bt656Cfg) (xs : Nat → VideoIn) (hk : k < 4) : (trace cfg xs k).hdrDet cfg = false := by
  have h3 : (trace cfg xs k).inData3 = 0 := by
    match k, hk with
    | 0, _ => rfl
    | 1, _ => rfl
    | 2, _ => rfl
    | 3, _ => rfl
  unfold hdrDet
  rw [h3]
  simp

theorem clock_inVsyncField_pure (hp : cfg.pureBt656 = true) (s : Bt656) (x : VideoIn) :
    (s.clock cfg x).inVsyncField = if s.hdrDet cfg then s.inData0.getLsbD 6 else s.inVsyncField := by
  simp [clock, hp]

theorem trace_inVsyncField_early (hp : cfg.pureBt656 = true) (xs : Nat → VideoIn) (hk : k ≤ 4) :
    (trace cfg xs k).inVsyncField = false := by
  induction k with
  | zero => rfl
  | succ k ih =>
    rw [trace_succ, clock_inVsyncField_pure hp, trace_hdrDet_early cfg xs hk]
    exact ih (Nat.le_of_succ_le hk)

/-- The field of the last header, in the clock after it was seen. -/
theorem trace_inVsyncField_pure (hp : cfg.pureBt656 = true) (xs : Nat → VideoIn) (k : Nat) :
    (trace cfg xs (k + 4)).inVsyncField = fieldBefore xs k := by
  induction k with
  | zero => exact trace_inVsyncField_early hp xs (Nat.le_refl 4)
  | succ k ih =>
    have h0 : (trace cfg xs (k + 4)).inData0 = (xs (k + 3)).data := trace_inData0_pure hp xs (k + 3)
    change ((trace cfg xs (k + 4)).clock cfg (xs (k + 4))).inVsyncField = _
    rw [clock_inVsyncField_pure hp, trace_hdrDet hp, h0, ih]
    rfl

theorem trace_inVsyncFieldD_pure (hp : cfg.pureBt656 = true) (xs : Nat → VideoIn) (k : Nat) :
    (trace cfg xs (k + 5)).inVsyncFieldD = fieldBefore xs k := trace_inVsyncField_pure hp xs k

/-- A field transition that starts the capture. -/
theorem trace_inNewFrame_pure (hp : cfg.pureBt656 = true) (xs : Nat → VideoIn) (k : Nat) :
    (trace cfg xs (k + 5)).inNewFrame cfg = (fieldBefore xs k && !fieldBefore xs (k + 1)) := by
  unfold inNewFrame
  rw [trace_inVsyncFieldD_pure hp, trace_inVsyncField_pure hp xs (k + 1), hp]
  simp

theorem trace_inNewFrame_pure_early (hp : cfg.pureBt656 = true) (xs : Nat → VideoIn) (hk : k < 5) :
    (trace cfg xs k).inNewFrame cfg = false := by
  have hprev : (trace cfg xs k).inVsyncFieldD = false := by
    match k, hk with
    | 0, _ => rfl
    | j + 1, hk => exact trace_inVsyncField_early hp xs (Nat.le_of_lt_succ (Nat.lt_of_succ_lt hk))
  unfold inNewFrame
  rw [hprev, hp]
  simp

/-- The flags of the header that began five clocks before. -/
theorem trace_flags_pure (hp : cfg.pureBt656 = true) (xs : Nat → VideoIn) (k : Nat) :
    (trace cfg xs (k + 5)).savDetD = (isHdr xs k && !(xs (k + 3)).data.getLsbD 4) ∧
      (trace cfg xs (k + 5)).eavDetD = (isHdr xs k && (xs (k + 3)).data.getLsbD 4) ∧
      (isHdr xs k = true → (trace cfg xs (k + 5)).inVblank = (xs (k + 3)).data.getLsbD 5) := by
  have h0 : (trace cfg xs (k + 4)).inData0 = (xs (k + 3)).data := trace_inData0_pure hp xs (k + 3)
  have hdet := trace_hdrDet hp xs k
  have hclock : trace cfg xs (k + 5) = (trace cfg xs (k + 4)).clock cfg (xs (k + 4)) := rfl
  rw [hclock]
  refine ⟨?_, ?_, fun hhdr => ?_⟩
  · simp [clock, hp, savDet, hdet, h0]
  · simp [clock, hp, eavDet, hdet, h0]
  · simp [clock, hp, hdet, h0, hhdr]

theorem trace_state_early (hp : cfg.pureBt656 = true) (xs : Nat → VideoIn) (hk : k ≤ 5) :
    (trace cfg xs k).state = .idle := by
  induction k with
  | zero => rfl
  | succ k ih =>
    have hidle := ih (Nat.le_of_succ_le hk)
    rw [trace_succ]
    simp [clock, fsm, hidle, trace_inNewFrame_pure_early hp xs hk]

/-- The state follows the headers by five clocks. -/
theorem trace_state_pure (hp : cfg.pureBt656 = true) (xs : Nat → VideoIn) (k : Nat) :
    (trace cfg xs (k + 5)).state = headerState xs k := by
  induction k with
  | zero => exact trace_state_early hp xs (Nat.le_refl 5)
  | succ k ih =>
    obtain ⟨hsav, heav, hblank⟩ := trace_flags_pure hp xs k
    have hnew := trace_inNewFrame_pure hp xs k
    change ((trace cfg xs (k + 5)).fsm cfg (xs (k + 5))).nstate = headerState xs (k + 1)
    unfold fsm headerState
    rw [ih, hsav, heav, hnew, hp]
    cases headerState xs k with
    | idle => cases fieldBefore xs k && !fieldBefore xs (k + 1) <;> rfl
    | sav =>
      cases hhdr : isHdr xs k with
      | false => rfl
      | true =>
        rw [hblank hhdr]
        cases (xs (k + 3)).data.getLsbD 4 <;> cases (xs (k + 3)).data.getLsbD 5 <;> rfl
    | vdata => cases isHdr xs k && (xs (k + 3)).data.getLsbD 4 <;> rfl
    | blanking =>
      cases hhdr : isHdr xs k with
      | false => rfl
      | true =>
        rw [hblank hhdr]
        cases (xs (k + 3)).data.getLsbD 4 <;> cases (xs (k + 3)).data.getLsbD 5 <;> rfl

/-- The byte that is sampled in a clock is written in the next, if it is. -/
theorem fifoByte_pure (hp : cfg.pureBt656 = true) (hfull : ∀ k, (xs k).dataFifoFull = false) (k : Nat) :
    (trace cfg xs (k + 1)).fifoByte (xs (k + 1)) =
      if (trace cfg xs (k + 1)).state = .vdata then some (xs k).data else none := by
  simp [fifoByte, dataFifoWrite, hfull, trace_inData0_pure hp xs k]

end Bt656

/-! ### The headers of the lines -/

variable {lines} {xs : Nat → VideoIn}

theorem eavPos_succ (lines : Nat → Bt656Line) (i : Nat) : savPos lines i + 4 < eavPos lines (i + 1) := by
  have hpos : 0 < (lines i).active.length := List.length_pos_of_ne_nil (lines i).active_ne
  have hlen : (lines i).bytes.length = 4 + (lines i).blanking.length + 4 + (lines i).active.length := by
    simp [Bt656Line.bytes]
    omega
  rw [eavPos, hlen]
  unfold savPos
  omega

theorem eavPos_mono {i j : Nat} (h : i ≤ j) : eavPos lines i ≤ eavPos lines j := by
  induction h with
  | refl => exact Nat.le_refl _
  | step _ ih => exact ih.trans (Nat.le_add_right _ _)

theorem eavPos_lt_savPos (lines : Nat → Bt656Line) (i : Nat) : eavPos lines i < savPos lines i := by
  unfold savPos
  omega

theorem eavPos_le_of_lt (lines : Nat → Bt656Line) {i j : Nat} (h : i < j) : savPos lines i + 4 < eavPos lines j :=
  (eavPos_succ lines i).trans_le (eavPos_mono h)

theorem lt_of_eavPos_lt (lines : Nat → Bt656Line) {i j : Nat} (h : eavPos lines i < eavPos lines j) : i < j := by
  by_contra hge
  have hle : eavPos lines j ≤ eavPos lines i := eavPos_mono (Nat.le_of_not_lt hge)
  omega

theorem lt_of_savPos_lt (lines : Nat → Bt656Line) {i j : Nat} (h : savPos lines i < savPos lines j) : i < j := by
  by_contra hge
  rcases Nat.eq_or_lt_of_le (Nat.le_of_not_lt hge) with rfl | hlt
  · exact Nat.lt_irrefl _ h
  · have hle := eavPos_le_of_lt lines hlt
    have hself := eavPos_lt_savPos lines i
    omega

/-- The SAV of a line that is over by the next EAV is the one of that line. -/
theorem line_eq {i j k : Nat} (hi : savPos lines i < k) (hi' : k ≤ eavPos lines (i + 1)) (hj : savPos lines j < k)
    (hj' : k ≤ eavPos lines (j + 1)) : i = j := by
  rcases Nat.lt_trichotomy i j with hlt | heq | hlt
  · have hle : eavPos lines (i + 1) ≤ eavPos lines j := eavPos_mono hlt
    have hsav : eavPos lines j < savPos lines j := eavPos_lt_savPos lines j
    omega
  · exact heq
  · have hle : eavPos lines (j + 1) ≤ eavPos lines i := eavPos_mono hlt
    have hsav : eavPos lines i < savPos lines i := eavPos_lt_savPos lines i
    omega

namespace Streams

theorem at_eav (h : Streams lines xs) (i : Nat) : (xs (eavPos lines i)).data = 0xFF ∧ (xs (eavPos lines i + 1)).data = 0x00 ∧
    (xs (eavPos lines i + 2)).data = 0x00 ∧ (xs (eavPos lines i + 3)).data = (lines i).eav :=
  ⟨h.bytes i 0 _ rfl, h.bytes i 1 _ rfl, h.bytes i 2 _ rfl, h.bytes i 3 _ rfl⟩

theorem at_sav (h : Streams lines xs) (i : Nat) : (xs (savPos lines i)).data = 0xFF ∧ (xs (savPos lines i + 1)).data = 0x00 ∧
    (xs (savPos lines i + 2)).data = 0x00 ∧ (xs (savPos lines i + 3)).data = (lines i).sav := by
  have hbyte (j : Nat) (b : BitVec 8) (hb : ([0xFF, 0x00, 0x00, (lines i).sav] : List (BitVec 8))[j]? = some b) :
      (xs (savPos lines i + j)).data = b := by
    have hget : (lines i).bytes[4 + (lines i).blanking.length + j]? = some b := by
      have hj : j < 4 := (List.getElem?_eq_some_iff.1 hb).1
      unfold Bt656Line.bytes
      rw [List.getElem?_append_left (by simp; omega), List.getElem?_append_right (by simp; omega), ← hb]
      congr 1
      simp
      omega
    have hpos : savPos lines i + j = eavPos lines i + (4 + (lines i).blanking.length + j) := by
      unfold savPos
      omega
    rw [hpos]
    exact h.bytes i _ b hget
  exact ⟨hbyte 0 _ rfl, hbyte 1 _ rfl, hbyte 2 _ rfl, hbyte 3 _ rfl⟩

theorem isHdr_iff (h : Streams lines xs) (k : Nat) : isHdr xs k = true ↔ ∃ i, k = eavPos lines i ∨ k = savPos lines i := by
  unfold isHdr
  constructor
  · intro hk
    simp only [Bool.and_eq_true, beq_iff_eq] at hk
    exact h.headers k hk.1.1.1 hk.1.1.2 hk.1.2
  · rintro ⟨i, rfl | rfl⟩
    · obtain ⟨h0, h1, h2, h3⟩ := h.at_eav i
      rw [h0, h1, h2, h3, (lines i).isEav.1]
      rfl
    · obtain ⟨h0, h1, h2, h3⟩ := h.at_sav i
      rw [h0, h1, h2, h3, (lines i).isSav.1]
      rfl

/-- Every clock begins an EAV, begins a SAV or begins no header. -/
theorem cases_hdr (h : Streams lines xs) (k : Nat) :
    isHdr xs k = false ∨ (∃ i, k = eavPos lines i) ∨ ∃ i, k = savPos lines i := by
  cases hk : isHdr xs k with
  | false => exact Or.inl rfl
  | true =>
    obtain ⟨i, hi | hi⟩ := (h.isHdr_iff k).1 hk
    · exact Or.inr (Or.inl ⟨i, hi⟩)
    · exact Or.inr (Or.inr ⟨i, hi⟩)

theorem isHdr_eav (h : Streams lines xs) (i : Nat) : isHdr xs (eavPos lines i) = true :=
  (h.isHdr_iff _).2 ⟨i, Or.inl rfl⟩

theorem isHdr_sav (h : Streams lines xs) (i : Nat) : isHdr xs (savPos lines i) = true :=
  (h.isHdr_iff _).2 ⟨i, Or.inr rfl⟩

/-! ### The start of the capture -/

/-- The field bit after the two headers of a line. -/
theorem fieldBefore_succ (h : Streams lines xs) (i : Nat) :
    fieldBefore xs (eavPos lines i + 1) = (lines i).eav.getLsbD 6 ∧
      fieldBefore xs (savPos lines i + 1) = (lines i).sav.getLsbD 6 := by
  obtain ⟨-, -, -, heav⟩ := h.at_eav i
  obtain ⟨-, -, -, hsav⟩ := h.at_sav i
  constructor
  · rw [fieldBefore, h.isHdr_eav i, heav]
    rfl
  · rw [fieldBefore, h.isHdr_sav i, hsav]
    rfl

/-- Where no header begins the field bit stays. -/
theorem fieldBefore_eq {a b : Nat} (h : ∀ j, a ≤ j → j < b → isHdr xs j = false) (hab : a ≤ b) :
    fieldBefore xs b = fieldBefore xs a := by
  induction b, hab using Nat.le_induction with
  | base => rfl
  | succ b hab ih =>
    rw [fieldBefore, h b hab (Nat.lt_succ_self b)]
    exact ih fun j hj hjb => h j hj (Nat.lt_succ_of_lt hjb)

/-- No header begins inside the blanking of a line, and none inside its active bytes. -/
theorem not_hdr_between (h : Streams lines xs) (i : Nat) {j : Nat}
    (hj : eavPos lines i < j ∧ j < savPos lines i ∨ savPos lines i < j ∧ j < eavPos lines (i + 1)) :
    isHdr xs j = false := by
  have hnext := eavPos_succ lines i
  have hself := eavPos_lt_savPos lines i
  rcases h.cases_hdr j with hno | ⟨i', rfl⟩ | ⟨i', rfl⟩
  · exact hno
  · have hlow : i < i' := lt_of_eavPos_lt lines (by omega)
    have hhigh : i' < i + 1 := lt_of_eavPos_lt lines (by omega)
    omega
  · have hself' := eavPos_lt_savPos lines i'
    rcases hj with ⟨hlow, hhigh⟩ | ⟨hlow, hhigh⟩
    · have hle := eavPos_le_of_lt lines (lt_of_savPos_lt lines hhigh)
      omega
    · have hle : eavPos lines (i + 1) ≤ eavPos lines i' := eavPos_mono (lt_of_savPos_lt lines hlow)
      omega

/-- The field bit before the two headers of a line. -/
theorem fieldBefore_savPos (h : Streams lines xs) (i : Nat) :
    fieldBefore xs (savPos lines i) = (lines i).eav.getLsbD 6 := by
  have hlt := eavPos_lt_savPos lines i
  rw [← (h.fieldBefore_succ i).1]
  exact fieldBefore_eq (fun j hj hj' => h.not_hdr_between i (Or.inl ⟨by omega, hj'⟩)) hlt

theorem fieldBefore_eavPos_succ (h : Streams lines xs) (i : Nat) :
    fieldBefore xs (eavPos lines (i + 1)) = (lines i).sav.getLsbD 6 := by
  have hlt := eavPos_succ lines i
  rw [← (h.fieldBefore_succ i).2]
  exact fieldBefore_eq (fun j hj hj' => h.not_hdr_between i (Or.inr ⟨by omega, hj'⟩)) (by omega)

theorem inTime_iff (h : Streams lines xs) (i : Nat) : InTime lines i ↔ Fallen xs (savPos lines i) := by
  constructor
  · rintro ⟨j, hj, ⟨hpos, hhigh, hlow⟩ | ⟨hlt, hhigh, hlow⟩⟩
    · obtain ⟨j, rfl⟩ : ∃ l, j = l + 1 := ⟨j - 1, by omega⟩
      have hle : eavPos lines (j + 1) ≤ eavPos lines i := eavPos_mono hj
      have hlt := eavPos_lt_savPos lines i
      exact ⟨eavPos lines (j + 1), by omega, (h.fieldBefore_eavPos_succ j).trans hhigh,
        (h.fieldBefore_succ (j + 1)).1.trans hlow⟩
    · have hle := eavPos_le_of_lt lines hlt
      have hself := eavPos_lt_savPos lines i
      exact ⟨savPos lines j, by omega, (h.fieldBefore_savPos j).trans hhigh, (h.fieldBefore_succ j).2.trans hlow⟩
  · rintro ⟨k, hk, hhigh, hlow⟩
    have hself := eavPos_lt_savPos lines i
    rcases h.cases_hdr k with hno | ⟨j, rfl⟩ | ⟨j, rfl⟩
    · rw [fieldBefore, hno, hhigh] at hlow
      cases hlow
    · obtain _ | j := j
      · cases hhigh
      · refine ⟨j + 1, ?_, Or.inl ⟨Nat.succ_pos j, ?_, ?_⟩⟩
        · by_contra hlt
          have hle := eavPos_le_of_lt lines (Nat.lt_of_not_le hlt)
          omega
        · exact (h.fieldBefore_eavPos_succ j).symm.trans hhigh
        · exact (h.fieldBefore_succ (j + 1)).1.symm.trans hlow
    · have hlt : j < i := lt_of_savPos_lt lines hk
      exact ⟨j, hlt.le, Or.inr ⟨hlt, (h.fieldBefore_savPos j).symm.trans hhigh,
        (h.fieldBefore_succ j).2.symm.trans hlow⟩⟩

end Streams

/-! ### The state over the lines -/

/-- The state leaves idle with the first transition. -/
theorem headerState_ne_idle_iff (xs : Nat → VideoIn) (k : Nat) : headerState xs k ≠ .idle ↔ Fallen xs k := by
  induction k with
  | zero =>
    constructor
    · intro hne
      exact absurd rfl hne
    · rintro ⟨j, hj, -⟩
      exact absurd hj (Nat.not_lt_zero j)
  | succ k ih =>
    have hstep : Fallen xs (k + 1) ↔ Fallen xs k ∨ fieldBefore xs k = true ∧ fieldBefore xs (k + 1) = false := by
      constructor
      · rintro ⟨j, hj, hfall⟩
        rcases Nat.lt_succ_iff_lt_or_eq.1 hj with hlt | rfl
        · exact Or.inl ⟨j, hlt, hfall⟩
        · exact Or.inr hfall
      · rintro (⟨j, hj, hfall⟩ | hfall)
        · exact ⟨j, Nat.lt_succ_of_lt hj, hfall⟩
        · exact ⟨k, Nat.lt_succ_self k, hfall⟩
    rw [hstep, ← ih, headerState]
    cases headerState xs k with
    | idle => cases fieldBefore xs k <;> cases fieldBefore xs (k + 1) <;> simp
    | sav =>
      simp only
      split_ifs <;> simp
    | vdata =>
      simp only
      split_ifs <;> simp
    | blanking =>
      simp only
      split_ifs <;> simp

/-- Without a header the data state neither begins nor ends. -/
theorem headerState_no_hdr {k : Nat} (hno : isHdr xs k = false) :
    headerState xs (k + 1) = .vdata ↔ headerState xs k = .vdata := by
  have hsame : fieldBefore xs (k + 1) = fieldBefore xs k := by rw [fieldBefore, hno]; rfl
  rw [headerState, hno, hsame]
  cases headerState xs k with
  | idle => cases fieldBefore xs k <;> simp
  | sav => simp
  | vdata => simp
  | blanking => simp

/-- An EAV ends it. -/
theorem headerState_eav {k : Nat} (hhdr : isHdr xs k = true) (heav : (xs (k + 3)).data.getLsbD 4 = true) :
    headerState xs (k + 1) ≠ .vdata := by
  rw [headerState, hhdr, heav]
  cases headerState xs k with
  | idle =>
    simp only
    split_ifs <;> simp
  | sav => simp
  | vdata => simp
  | blanking => simp

/-- A SAV begins it if the line is not in the vertical blanking and the capture has started. -/
theorem headerState_sav {k : Nat} (hhdr : isHdr xs k = true) (hsav : (xs (k + 3)).data.getLsbD 4 = false)
    (hout : headerState xs k ≠ .vdata) :
    headerState xs (k + 1) = .vdata ↔ headerState xs k ≠ .idle ∧ (!(xs (k + 3)).data.getLsbD 5) = true := by
  rw [headerState, hhdr, hsav]
  cases hst : headerState xs k with
  | idle =>
    simp only
    split_ifs <;> simp
  | sav => cases (xs (k + 3)).data.getLsbD 5 <;> simp
  | vdata => exact absurd hst hout
  | blanking => cases (xs (k + 3)).data.getLsbD 5 <;> simp

/-- After the first byte of the SAV and up to the first byte of the next EAV of a line outside the vertical
blanking that the state sees. -/
def InData (lines : Nat → Bt656Line) (k : Nat) : Prop :=
  ∃ i, InTime lines i ∧ (lines i).isVideo = true ∧ savPos lines i < k ∧ k ≤ eavPos lines (i + 1)

theorem not_inData_zero : ¬ InData lines 0 := by
  rintro ⟨i, -, -, hk, -⟩
  exact absurd hk (Nat.not_lt_zero _)

theorem Streams.inData_no_hdr (h : Streams lines xs) {k : Nat} (hno : isHdr xs k = false) :
    InData lines (k + 1) ↔ InData lines k := by
  constructor
  · rintro ⟨i, htime, hvideo, hk, hk'⟩
    refine ⟨i, htime, hvideo, ?_, Nat.le_of_succ_le hk'⟩
    rcases Nat.lt_succ_iff_lt_or_eq.1 hk with hlt | rfl
    · exact hlt
    · rw [h.isHdr_sav] at hno
      cases hno
  · rintro ⟨i, htime, hvideo, hk, hk'⟩
    refine ⟨i, htime, hvideo, Nat.lt_succ_of_lt hk, ?_⟩
    rcases Nat.eq_or_lt_of_le hk' with rfl | hlt
    · rw [h.isHdr_eav] at hno
      cases hno
    · exact hlt

/-- An EAV is the end of the line before it. -/
theorem not_inData_eav (j : Nat) : ¬ InData lines (eavPos lines j + 1) := by
  rintro ⟨i, -, -, hk, hk'⟩
  have hself := eavPos_lt_savPos lines i
  have hlt : i < j := lt_of_eavPos_lt lines (by omega)
  have hle : eavPos lines (i + 1) ≤ eavPos lines j := eavPos_mono hlt
  omega

theorem not_inData_sav (j : Nat) : ¬ InData lines (savPos lines j) := by
  rintro ⟨i, -, -, hk, hk'⟩
  have hself := eavPos_lt_savPos lines j
  have hle : eavPos lines (i + 1) ≤ eavPos lines j := eavPos_mono (lt_of_savPos_lt lines hk)
  omega

theorem inData_sav (j : Nat) : InData lines (savPos lines j + 1) ↔ InTime lines j ∧ (lines j).isVideo = true := by
  have hnext := eavPos_succ lines j
  constructor
  · rintro ⟨i, htime, hvideo, hk, hk'⟩
    obtain rfl : i = j := line_eq hk hk' (Nat.lt_succ_self _) (by omega)
    exact ⟨htime, hvideo⟩
  · rintro ⟨htime, hvideo⟩
    exact ⟨j, htime, hvideo, Nat.lt_succ_self _, by omega⟩

/-- The data state is that of the lines outside the vertical blanking that the state sees. -/
theorem Streams.headerState_iff (h : Streams lines xs) (k : Nat) : headerState xs k = .vdata ↔ InData lines k := by
  induction k with
  | zero => exact iff_of_false nofun not_inData_zero
  | succ k ih =>
    rcases h.cases_hdr k with hno | ⟨j, rfl⟩ | ⟨j, rfl⟩
    · rw [headerState_no_hdr hno, ih, h.inData_no_hdr hno]
    · obtain ⟨-, -, -, heav⟩ := h.at_eav j
      exact iff_of_false (headerState_eav (h.isHdr_eav j) (heav ▸ (lines j).isEav.2)) (not_inData_eav j)
    · obtain ⟨-, -, -, hsav⟩ := h.at_sav j
      have hout : headerState xs (savPos lines j) ≠ .vdata := fun hv => not_inData_sav j (ih.1 hv)
      rw [headerState_sav (h.isHdr_sav j) (hsav ▸ (lines j).isSav.2) hout, headerState_ne_idle_iff, ← h.inTime_iff,
        hsav, inData_sav]
      rfl

/-! ### The bytes that are written -/

/-- The byte sampled in clock `k` goes into the data FIFO. -/
def WritesByte (cfg : Bt656Cfg) (xs : Nat → VideoIn) (k : Nat) : Prop :=
  (Bt656.trace cfg xs (k + 1)).fifoByte (xs (k + 1)) = some (xs k).data

/-- What is written are the bytes from the second active one to the one after the header that ends the line. -/
theorem written_iff {cfg : Bt656Cfg} (hp : cfg.pureBt656 = true) (h : Streams lines xs)
    (hfull : ∀ k, (xs k).dataFifoFull = false) (k : Nat) : WritesByte cfg xs k ↔
    ∃ i, InTime lines i ∧ (lines i).isVideo = true ∧ savPos lines i + 5 ≤ k ∧ k ≤ eavPos lines (i + 1) + 4 := by
  have hstate : WritesByte cfg xs k ↔ (Bt656.trace cfg xs (k + 1)).state = .vdata := by
    unfold WritesByte
    rw [Bt656.fifoByte_pure hp hfull]
    split_ifs with hst <;> simp [hst]
  rw [hstate]
  rcases Nat.lt_or_ge k 4 with hk | hk
  · rw [Bt656.trace_state_early hp xs (by omega)]
    constructor
    · nofun
    · rintro ⟨i, -, -, hlow, -⟩
      have hself := eavPos_lt_savPos lines i
      unfold savPos at hlow
      omega
  · obtain ⟨j, rfl⟩ := Nat.exists_eq_add_of_le' hk
    rw [Bt656.trace_state_pure hp, h.headerState_iff]
    constructor
    · rintro ⟨i, htime, hvideo, hlow, hhigh⟩
      exact ⟨i, htime, hvideo, by omega, by omega⟩
    · rintro ⟨i, htime, hvideo, hlow, hhigh⟩
      exact ⟨i, htime, hvideo, by omega, by omega⟩

/-- Written are exactly the active bytes of the captured lines. -/
def Exact (lines : Nat → Bt656Line) (cfg : Bt656Cfg) (xs : Nat → VideoIn) : Prop :=
  ∀ k, WritesByte cfg xs k ↔ IsActive lines k

theorem InTime.captured {i : Nat} (h : InTime lines i) : Captured lines i := by
  obtain ⟨j, hj, hfall⟩ := h
  exact ⟨j, hj, hfall.imp_right And.right⟩

/-- The first active byte of a captured line is missing. -/
theorem not_exact_of_captured {cfg : Bt656Cfg} (hp : cfg.pureBt656 = true) (h : Streams lines xs)
    (hfull : ∀ k, (xs k).dataFifoFull = false) {i : Nat} (hcap : Captured lines i) (hvideo : (lines i).isVideo = true) :
    ¬ Exact lines cfg xs := by
  intro hexact
  have hactive : IsActive lines (savPos lines i + 4) := ⟨i, hcap, hvideo, Nat.le_refl _, eavPos_succ lines i⟩
  obtain ⟨j, -, -, hlow, hhigh⟩ := (written_iff hp h hfull _).1 ((hexact _).2 hactive)
  have hlt : j < i := lt_of_savPos_lt lines (by omega)
  have hle : eavPos lines (j + 1) ≤ eavPos lines i := eavPos_mono hlt
  have hself : eavPos lines i + 4 ≤ savPos lines i := Nat.le_add_right _ _
  omega

/-- The bytes written are the active ones exactly where no line outside the vertical blanking has its active bytes after
the transition that starts the capture. -/
theorem exact_iff {cfg : Bt656Cfg} (hp : cfg.pureBt656 = true) (h : Streams lines xs)
    (hfull : ∀ k, (xs k).dataFifoFull = false) :
    Exact lines cfg xs ↔ ¬ ∃ i, Captured lines i ∧ (lines i).isVideo = true := by
  constructor
  · rintro hexact ⟨i, hcap, hvideo⟩
    exact not_exact_of_captured hp h hfull hcap hvideo hexact
  · intro hnone k
    rw [written_iff hp h hfull]
    constructor
    · rintro ⟨i, htime, hvideo, -⟩
      exact absurd ⟨i, htime.captured, hvideo⟩ hnone
    · rintro ⟨i, hcap, hvideo, -⟩
      exact absurd ⟨i, hcap, hvideo⟩ hnone

/-! ### Two active bytes in a line -/

def fieldOne : Bt656Line := ⟨0xD0, [], 0xC0, [0x11, 0x22], by decide, by decide, by decide⟩

def fieldZero : Bt656Line := ⟨0x90, [], 0x80, [0x11, 0x22], by decide, by decide, by decide⟩

/-- A line of field 1 and then lines of field 0. -/
def fieldLines (i : Nat) : Bt656Line := if i = 0 then fieldOne else fieldZero

def fieldIn (k : Nat) : VideoIn := ⟨false, false, (fieldLines (k / 10)).bytes.getD (k % 10) 0, 0, false, false⟩

theorem length_fieldLines (i : Nat) : (fieldLines i).bytes.length = 10 := by
  unfold fieldLines
  split <;> rfl

theorem eavPos_fieldLines (i : Nat) : eavPos fieldLines i = 10 * i := by
  induction i with
  | zero => rfl
  | succ i ih =>
    rw [eavPos, ih, length_fieldLines]
    omega

theorem savPos_fieldLines (i : Nat) : savPos fieldLines i = 10 * i + 4 := by
  have hblank : (fieldLines i).blanking.length = 0 := by
    unfold fieldLines
    split <;> rfl
  rw [savPos, eavPos_fieldLines, hblank]

theorem streams_fieldLines : Streams fieldLines fieldIn where
  bytes := by
    intro i j b hb
    have hj : j < (fieldLines i).bytes.length := (List.getElem?_eq_some_iff.1 hb).1
    rw [length_fieldLines] at hj
    rw [eavPos_fieldLines]
    have hdiv : (10 * i + j) / 10 = i := by omega
    have hmod : (10 * i + j) % 10 = j := by omega
    simp only [fieldIn, hdiv, hmod, List.getD_eq_getElem?_getD, hb, Option.getD_some]
  headers := by
    intro k hff _ _
    have hone : ∀ j < 10, fieldOne.bytes.getD j 0 = 0xFF → j = 0 ∨ j = 4 := by decide
    have hzero : ∀ j < 10, fieldZero.bytes.getD j 0 = 0xFF → j = 0 ∨ j = 4 := by decide
    have hpos : k % 10 = 0 ∨ k % 10 = 4 := by
      simp only [fieldIn, fieldLines] at hff
      split at hff
      · exact hone _ (Nat.mod_lt _ (by decide)) hff
      · exact hzero _ (Nat.mod_lt _ (by decide)) hff
    refine ⟨k / 10, ?_⟩
    rw [eavPos_fieldLines, savPos_fieldLines]
    omega

theorem exact_iff_fieldLines :
    Exact fieldLines ⟨true, false⟩ fieldIn ↔ ¬ ∃ i, Captured fieldLines i ∧ (fieldLines i).isVideo = true :=
  exact_iff rfl streams_fieldLines fun _ => rfl

theorem captured_fieldLines : Captured fieldLines 1 := ⟨1, Nat.le_refl 1, Or.inl ⟨by decide, by decide, by decide⟩⟩

/-- The line of the active bytes `11 22` reaches the FIFO as `22 FF 00 00 90 FF`. -/
theorem not_exact_fieldLines :
    Streams fieldLines fieldIn ∧ ¬ Exact fieldLines ⟨true, false⟩ fieldIn ∧
      Bt656.written ⟨true, false⟩ fieldIn 26 = [0x22, 0xFF, 0x00, 0x00, 0x90, 0xFF] :=
  ⟨streams_fieldLines, not_exact_of_captured rfl streams_fieldLines (fun _ => rfl) captured_fieldLines (by decide),
    by decide⟩

end RcCarControl.Fpga
