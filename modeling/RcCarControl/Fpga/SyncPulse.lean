import Mathlib.Tactic.TypeStar

/-!
# `sync_pulse`

The pulse synchroniser of `fpga/rtl/sync_pulse.sv` out of reset: a pulse on `a_pulse_i` raises `a_hold`, two registers
take it over to the other clock, and two registers back tell the first side to lower it again.  A pulse that finds the
synchroniser idle passes it in three phases and comes out once (`SyncPulse.In.clock`).
-/

namespace RcCarControl.Fpga

structure SyncPulse where
  aHold : Bool
  aSync0 : Bool
  aSync1 : Bool
  bSync0 : Bool
  bSync1 : Bool
  bPulse : Bool
deriving DecidableEq

namespace SyncPulse

/-- The state after a reset, and again when a pulse is through. -/
def idle : SyncPulse := ⟨false, false, false, false, false, false⟩

/-- An instant at which `a_clk_i` rises (with `a_pulse_i`), `b_clk_i` rises, or both. -/
def clock (s : SyncPulse) (aClk : Option Bool) (bClk : Bool) : SyncPulse where
  aHold :=
    match aClk with
    | none => s.aHold
    | some aPulse => if aPulse then true else if s.aSync1 then false else s.aHold
  aSync0 := if aClk.isSome then s.bSync1 else s.aSync0
  aSync1 := if aClk.isSome then s.aSync0 else s.aSync1
  bSync0 := if bClk then s.aHold else s.bSync0
  bSync1 := if bClk then s.bSync0 else s.bSync1
  bPulse := if bClk then s.bSync0 && !s.bSync1 else s.bPulse

/-- Where a pulse is: raised and not sampled yet, sampled once, on the output, or nowhere. -/
inductive Phase where
  | quiet
  | held
  | seen
  | out
deriving DecidableEq

/-- The registers of a phase.  In the quiet phase the hold is being lowered, or it is down. -/
def In (s : SyncPulse) : Phase → Prop
  | .quiet => s.bPulse = false ∧ (s.aHold = true → s.bSync0 = true) ∧ (s.bSync0 = true → s.bSync1 = true)
  | .held => s = ⟨true, false, false, false, false, false⟩
  | .seen => s = ⟨true, false, false, true, false, false⟩
  | .out => s.bPulse = true ∧ s.bSync0 = true ∧ s.bSync1 = true

/-- A pulse enters at the first clock, and every second clock takes it on. -/
def Phase.next (ph : Phase) (aPulse bClk : Bool) : Phase :=
  if aPulse then .held
  else if bClk then
    match ph with
    | .quiet => .quiet
    | .held => .seen
    | .seen => .out
    | .out => .quiet
  else ph

/-- A pulse is between the two sides or on the output. -/
def underWay (s : SyncPulse) : Bool := s.aHold && !s.bSync1 || s.bPulse

variable {s : SyncPulse} {ph : Phase}

theorem in_idle : idle.In .quiet :=
  ⟨rfl, nofun, nofun⟩

theorem In.bPulse (h : s.In ph) : s.bPulse = true ↔ ph = .out := by
  cases ph with
  | quiet => simp [h.1]
  | held => simp [show s = _ from h]
  | seen => simp [show s = _ from h]
  | out => simp [h.1]

theorem In.underWay (h : s.In ph) (hph : ph ≠ .quiet) : s.underWay = true := by
  cases ph with
  | quiet => exact absurd rfl hph
  | held => rw [show s = _ from h]; rfl
  | seen => rw [show s = _ from h]; rfl
  | out => simp [SyncPulse.underWay, h.1]

/-- An idle synchroniser carries no pulse. -/
theorem In.eq_quiet (h : s.In ph) (hs : s = idle) : ph = .quiet := by
  subst hs
  cases ph with
  | quiet => rfl
  | held => cases h
  | seen => cases h
  | out => cases h.1

/-- A first clock without a pulse does not raise the hold. -/
theorem aHold_of_clock {aClk : Option Bool} (ha : aClk ≠ some true) (bClk : Bool)
    (h : (s.clock aClk bClk).aHold = true) : s.aHold = true := by
  rcases aClk with _ | _ | _
  · exact h
  · have hlow : (if s.aSync1 then false else s.aHold) = true := h
    cases hs : s.aSync1 with
    | false => simpa [hs] using hlow
    | true => simp [hs] at hlow
  · exact absurd rfl ha

/-- Without a pulse at its input the synchroniser takes the one inside on. -/
theorem In.clock_none (h : s.In ph) {aClk : Option Bool} (ha : aClk ≠ some true) (bClk : Bool) :
    (s.clock aClk bClk).In (ph.next false bClk) := by
  have hhold := aHold_of_clock (s := s) ha bClk
  cases ph with
  | quiet =>
    obtain ⟨hout, hchain, hchain'⟩ := h
    cases bClk with
    | false => exact ⟨hout, fun hup => hchain (hhold hup), hchain'⟩
    | true =>
      refine ⟨?_, fun hup => hhold hup, hchain⟩
      show (s.bSync0 && !s.bSync1) = false
      cases hs : s.bSync0 with
      | false => rfl
      | true => simp [hchain' hs]
  | held =>
    obtain rfl : s = _ := h
    rcases aClk with _ | _ | _
    · cases bClk <;> rfl
    · cases bClk <;> rfl
    · exact absurd rfl ha
  | seen =>
    obtain rfl : s = _ := h
    cases bClk with
    | false =>
      rcases aClk with _ | _ | _
      · rfl
      · rfl
      · exact absurd rfl ha
    | true => exact ⟨rfl, rfl, rfl⟩
  | out =>
    obtain ⟨hout, hfirst, hsecond⟩ := h
    cases bClk with
    | false => exact ⟨hout, hfirst, hsecond⟩
    | true =>
      refine ⟨?_, fun hup => hhold hup, fun _ => hfirst⟩
      show (s.bSync0 && !s.bSync1) = false
      simp [hsecond]

/-- Pulses that find the synchroniser idle go through it. -/
theorem In.clock (h : s.In ph) (aClk : Option Bool) (bClk : Bool) (hidle : aClk = some true → s = idle) :
    (s.clock aClk bClk).In (ph.next (aClk == some true) bClk) := by
  by_cases ha : aClk = some true
  · obtain rfl := hidle ha
    subst ha
    cases bClk <;> rfl
  · have hnext : (aClk == some true) = false := by simpa using ha
    rw [hnext]
    exact h.clock_none ha bClk

end SyncPulse

end RcCarControl.Fpga
