import RcCarControl.Fpga.SyncPulse
import Mathlib.Data.List.Basic

/-!
# Pulses through `sync_pulse`

What `fpga/rtl/sync_pulse.sv` does with its pulses under every order of the edges of its two clocks.  A pulse that was
taken in sits in one place between `a_hold` and the output (`inside`): no edge makes a second one of it, so there are
never more pulses at the output than at the input.  Pulses that arrive while another is under way may be lost; a pulse
that has the synchroniser for itself comes out.
-/

namespace RcCarControl.Fpga.SyncPulse

/-- The edges of an instant: `a_clk_i` with `a_pulse_i`, `b_clk_i`. -/
structure Edges where
  aClk : Option Bool
  bClk : Bool

variable (s : SyncPulse) (e : Edges)

def run : SyncPulse → List Edges → SyncPulse
  | s, [] => s
  | s, e :: es => run (s.clock e.aClk e.bClk) es

/-- The edges of `a_clk_i` at which `a_pulse_i` was 1. -/
def aPulses (es : List Edges) : Nat := es.countP fun e => e.aClk == some true

/-- The edges of `b_clk_i` that begin a cycle with `b_pulse_o` at 1. -/
def bPulses : SyncPulse → List Edges → Nat
  | _, [] => 0
  | s, e :: es => (e.bClk && (s.clock e.aClk e.bClk).bPulse).toNat + bPulses (s.clock e.aClk e.bClk) es

/-- `a_hold`, `a_sync` and `b_sync` are all 0. -/
def Quiet : Prop := s.aHold = false ∧ s.aSync0 = false ∧ s.aSync1 = false ∧ s.bSync0 = false ∧ s.bSync1 = false

instance : Decidable s.Quiet := inferInstanceAs (Decidable (_ ∧ _ ∧ _ ∧ _ ∧ _))

/-! ### Where a pulse is -/

/-- The pulses that are still to come out: one that `b_sync` has not sampled, one that it has sampled once. -/
def inside : Nat := (s.aHold && !s.bSync0).toNat + (s.bSync0 && !s.bSync1).toNat

/-- The hold rises where `b_sync` will see it rise: a pulse is taken in. -/
def taken : Bool := (s.clock e.aClk e.bClk).aHold && !s.aHold && !(s.clock e.aClk e.bClk).bSync0

/-- The hold falls before `b_sync` has seen it. -/
def dropped : Bool := s.aHold && !(s.clock e.aClk e.bClk).aHold && !(s.clock e.aClk e.bClk).bSync0

/-- An edge moves pulses from the inside to the output, and adds or drops one with the hold. -/
theorem inside_clock : (e.bClk && (s.clock e.aClk e.bClk).bPulse).toNat + (s.clock e.aClk e.bClk).inside +
    (s.dropped e).toNat = s.inside + (s.taken e).toNat := by
  obtain ⟨aHold, aSync0, aSync1, bSync0, bSync1, bPulse⟩ := s
  obtain ⟨aClk, bClk⟩ := e
  rcases aClk with _ | _ | _ <;> cases bClk <;> cases aHold <;> cases bSync0 <;> cases bSync1 <;> cases aSync1 <;> rfl

/-! ### No pulse too many -/

theorem taken_le : (s.taken e).toNat ≤ (e.aClk == some true).toNat := by
  cases ha : e.aClk == some true with
  | true => exact Bool.toNat_le _
  | false =>
    have hno : e.aClk ≠ some true := by simpa using ha
    have hhold := aHold_of_clock (s := s) hno e.bClk
    unfold taken
    cases hup : (s.clock e.aClk e.bClk).aHold with
    | false => exact Nat.le_refl _
    | true =>
      rw [hhold hup]
      exact Nat.le_refl _

theorem bPulses_add_inside_le (es : List Edges) : bPulses s es + (s.run es).inside ≤ aPulses es + s.inside := by
  induction es generalizing s with
  | nil => exact Nat.le_refl _
  | cons e es ih =>
    have hstep := inside_clock s e
    have htake := taken_le s e
    have hrest := ih (s.clock e.aClk e.bClk)
    have hcount : aPulses (e :: es) = aPulses es + (e.aClk == some true).toNat := by
      unfold aPulses
      rw [List.countP_cons]
      cases e.aClk == some true <;> rfl
    rw [bPulses, run, hcount]
    omega

/-! ### The length of a pulse -/

/-- While the output is up, the second register on its side is up too. -/
theorem bSync1_of_bPulse (h : s.bPulse = true → s.bSync1 = true) (es : List Edges) :
    (s.run es).bPulse = true → (s.run es).bSync1 = true := by
  induction es generalizing s with
  | nil => exact h
  | cons e es ih =>
    apply ih
    intro hup
    cases hb : e.bClk with
    | false =>
      rw [hb] at hup
      exact h hup
    | true =>
      rw [hb] at hup
      have hfirst : (s.bSync0 && !s.bSync1) = true := hup
      rw [Bool.and_eq_true] at hfirst
      exact hfirst.1

/-- A pulse at the output ends with the next edge of `b_clk_i` and not before. -/
theorem bPulse_clock (hs : s.bPulse = true → s.bSync1 = true) (hup : s.bPulse = true) :
    (s.clock e.aClk e.bClk).bPulse = !e.bClk := by
  cases hb : e.bClk with
  | false => exact hup
  | true =>
    change (s.bSync0 && !s.bSync1) = false
    rw [hs hup, Bool.not_true, Bool.and_false]

/-! ### A pulse alone -/

/-- While the hold is up, the registers behind it fill one after the other. -/
def Filling : Prop :=
  s.aHold = true → (s.aSync1 = true → s.aSync0 = true) ∧ (s.aSync0 = true → s.bSync1 = true) ∧
    (s.bSync1 = true → s.bSync0 = true)

variable {s e}

theorem Filling.clock (h : s.Filling) (he : e.aClk ≠ some true) : (s.clock e.aClk e.bClk).Filling := by
  intro hup
  have hhold := aHold_of_clock he e.bClk hup
  obtain ⟨hlast, hback, hforth⟩ := h hhold
  have hback' : (s.clock e.aClk e.bClk).bSync1 = true → (s.clock e.aClk e.bClk).bSync0 = true := by
    cases hb : e.bClk with
    | false => exact hforth
    | true => exact fun _ => hhold
  have hseen : s.bSync1 = true → (s.clock e.aClk e.bClk).bSync1 = true := by
    cases hb : e.bClk with
    | false => exact id
    | true => exact hforth
  rcases ha : e.aClk with _ | aPulse
  · exact ⟨hlast, fun h0 => hseen (hback h0), ha ▸ hback'⟩
  · exact ⟨fun h0 => hback h0, fun h0 => ha ▸ hseen h0, ha ▸ hback'⟩

/-- The hold does not fall before `b_sync` has seen it. -/
theorem Filling.not_dropped (h : s.Filling) (he : e.aClk ≠ some true) : s.dropped e = false := by
  unfold dropped
  cases hold : s.aHold with
  | false => rfl
  | true =>
    cases hlow : (s.clock e.aClk e.bClk).aHold with
    | true => rfl
    | false =>
      obtain ⟨hlast, hback, hforth⟩ := h hold
      have hseen : s.aSync1 = true := by
        rcases ha : e.aClk with _ | _ | _
        · rw [ha] at hlow
          exact absurd (hold.symm.trans hlow) Bool.noConfusion
        · rw [ha] at hlow
          by_contra hno
          rw [Bool.not_eq_true] at hno
          have hkeep : (if s.aSync1 then false else s.aHold) = false := hlow
          rw [hno, hold] at hkeep
          cases hkeep
        · exact absurd ha he
      have hfirst : (s.clock e.aClk e.bClk).bSync0 = true := by
        cases hb : e.bClk with
        | false => exact hforth (hback (hlast hseen))
        | true => exact hold
      rw [hfirst]
      rfl

/-- Without a further pulse at the input what is inside comes out, and nothing else. -/
theorem Filling.bPulses_add_inside (h : s.Filling) {es : List Edges} (hes : ∀ e ∈ es, e.aClk ≠ some true) :
    bPulses s es + (s.run es).inside = s.inside := by
  induction es generalizing s with
  | nil => exact Nat.zero_add _
  | cons e es ih =>
    have he : e.aClk ≠ some true := hes e List.mem_cons_self
    have hrest := ih (h.clock he) fun e' he' => hes e' (List.mem_cons_of_mem _ he')
    have hstep := inside_clock s e
    have htake := taken_le s e
    have hno : (e.aClk == some true) = false := by simpa using he
    rw [h.not_dropped he] at hstep
    rw [hno] at htake
    simp only [Bool.toNat_false] at hstep htake
    rw [bPulses, run]
    omega

/-- A pulse that finds the synchroniser idle and is alone until it is idle again comes out once. -/
theorem Quiet.bPulses_eq_one (h : s.Quiet) (bClk : Bool) {es : List Edges} (hes : ∀ e ∈ es, e.aClk ≠ some true)
    (hend : (s.run (⟨some true, bClk⟩ :: es)).Quiet) : bPulses s (⟨some true, bClk⟩ :: es) = 1 := by
  obtain ⟨hold, ha0, ha1, hb0, hb1⟩ := h
  let t := s.clock (some true) bClk
  have hb0' : t.bSync0 = false := by
    change (if bClk then s.aHold else s.bSync0) = false
    rw [hold, hb0, ite_self]
  have hb1' : t.bSync1 = false := by
    change (if bClk then s.bSync0 else s.bSync1) = false
    rw [hb0, hb1, ite_self]
  have ha0' : t.aSync0 = false := hb1
  have ha1' : t.aSync1 = false := ha0
  have hfill : t.Filling := by
    intro _
    rw [ha0', ha1', hb0', hb1']
    exact ⟨id, id, id⟩
  have hin : t.inside = 1 := by
    have hup : t.aHold = true := rfl
    unfold inside
    rw [hup, hb0', hb1']
    rfl
  have hnone : (bClk && t.bPulse) = false := by
    cases bClk with
    | false => rfl
    | true =>
      change (s.bSync0 && !s.bSync1) = false
      rw [hb0, Bool.false_and]
  have hempty : (t.run es).inside = 0 := by
    obtain ⟨hold', -, -, hb0', -⟩ := hend
    have hold'' : (t.run es).aHold = false := hold'
    have hb0'' : (t.run es).bSync0 = false := hb0'
    unfold inside
    rw [hold'', hb0'']
    rfl
  have hrest := hfill.bPulses_add_inside hes
  change (bClk && t.bPulse).toNat + bPulses t es = 1
  rw [hnone]
  simp only [Bool.toNat_false]
  omega

/-! ### Out of reset -/

/-- Out of reset and under every order of edges: never more pulses come out than went in, a pulse at the output lasts
until the next edge of `b_clk_i`, and a pulse that is alone between two idle states comes out exactly once. -/
theorem pulses_through (es : List Edges) :
    bPulses idle es ≤ aPulses es ∧
      (∀ e : Edges, (idle.run es).bPulse = true → ((idle.run es).clock e.aClk e.bClk).bPulse = !e.bClk) ∧
      ∀ (bClk : Bool) (es' : List Edges), (idle.run es).Quiet → (∀ e ∈ es', e.aClk ≠ some true) →
        ((idle.run es).run (⟨some true, bClk⟩ :: es')).Quiet → bPulses (idle.run es) (⟨some true, bClk⟩ :: es') = 1 := by
  refine ⟨?_, ?_, ?_⟩
  · have hle := bPulses_add_inside_le idle es
    have hnone : idle.inside = 0 := rfl
    omega
  · intro e hup
    exact bPulse_clock _ e (bSync1_of_bPulse idle (fun h => h) es) hup
  · intro bClk es' hquiet hes hend
    exact hquiet.bPulses_eq_one bClk hes hend

/-- A pulse that goes through while both clocks run. -/
theorem pulses_through_nine : bPulses idle (⟨some true, true⟩ :: List.replicate 9 ⟨some false, true⟩) = 1 :=
  (pulses_through []).2.2 true (List.replicate 9 ⟨some false, true⟩) (by decide) (by simp) (by decide)

end RcCarControl.Fpga.SyncPulse
