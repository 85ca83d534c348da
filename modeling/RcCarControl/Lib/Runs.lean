import Mathlib.Tactic.TypeStar
import Mathlib.Data.List.Basic

/-!
# Runs of a labelled transition system

A system is a step function `σ → ε → Option σ`: `none` says that the event is not enabled in the state.
`exec` takes a list of events, `StatesMeet` and `StepsMeet` say that a property holds in every state reached and at
every step taken.  An invariant is shown for one step and holds of whole runs by `exec_invariant`; when the steps
keep an invariant exactly under a condition, the runs inside the invariant are the runs under that condition
(`statesMeet_iff_stepsMeet`).
-/

namespace Lts

variable {σ ε : Type*} (step : σ → ε → Option σ)

/-- The state after the events, `none` as soon as one of them is not enabled. -/
def exec : σ → List ε → Option σ
  | s, [] => some s
  | s, e :: es => (step s e).bind fun t => exec t es

/-- Every event of the run meets `P` in the state in which it is taken. -/
def StepsMeet (P : σ → ε → Prop) : σ → List ε → Prop
  | _, [] => True
  | s, e :: es => P s e ∧ ∀ t, step s e = some t → StepsMeet P t es

/-- Every state of the run, the first and the last included, meets `Q`. -/
def StatesMeet (Q : σ → Prop) : σ → List ε → Prop
  | s, [] => Q s
  | s, e :: es => Q s ∧ ∀ t, step s e = some t → StatesMeet Q t es

/-- The system with a ghost that `note` advances at every step. -/
def withGhost {γ : Type*} (note : σ → ε → γ → γ) (s : σ × γ) (e : ε) : Option (σ × γ) :=
  (step s.1 e).map fun t => (t, note s.1 e s.2)

variable {step}

instance StepsMeet.decidable {P : σ → ε → Prop} [∀ s e, Decidable (P s e)] :
    ∀ s es, Decidable (StepsMeet step P s es)
  | _, [] => isTrue trivial
  | s, e :: es =>
    match h : step s e with
    | none => decidable_of_iff (P s e) ⟨fun hp => ⟨hp, by simp [h]⟩, And.left⟩
    | some t =>
      have : Decidable (StepsMeet step P t es) := StepsMeet.decidable t es
      decidable_of_iff (P s e ∧ StepsMeet step P t es) (by simp [StepsMeet, h])

instance StatesMeet.decidable {Q : σ → Prop} [∀ s, Decidable (Q s)] : ∀ s es, Decidable (StatesMeet step Q s es)
  | s, [] => inferInstanceAs (Decidable (Q s))
  | s, e :: es =>
    match h : step s e with
    | none => decidable_of_iff (Q s) ⟨fun hq => ⟨hq, by simp [h]⟩, And.left⟩
    | some t =>
      have : Decidable (StatesMeet step Q t es) := StatesMeet.decidable t es
      decidable_of_iff (Q s ∧ StatesMeet step Q t es) (by simp [StatesMeet, h])

theorem exec_cons {s t u : σ} {e : ε} {es : List ε} (h : step s e = some t) (h' : exec step t es = some u) :
    exec step s (e :: es) = some u := by
  simp [exec, h, h']

theorem exec_cons_cases {s u : σ} {e : ε} {es : List ε} (h : exec step s (e :: es) = some u) :
    ∃ t, step s e = some t ∧ exec step t es = some u := by
  simpa [exec, Option.bind_eq_some_iff] using h

/-- A run of a system whose steps are all enabled comes to an end. -/
theorem exec_total (h : ∀ s e, ∃ t, step s e = some t) (s : σ) (es : List ε) : ∃ t, exec step s es = some t := by
  induction es generalizing s with
  | nil => exact ⟨s, rfl⟩
  | cons e es ih =>
    obtain ⟨t, ht⟩ := h s e
    obtain ⟨u, hu⟩ := ih t
    exact ⟨u, exec_cons ht hu⟩

/-- The end of a run that was computed and tested. -/
theorem exists_exec {Q : σ → Prop} [DecidablePred Q] {s : σ} {es : List ε}
    (h : (exec step s es).any (fun t => decide (Q t)) = true) : ∃ t, exec step s es = some t ∧ Q t := by
  cases ht : exec step s es with
  | none =>
    rw [ht] at h
    cases h
  | some t =>
    rw [ht] at h
    exact ⟨t, rfl, of_decide_eq_true h⟩

theorem exec_append (s : σ) (es fs : List ε) :
    exec step s (es ++ fs) = (exec step s es).bind fun t => exec step t fs := by
  induction es generalizing s with
  | nil => simp [exec]
  | cons e es ih =>
    simp only [List.cons_append, exec]
    cases step s e with
    | none => rfl
    | some t => simpa using ih t

/-- A run over a concatenation splits at the seam. -/
theorem exec_append_cases {s u : σ} {es fs : List ε} (h : exec step s (es ++ fs) = some u) :
    ∃ t, exec step s es = some t ∧ exec step t fs = some u := by
  rw [exec_append] at h
  exact Option.bind_eq_some_iff.1 h

theorem stepsMeet_append {P : σ → ε → Prop} {s : σ} {es fs : List ε} :
    StepsMeet step P s (es ++ fs) ↔
      StepsMeet step P s es ∧ ∀ t, exec step s es = some t → StepsMeet step P t fs := by
  induction es generalizing s with
  | nil => simp [StepsMeet, exec]
  | cons e es ih =>
    simp only [List.cons_append, StepsMeet, ih, exec, Option.bind_eq_some_iff]
    constructor
    · rintro ⟨hP, h⟩
      exact ⟨⟨hP, fun t ht => (h t ht).1⟩, fun u ⟨t, ht, hu⟩ => (h t ht).2 u hu⟩
    · rintro ⟨⟨hP, h⟩, h'⟩
      exact ⟨hP, fun t ht => ⟨h t ht, fun u hu => h' u ⟨t, ht, hu⟩⟩⟩

/-- The run lemma: what holds at the start and is kept by the steps that meet `P` holds at the end of every run
whose steps meet `P`. -/
theorem exec_invariant {P : σ → ε → Prop} {Inv : σ → Prop}
    (keep : ∀ s e t, Inv s → P s e → step s e = some t → Inv t) {s t : σ} {es : List ε} (h₀ : Inv s)
    (hP : StepsMeet step P s es) (h : exec step s es = some t) : Inv t := by
  induction es generalizing s with
  | nil =>
    cases h
    exact h₀
  | cons e es ih =>
    obtain ⟨u, hu, ht⟩ := exec_cons_cases h
    exact ih (keep s e u h₀ hP.1 hu) (hP.2 u hu) ht

/-- A run under a condition that keeps an invariant meets what the two imply. -/
theorem StepsMeet.of_invariant {P P' : σ → ε → Prop} {Inv : σ → Prop}
    (keep : ∀ s e t, Inv s → P s e → step s e = some t → Inv t) (met : ∀ s e, Inv s → P s e → P' s e) {s : σ}
    {es : List ε} (h₀ : Inv s) (hP : StepsMeet step P s es) : StepsMeet step P' s es := by
  induction es generalizing s with
  | nil => trivial
  | cons e es ih => exact ⟨met s e h₀ hP.1, fun t ht => ih (keep s e t h₀ hP.1 ht) (hP.2 t ht)⟩

/-- Two conditions met by a run are met together. -/
theorem StepsMeet.and {P P' : σ → ε → Prop} {s : σ} {es : List ε} (h : StepsMeet step P s es)
    (h' : StepsMeet step P' s es) : StepsMeet step (fun s e => P s e ∧ P' s e) s es := by
  induction es generalizing s with
  | nil => trivial
  | cons e es ih => exact ⟨⟨h.1, h'.1⟩, fun t ht => ih (h.2 t ht) (h'.2 t ht)⟩

theorem stepsMeet_true (s : σ) (es : List ε) : StepsMeet step (fun _ _ => True) s es := by
  induction es generalizing s with
  | nil => trivial
  | cons e es ih => exact ⟨trivial, fun t _ => ih t⟩

/-- The run lemma without a condition on the steps. -/
theorem exec_invariant' {Inv : σ → Prop} (keep : ∀ s e t, Inv s → step s e = some t → Inv t) {s t : σ}
    {es : List ε} (h₀ : Inv s) (h : exec step s es = some t) : Inv t :=
  exec_invariant (P := fun _ _ => True) (fun s e t hs _ => keep s e t hs) h₀ (stepsMeet_true s es) h

/-- Two conditions that agree inside an invariant are met by the same runs. -/
theorem stepsMeet_congr {P P' : σ → ε → Prop} {Inv : σ → Prop} (keep : ∀ s e t, Inv s → step s e = some t → Inv t)
    (agree : ∀ s e, Inv s → (P s e ↔ P' s e)) {s : σ} (h₀ : Inv s) (es : List ε) :
    StepsMeet step P s es ↔ StepsMeet step P' s es := by
  induction es generalizing s with
  | nil => exact Iff.rfl
  | cons e es ih =>
    have rest (t : σ) (ht : step s e = some t) := ih (keep s e t h₀ ht)
    constructor
    · intro h
      exact ⟨(agree s e h₀).1 h.1, fun t ht => (rest t ht).1 (h.2 t ht)⟩
    · intro h
      exact ⟨(agree s e h₀).2 h.1, fun t ht => (rest t ht).2 (h.2 t ht)⟩

/-- What holds of the steps inside an invariant holds of all steps of a run. -/
theorem stepsMeet_of_invariant {P : σ → ε → Prop} {Inv : σ → Prop} (keep : ∀ s e t, Inv s → step s e = some t → Inv t)
    (met : ∀ s e, Inv s → P s e) {s : σ} (h₀ : Inv s) (es : List ε) : StepsMeet step P s es :=
  (stepsMeet_congr keep (fun s e hs => iff_true_intro (met s e hs)) h₀ es).2 (stepsMeet_true s es)

theorem withGhost_eq_some {γ : Type*} {note : σ → ε → γ → γ} {s t : σ × γ} {e : ε} :
    withGhost step note s e = some t ↔ step s.1 e = some t.1 ∧ t.2 = note s.1 e s.2 := by
  unfold withGhost
  rw [Option.map_eq_some_iff]
  constructor
  · rintro ⟨u, hu, rfl⟩
    exact ⟨hu, rfl⟩
  · intro h
    exact ⟨t.1, h.1, by rw [← h.2]⟩

theorem StatesMeet.head {Q : σ → Prop} {s : σ} {es : List ε} (h : StatesMeet step Q s es) : Q s := by
  cases es with
  | nil => exact h
  | cons e es => exact h.1

/-- The states of a run are the ends of its initial parts. -/
theorem statesMeet_iff {Q : σ → Prop} {s : σ} {es : List ε} :
    StatesMeet step Q s es ↔ ∀ fs gs t, es = fs ++ gs → exec step s fs = some t → Q t := by
  constructor
  · intro h fs gs t he ht
    induction fs generalizing s es with
    | nil =>
      cases ht
      exact h.head
    | cons e fs ih =>
      subst he
      obtain ⟨u, hu, hut⟩ := exec_cons_cases ht
      exact ih (h.2 u hu) rfl hut
  · intro h
    induction es generalizing s with
    | nil => exact h [] [] s rfl rfl
    | cons e es ih =>
      refine ⟨h [] (e :: es) s rfl rfl, ?_⟩
      intro t ht
      apply ih
      intro fs gs u he hu
      exact h (e :: fs) gs u (by rw [he]; rfl) (exec_cons ht hu)

/-- What holds inside an invariant holds of all states of a run. -/
theorem statesMeet_of_invariant {Q Inv : σ → Prop} (keep : ∀ s e t, Inv s → step s e = some t → Inv t)
    (met : ∀ s, Inv s → Q s) {s : σ} (h₀ : Inv s) (es : List ε) : StatesMeet step Q s es :=
  statesMeet_iff.2 fun _ _ t _ ht => met t (exec_invariant' keep h₀ ht)

/-- A run under a condition that keeps an invariant stays in what the invariant implies. -/
theorem StepsMeet.statesMeet_of_invariant {P : σ → ε → Prop} {Q Inv : σ → Prop}
    (keep : ∀ s e t, Inv s → P s e → step s e = some t → Inv t) (met : ∀ s, Inv s → Q s) {s : σ} {es : List ε}
    (h : StepsMeet step P s es) (h₀ : Inv s) : StatesMeet step Q s es := by
  induction es generalizing s with
  | nil => exact met s h₀
  | cons e es ih => exact ⟨met s h₀, fun t ht => ih (h.2 t ht) (keep s e t h₀ h.1 ht)⟩

/-- If a step from inside `Q` stays inside `Q` exactly when it meets `P`, a run stays inside `Q` exactly when all
its steps meet `P`. -/
theorem statesMeet_iff_stepsMeet {P : σ → ε → Prop} {Q : σ → Prop} {Inv : σ → Prop}
    (keep : ∀ s e t, Inv s → step s e = some t → Inv t)
    (exact_step : ∀ s e t, Inv s → Q s → step s e = some t → (Q t ↔ P s e))
    {s u : σ} {es : List ε} (hI : Inv s) (h₀ : Q s) (h : exec step s es = some u) :
    StatesMeet step Q s es ↔ StepsMeet step P s es := by
  induction es generalizing s with
  | nil => exact ⟨fun _ => trivial, fun _ => h₀⟩
  | cons e es ih =>
    obtain ⟨t, ht, htu⟩ := exec_cons_cases h
    have hstep := exact_step s e t hI h₀ ht
    have hIt := keep s e t hI ht
    have only : ∀ {R : σ → Prop}, R t → ∀ t', step s e = some t' → R t' := by
      intro R hR t' ht'
      rw [ht] at ht'
      cases ht'
      exact hR
    constructor
    · intro hQ
      have hQt := (hQ.2 t ht).head
      exact ⟨hstep.1 hQt, only ((ih hIt hQt htu).1 (hQ.2 t ht))⟩
    · intro hP
      have hQt := hstep.2 hP.1
      exact ⟨h₀, only ((ih hIt hQt htu).2 (hP.2 t ht))⟩

/-- If besides a step out of `Q` never finds back, the end of a run meets `Q` exactly when all its steps meet `P`. -/
theorem exec_iff_stepsMeet {P : σ → ε → Prop} {Q : σ → Prop} {Inv : σ → Prop}
    (keep : ∀ s e t, Inv s → step s e = some t → Inv t)
    (exact_step : ∀ s e t, Inv s → Q s → step s e = some t → (Q t ↔ P s e))
    (lost : ∀ s e t, Inv s → ¬ Q s → step s e = some t → ¬ Q t)
    {s u : σ} {es : List ε} (hI : Inv s) (h₀ : Q s) (h : exec step s es = some u) :
    Q u ↔ StepsMeet step P s es := by
  induction es generalizing s with
  | nil =>
    cases h
    exact ⟨fun _ => trivial, fun _ => h₀⟩
  | cons e es ih =>
    obtain ⟨t, ht, htu⟩ := exec_cons_cases h
    have hIt := keep s e t hI ht
    have hstep := exact_step s e t hI h₀ ht
    by_cases hQt : Q t
    · constructor
      · intro hQ
        refine ⟨hstep.1 hQt, ?_⟩
        intro t' ht'
        rw [ht] at ht'
        cases ht'
        exact (ih hIt hQt htu).1 hQ
      · intro hP
        exact (ih hIt hQt htu).2 (hP.2 t ht)
    · -- out of `Q` for good, and the step that left it does not meet `P`
      have stay : ∀ s e t, Inv s ∧ ¬ Q s → step s e = some t → Inv t ∧ ¬ Q t := fun s e t hs ht =>
        ⟨keep s e t hs.1 ht, lost s e t hs.1 hs.2 ht⟩
      have hQu : ¬ Q u := (exec_invariant' stay ⟨hIt, hQt⟩ htu).2
      constructor
      · intro hQ
        exact absurd hQ hQu
      · intro hP
        exact absurd (hstep.2 hP.1) hQt

end Lts
