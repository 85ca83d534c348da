import RcCarControl.Lib.Runs

/-!
# Ready/valid sources

A source offers a beat with `valid`, the sink takes it with `ready`, and both are looked at once a cycle.  `Compliant` are
the two rules for a source: it does not look at `ready` before it raises `valid`, and it keeps what it has offered until it
is taken.  A source that raises `valid` only together with `ready` keeps the second rule for nothing and breaks the first
whenever it has something to send.
-/

namespace ReadyValid

open Lts

/-- The state, the other inputs and `ready` of a cycle give the outputs and the next state. -/
structure Source (σ ι δ : Type*) where
  valid : σ → ι → Bool → Bool
  beat : σ → ι → Bool → δ
  next : σ → ι → Bool → σ

variable {σ ι δ : Type*}

namespace Source

variable (S : Source σ ι δ) (s : σ)

/-- `valid` is the same with `ready` low and high. -/
def Independent : Prop := ∀ i, S.valid s i false = S.valid s i true

/-- What is offered and not taken is offered in the next cycle again. -/
def Persistent : Prop :=
  ∀ i, S.valid s i false = true → ∀ i' ready,
    S.valid (S.next s i false) i' ready = true ∧ S.beat (S.next s i false) i' ready = S.beat s i false

def Compliant : Prop := S.Independent s ∧ S.Persistent s

def step : ι × Bool → Option σ := fun e => some (S.next s e.1 e.2)

/-- The source raises `valid` together with `ready` only. -/
def Waits (sends : σ → Bool) : Prop := ∀ s i ready, S.valid s i ready = (sends s && ready)

variable {S s}

theorem Waits.compliant_iff [Nonempty ι] {sends : σ → Bool} (h : S.Waits sends) : S.Compliant s ↔ sends s = false := by
  obtain ⟨i⟩ := ‹Nonempty ι›
  constructor
  · rintro ⟨hi, -⟩
    have hv := hi i
    rw [h, h, Bool.and_false, Bool.and_true] at hv
    exact hv.symm
  · intro hs
    have hv (i : ι) (ready : Bool) : S.valid s i ready = false := by
      rw [h, hs, Bool.false_and]
    refine ⟨fun i => ?_, fun i hvalid => ?_⟩
    · rw [hv, hv]
    · rw [hv] at hvalid
      cases hvalid

/-- A run of such a source is compliant exactly if it never has anything to send. -/
theorem Waits.statesMeet_iff [Nonempty ι] {sends : σ → Bool} (h : S.Waits sends) (es : List (ι × Bool)) :
    StatesMeet S.step S.Compliant s es ↔ StatesMeet S.step (fun s => sends s = false) s es := by
  rw [Lts.statesMeet_iff, Lts.statesMeet_iff]
  simp only [h.compliant_iff]

end Source

end ReadyValid
