import Mathlib.Tactic.TypeStar
import Mathlib.Data.List.Induction
import Mathlib.Logic.Function.Basic
import RcCarControl.Lib.Runs

/-!
# Register files

What a bus slave with registers is for: a word for every address, of which a write replaces the read/write bits and
which a read shows.  A request and its response are separate events, and of each kind at most one response is owed.
-/

namespace RegisterFile

open Lts

variable {α : Type*} [DecidableEq α] {n : Nat}

/-- The bits of each register that can be written and read back, and what a read shows where there is no register. -/
structure Map (α : Type*) (n : Nat) where
  rw : α → BitVec n
  mapped : α → Bool
  unmapped : BitVec n

structure State (α : Type*) (n : Nat) where
  /-- The read/write bits of every register. -/
  file : α → BitVec n
  bOwed : Bool
  /-- The word of a read that was not returned yet. -/
  rOwed : Option (BitVec n)

/-- What happens between two states: an accepted write, the response to one, an accepted read with the word that it
took, and a word that is returned. -/
structure Edge (α : Type*) (n : Nat) where
  write : Option (α × BitVec n)
  b : Bool
  read : Option (α × BitVec n)
  r : Option (BitVec n)

variable (m : Map α n) (s : State α n) (e : Edge α n)

/-- The word shows the register's read/write bits, or that there is no register. -/
def Shows (x : α × BitVec n) : Prop := x.2 &&& m.rw x.1 = s.file x.1 ∧ (m.mapped x.1 = false → x.2 = m.unmapped)

instance (x : α × BitVec n) : Decidable (Shows m s x) := inferInstanceAs (Decidable (_ ∧ _))

/-- A response is owed when it comes, none is owed when a request comes, and the words are right. -/
def Allowed : Prop :=
  (e.write.isSome → s.bOwed = false) ∧ (e.b → s.bOwed) ∧ (∀ x ∈ e.read, s.rOwed = none ∧ Shows m s x) ∧
    (e.r.isSome → e.r = s.rOwed)

instance : Decidable (Allowed m s e) := inferInstanceAs (Decidable (_ ∧ _ ∧ _ ∧ _))

/-- The write replaces the read/write bits of its register and no other. -/
def written : α → BitVec n :=
  match e.write with
  | some (a, d) => Function.update s.file a (d &&& m.rw a)
  | none => s.file

def next : State α n where
  file := written m s e
  bOwed := e.write.isSome || (s.bOwed && !e.b)
  rOwed :=
    match e.read with
    | some x => some x.2
    | none => if e.r.isSome then none else s.rOwed

def step : Option (State α n) := if Allowed m s e then some (next m s e) else none

/-! ### The last write -/

/-- The data of the last write to the address. -/
def lastWrite (es : List (Edge α n)) (a : α) : Option (BitVec n) :=
  es.foldl (fun last e => match e.write with
    | some x => if x.1 = a then some x.2 else last
    | none => last) none

variable {m s e}

theorem step_eq_some {t : State α n} (h : step m s e = some t) : Allowed m s e ∧ t = next m s e := by
  unfold step at h
  rw [Option.ite_none_right_eq_some, Option.some.injEq] at h
  exact ⟨h.1, h.2.symm⟩

theorem lastWrite_append (es : List (Edge α n)) (e : Edge α n) (a : α) :
    lastWrite (es ++ [e]) a =
      match e.write with
      | some x => if x.1 = a then some x.2 else lastWrite es a
      | none => lastWrite es a := by
  unfold lastWrite
  rw [List.foldl_append]
  rfl

/-- A register holds the data of its last write, or what it held at first. -/
theorem file_of_exec {es : List (Edge α n)} {t : State α n} (h : exec (step m) s es = some t) (a : α) :
    t.file a = (lastWrite es a).elim (s.file a) fun d => d &&& m.rw a := by
  induction es using List.reverseRecOn generalizing t with
  | nil =>
    cases h
    rfl
  | append_singleton es e ih =>
    obtain ⟨u, hu, ht⟩ := exec_append_cases h
    obtain ⟨t', ht', hend⟩ := exec_cons_cases ht
    cases hend
    obtain ⟨-, rfl⟩ := step_eq_some ht'
    rw [lastWrite_append]
    show written m u e a = _
    unfold written
    cases hw : e.write with
    | none =>
      show u.file a = _
      exact ih hu
    | some x =>
      by_cases hx : x.1 = a
      · subst hx
        simp
      · simp only [if_neg hx, Function.update_of_ne (Ne.symm hx)]
        exact ih hu

/-- A read shows the last write to its address before it. -/
theorem read_of_exec {es fs : List (Edge α n)} {t : State α n} (h : exec (step m) s (es ++ e :: fs) = some t)
    {x : α × BitVec n} (hx : x ∈ e.read) :
    x.2 &&& m.rw x.1 = (lastWrite es x.1).elim (s.file x.1) (fun d => d &&& m.rw x.1) ∧
      (m.mapped x.1 = false → x.2 = m.unmapped) := by
  obtain ⟨u, hu, ht⟩ := exec_append_cases h
  obtain ⟨v, hv, -⟩ := exec_cons_cases ht
  obtain ⟨hread, hun⟩ := ((step_eq_some hv).1.2.2.1 x hx).2
  exact ⟨hread.trans (file_of_exec hu x.1), hun⟩

end RegisterFile
