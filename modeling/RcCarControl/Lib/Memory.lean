import Mathlib.Data.List.Basic

/-!
# Memory

Memory as a function from addresses; `store` copies a list into it and `load` reads one.
-/

namespace Memory

variable {α : Type*}

abbrev Mem (α : Type*) := Nat → α

def store (m : Mem α) (off : Nat) (xs : List α) : Mem α := fun k =>
  if off ≤ k then xs.getD (k - off) (m k) else m k

def load (m : Mem α) (off n : Nat) : List α := (List.range n).map fun k => m (off + k)

@[simp] theorem length_load (m : Mem α) (off n : Nat) : (load m off n).length = n := by
  simp [load]

theorem getElem?_load (m : Mem α) (off : Nat) {n k : Nat} (h : k < n) : (load m off n)[k]? = some (m (off + k)) := by
  simp [load, h]

theorem take_load (m : Mem α) (off : Nat) {k n : Nat} (h : k ≤ n) : (load m off n).take k = load m off k := by
  unfold load
  rw [← List.map_take, List.take_range, Nat.min_eq_left h]

/-- A copy changes nothing outside its place. -/
theorem store_of_outside (m : Mem α) {off k : Nat} {xs : List α} (h : k < off ∨ off + xs.length ≤ k) :
    store m off xs k = m k := by
  unfold store
  split
  · rw [List.getD_eq_getElem?_getD, List.getElem?_eq_none (by omega)]
    rfl
  · rfl

/-- What lies within a copy is read as a part of it. -/
theorem load_store (m : Mem α) (off : Nat) {o n : Nat} {xs : List α} (h : o + n ≤ xs.length) :
    load (store m off xs) (off + o) n = (xs.drop o).take n := by
  apply List.ext_getElem?
  intro k
  by_cases hk : k < n
  · rw [getElem?_load _ _ hk, List.getElem?_take_of_lt hk, List.getElem?_drop]
    unfold store
    rw [if_pos (by omega), List.getD_eq_getElem?_getD, show off + o + k - off = o + k by omega,
      List.getElem?_eq_getElem (by omega)]
    rfl
  · rw [List.getElem?_eq_none (by simpa using hk), List.getElem?_eq_none (by simp; omega)]

theorem load_store_zero (m : Mem α) {o n : Nat} {xs : List α} (h : o + n ≤ xs.length) :
    load (store m 0 xs) o n = (xs.drop o).take n := by
  simpa using load_store m 0 h

theorem store_zero_apply (m : Mem α) (k : Nat) (xs : List α) : store m 0 xs k = xs.getD k (m k) := rfl

/-- A byte that is read comes from its place. -/
theorem eq_of_getElem?_load {m : Mem α} {off n k : Nat} {x : α} (h : (load m off n)[k]? = some x) : x = m (off + k) := by
  obtain ⟨hk, -⟩ := List.getElem?_eq_some_iff.1 h
  rw [length_load] at hk
  rw [getElem?_load _ _ hk, Option.some.injEq] at h
  exact h.symm

end Memory
