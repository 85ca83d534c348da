import Mathlib.Data.List.Basic
import Mathlib.Data.List.Infix
import Mathlib.Tactic.TypeStar

/-!
# A stream cut into frames

The items of a stream are logged together with the format in force when they were sent.  A frame has the format of
its first item, and `body` gives the items of a frame of each format.  `WellFormed` says that a log is a sequence of
complete frames and at most one begun frame at its end; `Sent` also says how many items of which format have been sent
of the frame at the end.
-/

namespace Framing

variable {β γ : Type*} (body : γ → List β)

/-- The items of one complete frame. -/
def IsFrame (f : List (β × γ)) : Prop := ∃ x f', f = x :: f' ∧ f.map Prod.fst = body x.2

/-- The items of a frame that may be incomplete. -/
def IsBegun (f : List (β × γ)) : Prop := f = [] ∨ ∃ x f', f = x :: f' ∧ f.map Prod.fst <+: body x.2

def WellFormed (log : List (β × γ)) : Prop :=
  ∃ (fs : List (List (β × γ))) (f : List (β × γ)), log = fs.flatten ++ f ∧ (∀ g ∈ fs, IsFrame body g) ∧ IsBegun body f

/-- The first `n` items of a frame of format `c`. -/
def IsPart (c : γ) (n : Nat) (f : List (β × γ)) : Prop :=
  f.map Prod.fst = (body c).take n ∧ f.length = n ∧ ∀ x ∈ f.head?, x.2 = c

/-- The log ends with `n` items of a frame of format `c`. -/
def Sent (c : γ) (n : Nat) (log : List (β × γ)) : Prop :=
  ∃ (fs : List (List (β × γ))) (f : List (β × γ)), log = fs.flatten ++ f ∧ (∀ g ∈ fs, IsFrame body g) ∧ IsPart body c n f

variable {body} {c : γ} {n : Nat} {log : List (β × γ)}

theorem sent_nil : Sent body c 0 [] := ⟨[], [], rfl, nofun, rfl, rfl, nofun⟩

/-- Before its first item a frame has any format. -/
theorem Sent.reformat (h : Sent body c 0 log) (c' : γ) : Sent body c' 0 log := by
  obtain ⟨fs, f, rfl, hfs, -, hlen, -⟩ := h
  obtain rfl := List.length_eq_zero_iff.1 hlen
  exact ⟨fs, [], rfl, hfs, rfl, rfl, nofun⟩

theorem IsPart.append {f : List (β × γ)} (h : IsPart body c n f) {b : β} (hb : (body c)[n]? = some b) {t : γ}
    (ht : n = 0 → t = c) : IsPart body c (n + 1) (f ++ [(b, t)]) := by
  obtain ⟨hmap, hlen, hhead⟩ := h
  refine ⟨?_, by simp [hlen], ?_⟩
  · rw [List.map_append, hmap, List.take_add_one, hb]
    rfl
  · cases f with
    | nil =>
      intro x hx
      cases hx
      exact ht hlen.symm
    | cons y f =>
      intro x hx
      cases hx
      exact hhead y rfl

/-- The next item of the frame. -/
theorem Sent.append (h : Sent body c n log) {b : β} (hb : (body c)[n]? = some b) {t : γ} (ht : n = 0 → t = c) :
    Sent body c (n + 1) (log ++ [(b, t)]) := by
  obtain ⟨fs, f, rfl, hfs, hf⟩ := h
  exact ⟨fs, f ++ [(b, t)], by simp, hfs, hf.append hb ht⟩

theorem IsPart.isFrame {f : List (β × γ)} (h : IsPart body c n f) (hn : n = (body c).length) (hpos : 0 < n) :
    IsFrame body f := by
  obtain ⟨hmap, hlen, hhead⟩ := h
  cases f with
  | nil => exact absurd hlen (Nat.ne_of_lt hpos)
  | cons x f =>
    refine ⟨x, f, rfl, ?_⟩
    rw [hmap, hn, List.take_length, hhead x rfl]

/-- After its last item the frame is complete and the next one has not begun. -/
theorem Sent.complete (h : Sent body c n log) (hn : n = (body c).length) (hpos : 0 < n) (c' : γ) :
    Sent body c' 0 log := by
  obtain ⟨fs, f, rfl, hfs, hf⟩ := h
  refine ⟨fs ++ [f], [], by simp, ?_, rfl, rfl, nofun⟩
  intro g hg
  rw [List.mem_append, List.mem_singleton] at hg
  obtain hg | rfl := hg
  · exact hfs g hg
  · exact hf.isFrame hn hpos

theorem Sent.wellFormed (h : Sent body c n log) : WellFormed body log := by
  obtain ⟨fs, f, rfl, hfs, hmap, -, hhead⟩ := h
  refine ⟨fs, f, rfl, hfs, ?_⟩
  cases f with
  | nil => exact Or.inl rfl
  | cons x f =>
    refine Or.inr ⟨x, f, rfl, ?_⟩
    rw [hmap, hhead x rfl]
    exact List.take_prefix n _

/-- What every item of every frame is, every item of a well-formed log is. -/
theorem WellFormed.forall_mem (h : WellFormed body log) {P : β → Prop}
    (hP : ∀ x ∈ log, ∀ b ∈ body x.2, P b) : ∀ x ∈ log, P x.1 := by
  obtain ⟨fs, f, rfl, hfs, hf⟩ := h
  intro x hx
  rw [List.mem_append, List.mem_flatten] at hx
  obtain ⟨g, hg, hxg⟩ | hxf := hx
  · obtain ⟨y, g', rfl, hmap⟩ := hfs g hg
    have hy : y ∈ fs.flatten ++ f := List.mem_append_left _ (List.mem_flatten.2 ⟨_, hg, List.mem_cons_self⟩)
    exact hP y hy x.1 (hmap ▸ List.mem_map_of_mem hxg)
  · obtain rfl | ⟨y, f', rfl, hmap⟩ := hf
    · cases hxf
    · have hy : y ∈ fs.flatten ++ y :: f' := List.mem_append_right _ List.mem_cons_self
      exact hP y hy x.1 (hmap.subset (List.mem_map_of_mem hxf))

end Framing
