import RcCarControl.Video.ReadVideoStream

/-!
# The clean-up loop

The loop that erases "all frames with older frame counters" when a frame is complete, with its iterator.  The iterator is
always valid (`cleanUp_eq`), but it is advanced behind an erased entry too, so that the next one stays whatever its count
is, and the counts are compared as numbers although the sender counts in 8 bits.

So the loop leaves the newer frames exactly if the older ones have counts up to the one of the complete frame and are not
neighbours, and each newer one has a larger count or stands behind an older one (`cleanUp_iff`).
-/

namespace RcCarControl.Video

/-! ### The loop -/

section

variable {α β : Type*}

/-- The loop from the position `it` on, over a vector of anything with a count; `none` when the iterator that is read is
not one of an entry. -/
def cleanUp (cnt : α → Int) (curFrameCnt : Int) (rxFrames : List α) (it : Nat) : Option (List α) :=
  if it = rxFrames.length then some rxFrames
  else if h : it < rxFrames.length then
    if cnt rxFrames[it] ≤ curFrameCnt then
      -- `erase` returns the iterator of the entry behind, which has moved to this position
      if it = (rxFrames.eraseIdx it).length then some (rxFrames.eraseIdx it)
      else cleanUp cnt curFrameCnt (rxFrames.eraseIdx it) (it + 1)
    else cleanUp cnt curFrameCnt rxFrames (it + 1)
  else none
termination_by rxFrames.length - it
decreasing_by
  · rw [List.length_eraseIdx_of_lt h]
    omega
  · omega

/-- What the loop leaves: an entry that is erased is followed by one that stays. -/
def sweep (cnt : α → Int) (cur : Int) : List α → List α
  | [] => []
  | f :: fs =>
    if cnt f ≤ cur then
      match fs with
      | [] => []
      | g :: gs => g :: sweep cnt cur gs
    else f :: sweep cnt cur fs

theorem sweep_keep (cnt : α → Int) {cur : Int} {f : α} (h : ¬ cnt f ≤ cur) (fs : List α) :
    sweep cnt cur (f :: fs) = f :: sweep cnt cur fs := by
  rw [sweep.eq_def]
  exact if_neg h

theorem sweep_erase (cnt : α → Int) {cur : Int} {f : α} (h : cnt f ≤ cur) (g : α) (gs : List α) :
    sweep cnt cur (f :: g :: gs) = g :: sweep cnt cur gs := by
  rw [sweep.eq_def]
  exact if_pos h

theorem sweep_sublist (cnt : α → Int) (cur : Int) (fs : List α) : (sweep cnt cur fs).Sublist fs := by
  fun_induction sweep cnt cur fs with
  | case1 => exact List.Sublist.refl _
  | case2 f h => exact List.nil_sublist _
  | case3 f h g gs ih => exact (ih.cons_cons g).cons f
  | case4 f fs h ih => exact ih.cons_cons f

section

variable (cnt : α → Int) (cur : Int) (before : List α)

theorem eraseIdx_middle (f : α) (fs : List α) : (before ++ f :: fs).eraseIdx before.length = before ++ fs := by
  rw [List.eraseIdx_append_of_length_le (Nat.le_refl _), Nat.sub_self, List.eraseIdx_zero, List.tail_cons]

/-- The iterator at an entry that stays. -/
theorem cleanUp_keep {f : α} (h : ¬ cnt f ≤ cur) (fs : List α) :
    cleanUp cnt cur (before ++ f :: fs) before.length = cleanUp cnt cur (before ++ f :: fs) (before.length + 1) := by
  have hlength : before.length < (before ++ f :: fs).length := by
    rw [List.length_append, List.length_cons]
    omega
  have hget : (before ++ f :: fs)[before.length] = f := by simp
  rw [cleanUp, if_neg (by omega), dif_pos hlength, hget, if_neg h]

/-- At an entry that is erased: the next one is passed over. -/
theorem cleanUp_erase {f : α} (h : cnt f ≤ cur) (g : α) (gs : List α) :
    cleanUp cnt cur (before ++ f :: g :: gs) before.length = cleanUp cnt cur (before ++ g :: gs) (before.length + 1) := by
  have hlength : before.length < (before ++ f :: g :: gs).length := by
    rw [List.length_append, List.length_cons]
    omega
  have hrest : before.length ≠ (before ++ g :: gs).length := by
    rw [List.length_append, List.length_cons]
    omega
  have hget : (before ++ f :: g :: gs)[before.length] = f := by simp
  rw [cleanUp, if_neg (by omega), dif_pos hlength, hget, if_pos h, eraseIdx_middle, if_neg hrest]

theorem cleanUp_erase_last {f : α} (h : cnt f ≤ cur) : cleanUp cnt cur (before ++ [f]) before.length = some before := by
  have hlength : before.length < (before ++ [f]).length := by
    rw [List.length_append, List.length_singleton]
    omega
  have hget : (before ++ [f])[before.length] = f := by simp
  rw [cleanUp, if_neg (by omega), dif_pos hlength, hget, if_pos h, eraseIdx_middle, List.append_nil, if_pos rfl]

end

/-- The iterator is valid throughout, and the loop leaves this. -/
theorem cleanUp_eq_sweep (cnt : α → Int) (cur : Int) (before fs : List α) :
    cleanUp cnt cur (before ++ fs) before.length = some (before ++ sweep cnt cur fs) := by
  have hstep (f : α) : (before ++ [f]).length = before.length + 1 := by rw [List.length_append, List.length_singleton]
  induction fs using sweep.induct cnt cur generalizing before with
  | case1 =>
    rw [List.append_nil, cleanUp, if_pos rfl, sweep, List.append_nil]
  | case2 f h =>
    rw [cleanUp_erase_last cnt cur before h, sweep, if_pos h, List.append_nil]
  | case3 f h g gs ih =>
    have hnext := ih (before ++ [g]) fun f => by rw [List.length_append, List.length_singleton]
    rw [hstep, List.append_assoc, List.append_assoc, List.singleton_append, List.singleton_append] at hnext
    rw [cleanUp_erase cnt cur before h, hnext, sweep_erase cnt h]
  | case4 f fs h ih =>
    have hnext := ih (before ++ [f]) fun f => by rw [List.length_append, List.length_singleton]
    rw [hstep, List.append_assoc, List.append_assoc, List.singleton_append, List.singleton_append] at hnext
    rw [cleanUp_keep cnt cur before h, hnext, sweep_keep cnt h]

end

theorem sweep_eq (cur : Int) (fs : List RxFrame) : sweep RxFrame.cntFrame cur fs = eraseFrames cur fs := by
  fun_induction sweep RxFrame.cntFrame cur fs with
  | case1 => rfl
  | case2 f h => rw [eraseFrames, if_pos h]
  | case3 f h g gs ih =>
    rw [eraseFrames.eq_def, ih]
    exact (if_pos h).symm
  | case4 f fs h ih =>
    rw [eraseFrames.eq_def, ih]
    exact (if_neg h).symm

/-- The loop of the receiver. -/
theorem cleanUp_eq (cur : Int) (fs : List RxFrame) :
    cleanUp RxFrame.cntFrame cur fs 0 = some (eraseFrames cur fs) := by
  have h := cleanUp_eq_sweep RxFrame.cntFrame cur [] fs
  rwa [List.nil_append, List.length_nil, List.nil_append, sweep_eq] at h

/-! ### Older and newer frames -/

/-- An entry with the number of its frame, which the sender counts in 8 bits. -/
structure Entry extends RxFrame where
  number : Nat
  counted : cntFrame = (number % 256 : Nat)

theorem sweep_map {α β : Type*} (g : β → α) (cnt : α → Int) (cur : Int) (fs : List β) :
    (sweep (fun f => cnt (g f)) cur fs).map g = sweep cnt cur (fs.map g) := by
  fun_induction sweep (fun f => cnt (g f)) cur fs with
  | case1 => rfl
  | case2 f h =>
    rw [List.map_singleton, sweep, if_pos h, List.map_nil]
  | case3 f h x xs ih =>
    rw [List.map_cons, List.map_cons, List.map_cons, sweep_erase cnt h, ih]
  | case4 f fs h ih =>
    rw [List.map_cons, List.map_cons, sweep_keep cnt h, ih]

/-- The numbers change nothing in what the loop does. -/
theorem cleanUp_entries (cur : Int) (es : List Entry) :
    (cleanUp (fun e => e.cntFrame) cur es 0).map (List.map Entry.toRxFrame) =
      cleanUp RxFrame.cntFrame cur (es.map Entry.toRxFrame) 0 := by
  have hentries := cleanUp_eq_sweep (fun e : Entry => e.cntFrame) cur [] es
  have hframes := cleanUp_eq_sweep RxFrame.cntFrame cur [] (es.map Entry.toRxFrame)
  rw [List.nil_append, List.length_nil, List.nil_append] at hentries hframes
  rw [hentries, hframes, Option.map_some, sweep_map Entry.toRxFrame RxFrame.cntFrame]

/-- The frames that were started after the one with the number `s`. -/
def newer (s : Nat) (es : List Entry) : List Entry := es.filter fun e => s < e.number

/-- Every older entry has a count up to the one of `s` and stands neither `behind` nor in front of another; every newer one
has a larger count or stands behind an older one. -/
def Apart (s : Nat) (behind : Prop) : List Entry → Prop
  | [] => True
  | e :: es =>
    (e.number ≤ s → e.number % 256 ≤ s % 256 ∧ ¬ behind) ∧ (s < e.number → s % 256 < e.number % 256 ∨ behind) ∧
      Apart s (e.number ≤ s) es

theorem apart_of_le {s : Nat} {e : Entry} (h : e.number ≤ s) (behind : Prop) (es : List Entry) :
    Apart s behind (e :: es) ↔ (e.number % 256 ≤ s % 256 ∧ ¬ behind) ∧ Apart s True es := by
  rw [Apart, eq_true h]
  constructor
  · rintro ⟨holder, -, hes⟩
    exact ⟨holder trivial, hes⟩
  · rintro ⟨holder, hes⟩
    exact ⟨fun _ => holder, fun hlt => absurd h (by omega), hes⟩

theorem apart_of_lt {s : Nat} {e : Entry} (h : s < e.number) (behind : Prop) (es : List Entry) :
    Apart s behind (e :: es) ↔ (s % 256 < e.number % 256 ∨ behind) ∧ Apart s False es := by
  rw [Apart, eq_false (Nat.not_le.2 h)]
  constructor
  · rintro ⟨-, hnewer, hes⟩
    exact ⟨hnewer h, hes⟩
  · rintro ⟨hnewer, hes⟩
    exact ⟨False.elim, fun _ => hnewer, hes⟩

theorem apart_behind {s : Nat} (g : Entry) (gs : List Entry) :
    Apart s True (g :: gs) ↔ s < g.number ∧ Apart s False gs := by
  by_cases hg : g.number ≤ s
  · rw [apart_of_le hg]
    simp [Nat.not_lt.2 hg]
  · rw [apart_of_lt (Nat.lt_of_not_le hg)]
    simp [Nat.lt_of_not_le hg]

/-- A part of the rest is not all of what is newer. -/
theorem ne_newer_of_sublist {s : Nat} {e : Entry} {es fs : List Entry} (he : s < e.number) (hfs : fs.Sublist es) :
    fs ≠ newer s (e :: es) := by
  intro h
  have hlen : (fs.filter fun e => s < e.number).length ≤ (es.filter fun e => s < e.number).length :=
    (hfs.filter _).length_le
  rw [h] at hlen
  unfold newer at hlen
  rw [List.filter_filter, List.filter_cons_of_pos (by simpa using he)] at hlen
  simp only [Bool.and_self, List.length_cons] at hlen
  omega

theorem newer_of_lt {s : Nat} {e : Entry} (h : s < e.number) (es : List Entry) : newer s (e :: es) = e :: newer s es :=
  List.filter_cons_of_pos (by simpa using h)

theorem newer_of_le {s : Nat} {e : Entry} (h : e.number ≤ s) (es : List Entry) : newer s (e :: es) = newer s es :=
  List.filter_cons_of_neg (by simpa using h)

/-- What stays is newer. -/
theorem lt_of_cons_eq_newer {s : Nat} {e : Entry} {es fs : List Entry} (h : e :: fs = newer s es) : s < e.number := by
  have hmem : e ∈ newer s es := by
    rw [← h]
    exact List.mem_cons_self
  simpa using (List.mem_filter.1 hmem).2

/-- A newer entry that is erased is missing, also when an equal one stays. -/
theorem sweep_iff_of_erased {s : Nat} {e : Entry} {es fs : List Entry} (h : e.number % 256 ≤ s % 256)
    (hlt : s < e.number) (hfs : fs.Sublist es) : fs = newer s (e :: es) ↔ Apart s False (e :: es) := by
  rw [apart_of_lt hlt]
  constructor
  · intro heq
    exact absurd heq (ne_newer_of_sublist hlt hfs)
  · rintro ⟨hnewer | hnone, -⟩
    · omega
    · exact hnone.elim

/-- What the loop leaves is right exactly if the entries are apart: by the places at which the iterator stands. -/
theorem sweep_iff (s : Nat) (es : List Entry) :
    sweep (fun e => e.cntFrame) (s % 256 : Nat) es = newer s es ↔ Apart s False es := by
  fun_induction sweep (fun e : Entry => e.cntFrame) (s % 256 : Nat) es with
  | case1 => exact ⟨fun _ => trivial, fun _ => rfl⟩
  | case2 f h =>
    rw [f.counted, Int.ofNat_le] at h
    by_cases hf : f.number ≤ s
    · rw [newer_of_le hf, apart_of_le hf]
      exact ⟨fun _ => ⟨⟨h, not_false⟩, trivial⟩, fun _ => rfl⟩
    · exact sweep_iff_of_erased h (Nat.lt_of_not_le hf) (List.Sublist.refl [])
  | case3 f h g gs ih =>
    rw [f.counted, Int.ofNat_le] at h
    by_cases hf : f.number ≤ s
    · -- `g` is passed over, which is right for a newer one
      rw [newer_of_le hf, apart_of_le hf, apart_behind, ← ih]
      constructor
      · intro heq
        have hg := lt_of_cons_eq_newer heq
        rw [newer_of_lt hg, List.cons.injEq] at heq
        exact ⟨⟨h, not_false⟩, hg, heq.2⟩
      · rintro ⟨-, hg, hgs⟩
        rw [newer_of_lt hg, hgs]
    · exact sweep_iff_of_erased h (Nat.lt_of_not_le hf) ((sweep_sublist _ _ gs).cons_cons g)
  | case4 f fs h ih =>
    rw [f.counted, Int.ofNat_le] at h
    by_cases hf : f.number ≤ s
    · rw [apart_of_le hf]
      constructor
      · intro heq
        exact absurd (lt_of_cons_eq_newer heq) (Nat.not_lt.2 hf)
      · rintro ⟨⟨holder, -⟩, -⟩
        exact absurd holder h
    · have hlt := Nat.lt_of_not_le hf
      rw [newer_of_lt hlt, apart_of_lt hlt, List.cons.injEq, ← ih]
      constructor
      · rintro ⟨-, hfs⟩
        exact ⟨Or.inl (Nat.lt_of_not_le h), hfs⟩
      · rintro ⟨-, hfs⟩
        exact ⟨rfl, hfs⟩

/-- The loop leaves the newer frames exactly if the entries are apart. -/
theorem cleanUp_iff (s : Nat) (es : List Entry) :
    cleanUp (fun e => e.cntFrame) (s % 256 : Nat) es 0 = some (newer s es) ↔ Apart s False es := by
  have h := cleanUp_eq_sweep (fun e : Entry => e.cntFrame) (s % 256 : Nat) [] es
  rw [List.nil_append, List.length_nil, List.nil_append] at h
  rw [h, Option.some.injEq, sweep_iff]

/-- An entry of a frame of two messages, of which some were received. -/
def ofNumber (number rxMsgs : Nat) : Entry := ⟨⟨0, (number % 256 : Nat), 2, rxMsgs, fun _ => 0⟩, number, rfl⟩

/-- The second of three frames stays when the third is complete. -/
theorem cleanUp_neighbours :
    cleanUp (fun e => e.cntFrame) (3 % 256 : Nat) [ofNumber 1 1, ofNumber 2 1, ofNumber 3 2] 0 ≠
      some (newer 3 [ofNumber 1 1, ofNumber 2 1, ofNumber 3 2]) := by
  have h := cleanUp_eq_sweep (fun e : Entry => e.cntFrame) (3 % 256 : Nat) [] [ofNumber 1 1, ofNumber 2 1, ofNumber 3 2]
  rw [List.nil_append, List.length_nil, List.nil_append] at h
  rw [h, ne_eq, Option.some.injEq, sweep_iff]
  rintro ⟨-, -, hsecond, -⟩
  exact (hsecond (by decide)).2 (by decide)

end RcCarControl.Video
