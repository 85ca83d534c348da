import RcCarControl.Daemon.SelectSet

/-!
# Descriptors and connections

The two threads of `SelectSet` over the descriptors that the kernel has open.  `accept` gives a number that is not open, and
`removeClient` first closes the descriptor of its connection and then erases the entry; in between the number is free and
`accept` may give it out again.

`addClient` looks at no number, so the list is sound (`Sound`) exactly as long as `accept` gives only numbers that fit in a
set and are not in the list (`sound_iff_fresh`).
-/

namespace RcCarControl.Daemon

open Interface Lts

/-! ### The system -/

structure Descriptors where
  threads : SelectThread
  /-- The descriptors that are open. -/
  opened : List Int
  /-- The index of the entry that `removeClient` has closed and is about to erase. -/
  closing : Option Nat
deriving DecidableEq

inductive DescriptorEvent where
  /-- `accept` has returned, and the entry is appended. -/
  | accept (fd : Int)
  /-- `removeClient` closes the descriptor of the connection at index `i`. -/
  | close (i : Nat)
  | erase
  /-- Any other step of the two threads. -/
  | thread (e : SelectEvent)

/-- What is done to the list has events of its own. -/
def SelectEvent.keepsList : SelectEvent → Bool
  | .pushBack _ | .erase _ => false
  | _ => true

/-- The step is the accept thread's. -/
def SelectEvent.accepts : SelectEvent → Bool
  | .pushBack _ | .update => true
  | _ => false

namespace Descriptors

variable (d : Descriptors)

def step : DescriptorEvent → Option Descriptors
  | .accept fd =>
    if fd < 0 then (d.threads.step (.pushBack fd)).map fun t => { d with threads := t }
    else if fd ∈ d.opened then none
    else (d.threads.step (.pushBack fd)).map fun t => { d with threads := t, opened := fd :: d.opened }
  | .close i =>
    match d.threads.mConnClients[i]? with
    | some c =>
      if d.closing = none ∧ d.threads.stage = .serve ∧ c.fd ∈ d.threads.fullSet then
        some { d with opened := d.opened.erase c.fd, closing := some i }
      else none
    | none => none
  | .erase =>
    match d.closing with
    | some i => (d.threads.step (.erase i)).map fun t => { d with threads := t, closing := none }
    | none => none
  | .thread e =>
    -- the select thread goes on when the entry is erased
    if e.keepsList ∧ (e.accepts ∨ d.closing = none) then (d.threads.step e).map fun t => { d with threads := t }
    else none

/-- The threads of an opened server, whose own descriptors are open. -/
def started (fullSet : Finset Int) (maxFd : Int) (opened : List Int) : Descriptors where
  threads := .opened fullSet maxFd
  opened := opened
  closing := none

/-! ### What the threads go by -/

/-- A descriptor that is open and fits in a set. -/
def Valid (fd : Int) : Prop := InSet fd ∧ fd ∈ d.opened

/-- Every entry has a valid descriptor, the one that is being removed apart, and no two have the same. -/
structure Sound (d : Descriptors) : Prop where
  valid : ∀ i c, d.threads.mConnClients[i]? = some c → d.Valid c.fd ∨ InSet c.fd ∧ d.closing = some i
  distinct : d.threads.fds.Nodup

/-- `FD_SET` at a turn of the rebuild, `FD_ISSET` at the entries up to the one that is served and `read` from it are on
valid descriptors, and what is erased is the entry that was closed. -/
def UsesValid (e : DescriptorEvent) : Prop :=
  ∀ t, d.step e = some t →
    match e with
    | .thread .walk => ∀ c ∈ d.threads.mConnClients[d.threads.it]?, d.Valid c.fd
    | .thread .served => ∀ c ∈ d.threads.mConnClients, d.Valid c.fd
    | .close i => ∀ c ∈ d.threads.mConnClients.take (i + 1), d.Valid c.fd
    | .erase => ∀ i ∈ d.closing, t.threads.mConnClients = d.threads.mConnClients.eraseIdx i
    | _ => True

/-- `accept` gives a number that fits in a set and that no entry has. -/
def Fresh (e : DescriptorEvent) : Prop :=
  match e with
  | .accept fd => InSet fd ∧ fd ∉ d.threads.fds
  | _ => True

/-! ### Steps -/

variable {d}

theorem thread_conns {s t : SelectThread} {e : SelectEvent} (he : e.keepsList = true) (h : s.step e = some t) :
    t.mConnClients = s.mConnClients := by
  cases e with
  | pushBack fd => cases he
  | erase i => cases he
  | walk =>
    simp only [SelectThread.step, Option.ite_none_right_eq_some] at h
    obtain ⟨-, h⟩ := h
    split at h
    · cases h
      rfl
    · cases h
      rfl
  | update | start | test | zero | store | select | served | erased =>
    simp only [SelectThread.step, Option.ite_none_right_eq_some, Option.some.injEq] at h
    obtain ⟨-, rfl⟩ := h
    rfl

/-- The first entry with the descriptor of an entry is the entry. -/
theorem eraseP_eq_eraseIdx {conns : List ClientInfo} (h : (conns.map (·.fd)).Nodup) {i : Nat} {c : ClientInfo}
    (hc : conns[i]? = some c) : conns.eraseP (fun it => it.fd = c.fd) = conns.eraseIdx i := by
  induction conns generalizing i with
  | nil => cases hc
  | cons c' conns ih =>
    rw [List.map_cons, List.nodup_cons] at h
    cases i with
    | zero =>
      cases hc
      rw [List.eraseP_cons_of_pos (by simp)]
      rfl
    | succ i =>
      have hmem : c.fd ∈ conns.map (·.fd) := List.mem_map_of_mem (List.mem_of_getElem? hc)
      have hne : ¬ c'.fd = c.fd := fun heq => h.1 (heq ▸ hmem)
      rw [List.eraseP_cons_of_neg (by simpa using hne), ih h.2 hc]
      rfl

theorem step_cases {t : Descriptors} {e : DescriptorEvent} (h : d.step e = some t) :
    (∃ fd, e = .accept fd ∧ (0 ≤ fd → fd ∉ d.opened) ∧
        t.threads.mConnClients = d.threads.mConnClients ++ [⟨fd, rcciClientFlagNone⟩] ∧
          t.opened = (if fd < 0 then d.opened else fd :: d.opened) ∧ t.closing = d.closing) ∨
      (∃ i c, e = .close i ∧ d.threads.mConnClients[i]? = some c ∧ d.closing = none ∧
        t = { d with opened := d.opened.erase c.fd, closing := some i }) ∨
      (∃ i c, e = .erase ∧ d.closing = some i ∧ d.threads.mConnClients[i]? = some c ∧
        t.threads.mConnClients = d.threads.mConnClients.eraseP (fun it => it.fd = c.fd) ∧ t.opened = d.opened ∧
          t.closing = none) ∨
      (∃ e', e = .thread e' ∧ (e'.accepts = true ∨ d.closing = none) ∧ t.threads.mConnClients = d.threads.mConnClients ∧
        t.opened = d.opened ∧ t.closing = d.closing) := by
  cases e with
  | accept fd =>
    left
    have hpush {u : SelectThread} (hu : d.threads.step (.pushBack fd) = some u) :
        u.mConnClients = d.threads.mConnClients ++ [⟨fd, rcciClientFlagNone⟩] := by
      simp only [SelectThread.step, Option.ite_none_left_eq_some, Option.some.injEq] at hu
      obtain ⟨-, rfl⟩ := hu
      rfl
    unfold step at h
    simp only at h
    split at h
    · next hneg =>
      obtain ⟨u, hu, rfl⟩ := Option.map_eq_some_iff.1 h
      exact ⟨fd, rfl, fun h0 => by omega, hpush hu, by rw [if_pos hneg], rfl⟩
    · next hpos =>
      rw [Option.ite_none_left_eq_some] at h
      obtain ⟨hopen, h⟩ := h
      obtain ⟨u, hu, rfl⟩ := Option.map_eq_some_iff.1 h
      exact ⟨fd, rfl, fun _ => hopen, hpush hu, by rw [if_neg hpos], rfl⟩
  | close i =>
    right; left
    unfold step at h
    simp only at h
    split at h
    · next c hc =>
      rw [Option.ite_none_right_eq_some, Option.some.injEq] at h
      obtain ⟨hcl, rfl⟩ := h
      exact ⟨i, c, rfl, hc, hcl.1, rfl⟩
    · cases h
  | erase =>
    right; right; left
    unfold step at h
    simp only at h
    split at h
    · next i hi =>
      obtain ⟨u, hu, rfl⟩ := Option.map_eq_some_iff.1 h
      unfold SelectThread.step at hu
      simp only at hu
      split at hu
      · next c hc =>
        rw [Option.ite_none_right_eq_some, Option.some.injEq] at hu
        obtain ⟨-, rfl⟩ := hu
        exact ⟨i, c, rfl, hi, hc, rfl, rfl, rfl⟩
      · cases hu
    · cases h
  | thread e' =>
    right; right; right
    simp only [step, Option.ite_none_right_eq_some] at h
    obtain ⟨⟨hkeeps, hgo⟩, h⟩ := h
    obtain ⟨u, hu, rfl⟩ := Option.map_eq_some_iff.1 h
    exact ⟨e', rfl, hgo, thread_conns hkeeps hu, rfl, rfl⟩

/-! ### Soundness -/

theorem Sound.accept {t : Descriptors} (h : d.Sound) {fd : Int} (hopen : 0 ≤ fd → fd ∉ d.opened)
    (hconns : t.threads.mConnClients = d.threads.mConnClients ++ [⟨fd, rcciClientFlagNone⟩])
    (hopened : t.opened = if fd < 0 then d.opened else fd :: d.opened) (hclosing : t.closing = d.closing) :
    t.Sound ↔ InSet fd ∧ fd ∉ d.threads.fds := by
  have hfds : t.threads.fds = d.threads.fds ++ [fd] := by
    unfold SelectThread.fds
    rw [hconns, List.map_append]
    rfl
  constructor
  · intro ht
    have hlast : t.threads.mConnClients[d.threads.mConnClients.length]? = some ⟨fd, rcciClientFlagNone⟩ := by
      rw [hconns]
      simp
    constructor
    · rcases ht.valid _ _ hlast with hv | hv
      · exact hv.1
      · exact hv.1
    · have hdistinct := ht.distinct
      rw [hfds, List.nodup_append] at hdistinct
      intro hmem
      exact hdistinct.2.2 fd hmem fd (List.mem_singleton_self fd) rfl
  · rintro ⟨hset, hfresh⟩
    have hpos : ¬ fd < 0 := Int.not_lt.2 hset.1
    rw [if_neg hpos] at hopened
    constructor
    · intro i c hc
      rw [hconns] at hc
      rw [hclosing]
      unfold Valid
      rw [hopened]
      rcases Nat.lt_or_ge i d.threads.mConnClients.length with hlt | hge
      · rw [List.getElem?_append_left hlt] at hc
        rcases h.valid i c hc with hv | hv
        · exact Or.inl ⟨hv.1, List.mem_cons_of_mem _ hv.2⟩
        · exact Or.inr hv
      · rw [List.getElem?_append_right hge] at hc
        have hc' := List.mem_of_getElem? hc
        rw [List.mem_singleton] at hc'
        subst hc'
        exact Or.inl ⟨hset, List.mem_cons_self⟩
    · rw [hfds, List.nodup_append]
      refine ⟨h.distinct, List.nodup_singleton fd, fun a ha b hb heq => ?_⟩
      rw [List.mem_singleton] at hb
      subst hb
      exact hfresh (heq ▸ ha)

/-- Closing a descriptor keeps the others open. -/
theorem Sound.close (h : d.Sound) {i : Nat} {c : ClientInfo} (hc : d.threads.mConnClients[i]? = some c)
    (hcl : d.closing = none) : Sound { d with opened := d.opened.erase c.fd, closing := some i } := by
  refine ⟨fun j c' hc' => ?_, h.distinct⟩
  have hv := (h.valid j c' hc').resolve_right (by simp [hcl])
  by_cases hij : j = i
  · right
    exact ⟨hv.1, by rw [hij]⟩
  · left
    have hne : c'.fd ≠ c.fd := by
      intro heq
      have hdistinct := h.distinct
      unfold SelectThread.fds at hdistinct
      have hj : (d.threads.mConnClients.map (·.fd))[j]? = some c.fd := by simp [hc', heq]
      have hi : (d.threads.mConnClients.map (·.fd))[i]? = some c.fd := by simp [hc]
      obtain ⟨hlt, -⟩ := List.getElem?_eq_some_iff.1 hj
      exact hij ((List.getElem?_inj hlt hdistinct).1 (hj.trans hi.symm))
    exact ⟨hv.1, (List.mem_erase_of_ne hne).2 hv.2⟩

theorem Sound.erase {t : Descriptors} (h : d.Sound) {i : Nat} (hcl : d.closing = some i)
    (hconns : t.threads.mConnClients = d.threads.mConnClients.eraseIdx i) (hopened : t.opened = d.opened) : t.Sound := by
  constructor
  · intro j c hc
    rw [hconns, List.getElem?_eraseIdx] at hc
    unfold Valid
    rw [hopened]
    left
    split at hc
    · next hji =>
      refine (h.valid j c hc).resolve_right fun hv => ?_
      have := hv.2
      rw [hcl, Option.some.injEq] at this
      omega
    · next hji =>
      refine (h.valid (j + 1) c hc).resolve_right fun hv => ?_
      have := hv.2
      rw [hcl, Option.some.injEq] at this
      omega
  · unfold SelectThread.fds
    rw [hconns]
    exact h.distinct.sublist ((List.eraseIdx_sublist _ _).map _)

theorem Sound.congr {t : Descriptors} (hconns : t.threads.mConnClients = d.threads.mConnClients)
    (hopened : t.opened = d.opened) (hclosing : t.closing = d.closing) (h : d.Sound) : t.Sound := by
  refine ⟨fun i c hc => ?_, ?_⟩
  · unfold Valid
    rw [hopened, hclosing]
    exact h.valid i c (hconns ▸ hc)
  · unfold SelectThread.fds
    rw [hconns]
    exact h.distinct

/-- One step from a sound list: it stays sound exactly if an accepted number is fresh. -/
theorem sound_step {t : Descriptors} {e : DescriptorEvent} (h : d.Sound) (hs : d.step e = some t) :
    t.Sound ↔ d.Fresh e := by
  rcases step_cases hs with ⟨fd, rfl, hopen, hconns, hopened, hclosing⟩ | ⟨i, c, rfl, hc, hcl, rfl⟩ |
    ⟨i, c, rfl, hcl, hc, hconns, hopened, -⟩ | ⟨e', rfl, -, hconns, hopened, hclosing⟩
  · exact h.accept hopen hconns hopened hclosing
  · exact iff_of_true (h.close hc hcl) trivial
  · rw [eraseP_eq_eraseIdx h.distinct hc] at hconns
    exact iff_of_true (h.erase hcl hconns hopened) trivial
  · exact iff_of_true (h.congr hconns hopened hclosing) trivial

/-- Before an entry is closed all of a sound list are valid. -/
theorem Sound.valid_of_open (h : d.Sound) (hcl : d.closing = none) {c : ClientInfo} (hc : c ∈ d.threads.mConnClients) :
    d.Valid c.fd := by
  obtain ⟨i, hi⟩ := List.mem_iff_getElem?.1 hc
  exact (h.valid i c hi).resolve_right (by simp [hcl])

/-- From a sound list only valid descriptors are used. -/
theorem Sound.usesValid (h : d.Sound) (e : DescriptorEvent) : d.UsesValid e := by
  intro t hs
  rcases step_cases hs with ⟨fd, rfl, -⟩ | ⟨i, c, rfl, -, hcl, -⟩ | ⟨i, c, rfl, hcl, hc, hconns, -⟩ |
    ⟨e', rfl, hgo, -⟩
  · trivial
  · intro c' hc'
    exact h.valid_of_open hcl (List.mem_of_mem_take hc')
  · intro j hj
    rw [hcl] at hj
    cases hj
    rw [hconns, eraseP_eq_eraseIdx h.distinct hc]
  · cases e' with
    | walk =>
      intro c hc
      exact h.valid_of_open (hgo.resolve_left (by simp [SelectEvent.accepts])) (List.mem_of_getElem? hc)
    | served =>
      intro c hc
      exact h.valid_of_open (hgo.resolve_left (by simp [SelectEvent.accepts])) hc
    | _ => trivial

/-! ### Runs -/

theorem sound_started (fullSet : Finset Int) (maxFd : Int) (opened : List Int) : (started fullSet maxFd opened).Sound := by
  refine ⟨fun i c hc => ?_, List.nodup_nil⟩
  cases hc

/-- The list is sound and used soundly in a run exactly if every accepted number is fresh. -/
theorem sound_iff_fresh (fullSet : Finset Int) (maxFd : Int) (opened : List Int) {es : List DescriptorEvent}
    {d : Descriptors} (h : exec step (started fullSet maxFd opened) es = some d) :
    (StatesMeet step Sound (started fullSet maxFd opened) es ∧ StepsMeet step UsesValid (started fullSet maxFd opened) es) ↔
      StepsMeet step Fresh (started fullSet maxFd opened) es := by
  have h₀ := sound_started fullSet maxFd opened
  have hiff : StatesMeet step Sound (started fullSet maxFd opened) es ↔
      StepsMeet step Fresh (started fullSet maxFd opened) es :=
    statesMeet_iff_stepsMeet (fun _ _ _ (_ : True) _ => trivial) (fun _ _ _ _ hs ht => sound_step hs ht) trivial h₀ h
  rw [hiff, and_iff_left_iff_imp]
  intro hfresh
  exact hfresh.of_invariant (fun _ _ _ hs he ht => (sound_step hs ht).2 he) (fun _ e hs _ => hs.usesValid e) h₀

/-- A client connects, closes, and the next one gets its number. -/
def reconnect : List DescriptorEvent :=
  [.accept 6, .thread .update, .thread .start, .thread .test, .thread .zero, .thread .walk, .thread .walk, .thread .store,
    .thread .select, .close 0, .erase, .accept 6]

instance (fd : Int) : Decidable (d.Valid fd) := inferInstanceAs (Decidable (_ ∧ _))

instance (e : DescriptorEvent) : Decidable (d.Fresh e) := by
  unfold Fresh
  cases e <;> infer_instance

theorem sound_iff_fresh_reconnect : ∃ d, exec step (started ∅ 0 [0, 1, 2, 3]) reconnect = some d ∧
    ((StatesMeet step Sound (started ∅ 0 [0, 1, 2, 3]) reconnect ∧
        StepsMeet step UsesValid (started ∅ 0 [0, 1, 2, 3]) reconnect) ↔
      StepsMeet step Fresh (started ∅ 0 [0, 1, 2, 3]) reconnect) := by
  obtain ⟨d, hd⟩ := Option.isSome_iff_exists.1
    (show (exec step (started ∅ 0 [0, 1, 2, 3]) reconnect).isSome = true by decide)
  exact ⟨d, hd, sound_iff_fresh ∅ 0 [0, 1, 2, 3] hd⟩

/-- `accept` fails, and the list has a descriptor -1. -/
theorem not_sound_failed_accept : ∃ d, exec step (started ∅ 0 [0, 1, 2, 3]) [.accept (-1)] = some d ∧
    d.threads.fds = [-1] ∧ ¬ d.Sound := by
  refine ⟨⟨⟨[⟨-1, rcciClientFlagNone⟩], false, ∅, 0, .start, 0, true⟩, [0, 1, 2, 3], none⟩, by decide, rfl, fun h => ?_⟩
  rcases h.valid 0 ⟨-1, rcciClientFlagNone⟩ rfl with hv | hv
  · exact absurd hv.1 (by decide)
  · exact absurd hv.1 (by decide)

end Descriptors

end RcCarControl.Daemon
