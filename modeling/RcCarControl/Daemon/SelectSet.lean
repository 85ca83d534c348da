import Mathlib.Data.Finset.Dedup
import Mathlib.Data.Finset.Insert
import RcCarControl.Daemon.Requests

/-!
# The descriptors the select thread listens to

The accept thread appends to `mConnClients` and then stores true to `mSelectThreadUpdate`; the select thread tests the flag,
rebuilds `fullSet` from the list and then stores false.  Each of these is one event here, in any order the two threads
allow, and nothing keeps a client that is accepted behind the rebuild's walk from losing its update to the store of false.
-/

namespace RcCarControl.Daemon

open Interface Lts

/-- `FD_SETSIZE`. -/
def fdSetsize : Int := 1024

/-- A descriptor that a `fd_set` can hold. -/
def InSet (fd : Int) : Prop := 0 ≤ fd ∧ fd < fdSetsize

instance (fd : Int) : Decidable (InSet fd) := inferInstanceAs (Decidable (_ ∧ _))

/-- `FD_SET`; for other descriptors it writes besides the set. -/
def fdSet (fd : Int) (set : Finset Int) : Finset Int := if InSet fd then insert fd set else set

/-- Where the select thread stands. -/
inductive SelectStage where
  | start
  | test
  | zero
  | walk
  | store
  | select
  | serve
  | erased
deriving DecidableEq

/-- The two threads, with the locals `fullSet` and `maxFd` of `selectThread`. -/
structure SelectThread where
  mConnClients : List ClientInfo
  mSelectThreadUpdate : Bool
  fullSet : Finset Int
  maxFd : Int
  stage : SelectStage
  /-- The iterator of the rebuild, and behind it how many entries it has met. -/
  it : Nat
  /-- The accept thread has appended its client and not stored true yet. -/
  accepting : Bool
deriving DecidableEq

inductive SelectEvent where
  | pushBack (fd : Int)
  | update
  | start
  | test
  | zero
  /-- One turn of the rebuild's loop. -/
  | walk
  | store
  | select
  /-- No connection has data, or the one that is served stays. -/
  | served
  /-- `removeClient` erases the connection at index `i`, whose end of file was read. -/
  | erase (i : Nat)
  | erased

namespace SelectThread

variable (s : SelectThread)

/-- The threads of an opened server; the locals are not initialized. -/
def opened (fullSet : Finset Int) (maxFd : Int) : SelectThread where
  mConnClients := []
  mSelectThreadUpdate := false
  fullSet := fullSet
  maxFd := maxFd
  stage := .start
  it := 0
  accepting := false

def step : SelectEvent → Option SelectThread
  | .pushBack fd =>
    if s.accepting then none
    else some { s with mConnClients := s.mConnClients ++ [⟨fd, rcciClientFlagNone⟩], accepting := true }
  | .update => if s.accepting then some { s with mSelectThreadUpdate := true, accepting := false } else none
  | .start => if s.stage = .start then some { s with mSelectThreadUpdate := true, stage := .test } else none
  | .test =>
    if s.stage = .test then some { s with stage := if s.mSelectThreadUpdate then .zero else .select } else none
  | .zero => if s.stage = .zero then some { s with fullSet := ∅, maxFd := 0, it := 0, stage := .walk } else none
  | .walk =>
    if s.stage = .walk then
      match s.mConnClients[s.it]? with
      | some c =>
        some { s with
          fullSet := fdSet c.fd s.fullSet
          maxFd := if s.maxFd > c.fd then s.maxFd else c.fd
          it := s.it + 1 }
      | none => some { s with stage := .store }
    else none
  | .store => if s.stage = .store then some { s with mSelectThreadUpdate := false, stage := .select } else none
  | .select => if s.stage = .select then some { s with stage := .serve } else none
  | .served => if s.stage = .serve then some { s with stage := .test } else none
  | .erase i =>
    match s.mConnClients[i]? with
    | some c =>
      if s.stage = .serve ∧ c.fd ∈ s.fullSet then
        some { s with mConnClients := s.mConnClients.eraseP fun it => it.fd = c.fd, stage := .erased }
      else none
    | none => none
  | .erased => if s.stage = .erased then some { s with mSelectThreadUpdate := true, stage := .test } else none

/-! ### What `select` is called with -/

/-- `m` is the greatest of the descriptors, and 0 if there is none. -/
def Greatest (m : Int) (fds : List Int) : Prop := (∀ fd ∈ fds, fd ≤ m) ∧ (m ∈ fds ∨ fds = [] ∧ m = 0)

/-- `fullSet` and `maxFd` are those of the list of descriptors. -/
def Lists (fds : List Int) : Prop := s.fullSet = fds.toFinset ∧ Greatest s.maxFd fds

def fds : List Int := s.mConnClients.map (·.fd)

/-- A call of `select` without an update pending listens to every connection. -/
def Listens (e : SelectEvent) : Prop :=
  match e with
  | .select => s.stage = .select → s.mSelectThreadUpdate = false → s.Lists s.fds
  | _ => True

/-- The entries that the last walk has not met, except for one whose store of true is still to come. -/
def missed : Nat := s.mConnClients.length - s.it - if s.accepting then 1 else 0

/-- `accept` has returned a descriptor for the set; no entry behind the walk has stored true when false is stored; and
`select` is not called without an update pending while an entry behind the walk is about to store true. -/
def Timely (e : SelectEvent) : Prop :=
  match e with
  | .pushBack fd => InSet fd
  | .store => s.missed = 0
  | .select => s.mSelectThreadUpdate = false → s.accepting = true → s.mConnClients.length ≤ s.it
  | _ => True

instance (m : Int) (fds : List Int) : Decidable (Greatest m fds) := inferInstanceAs (Decidable (_ ∧ _))

instance (fds : List Int) : Decidable (s.Lists fds) := inferInstanceAs (Decidable (_ ∧ _))

instance (e : SelectEvent) : Decidable (s.Listens e) := by
  unfold Listens
  cases e <;> infer_instance

instance (e : SelectEvent) : Decidable (s.Timely e) := by
  unfold Timely
  cases e <;> infer_instance

/-! ### The rebuild -/

/-- The entries that the walk has met. -/
def met : List Int := (s.mConnClients.take s.it).map (·.fd)

/-- The walk has met the first `it` entries, and the locals are those of their descriptors. -/
def Built : Prop := s.it ≤ s.mConnClients.length ∧ s.Lists s.met

variable {s}

theorem Greatest.append {m fd : Int} {fds : List Int} (h : Greatest m fds) (hfd : 0 ≤ fd) :
    Greatest (if m > fd then m else fd) (fds ++ [fd]) := by
  obtain ⟨hle, hmem⟩ := h
  constructor
  · intro fd' hfd'
    rcases List.mem_append.1 hfd' with hfd' | hfd'
    · have := hle fd' hfd'
      split <;> omega
    · rw [List.mem_singleton.1 hfd']
      split <;> omega
  · left
    split
    · next hlt =>
      rcases hmem with hmem | ⟨-, h0⟩
      · exact List.mem_append_left _ hmem
      · omega
    · exact List.mem_append_right _ (List.mem_singleton_self fd)

/-- One turn of the loop keeps the locals those of the entries met. -/
theorem Built.walk (h : s.Built) {c : ClientInfo} (hc : s.mConnClients[s.it]? = some c) (hfd : InSet c.fd) :
    Built { s with
      fullSet := fdSet c.fd s.fullSet
      maxFd := if s.maxFd > c.fd then s.maxFd else c.fd
      it := s.it + 1 } := by
  obtain ⟨-, hset, hmax⟩ := h
  obtain ⟨hlt, -⟩ := List.getElem?_eq_some_iff.1 hc
  refine ⟨hlt, ?_⟩
  have hmet : (s.mConnClients.take (s.it + 1)).map (·.fd) = s.met ++ [c.fd] := by
    simp [met, List.take_add_one, hc]
  unfold Lists
  rw [met, hmet, hset, fdSet, if_pos hfd]
  refine ⟨?_, hmax.append hfd.1⟩
  ext fd
  rw [Finset.mem_insert, List.mem_toFinset, List.mem_toFinset, List.mem_append, List.mem_singleton]
  exact or_comm

theorem built_zero (s : SelectThread) : Built { s with fullSet := ∅, maxFd := 0, it := 0, stage := .walk } := by
  refine ⟨Nat.zero_le _, rfl, ?_, Or.inr ⟨rfl, rfl⟩⟩
  intro fd hmem
  cases hmem

/-- Nothing that the accept thread does changes the entries met. -/
theorem Built.pushBack (h : s.Built) (c : ClientInfo) :
    Built { s with mConnClients := s.mConnClients ++ [c], accepting := true } := by
  obtain ⟨hle, hlists⟩ := h
  refine ⟨?_, ?_⟩
  · simp only [List.length_append]
    omega
  · have hmet : (s.mConnClients ++ [c]).take s.it = s.mConnClients.take s.it := List.take_append_of_le_length hle
    simpa only [Lists, met, hmet] using hlists

/-- If the walk has met every entry, the locals are those of the list. -/
theorem Built.lists (h : s.Built) (hit : s.mConnClients.length ≤ s.it) : s.Lists s.fds := by
  have hmet : s.met = s.fds := by
    unfold met fds
    rw [List.take_of_length_le hit]
  exact hmet ▸ h.2

/-! ### Runs -/

/-- The descriptors are good; from the rebuild to the call of `select` the locals are those of the entries met, and without
an update pending at most a client that is being accepted was not met. -/
structure Inv (s : SelectThread) : Prop where
  inSet : ∀ c ∈ s.mConnClients, InSet c.fd
  built : s.stage = .walk ∨ s.stage = .store ∨ s.stage = .select ∨ s.stage = .serve → s.Built
  idle : s.stage = .select ∨ s.stage = .serve ∨ s.stage = .test → s.mSelectThreadUpdate = false → s.Built ∧ s.missed = 0

/-- Without an update pending the flag is not touched by a client that is appended: it is the one being accepted. -/
theorem Inv.pushBack (h : s.Inv) (ha : s.accepting = false) {fd : Int} (hfd : InSet fd) :
    Inv { s with mConnClients := s.mConnClients ++ [⟨fd, rcciClientFlagNone⟩], accepting := true } := by
  constructor
  · intro c hc
    rcases List.mem_append.1 hc with hc | hc
    · exact h.inSet c hc
    · rw [List.mem_singleton.1 hc]
      exact hfd
  · intro hstage
    exact (h.built hstage).pushBack _
  · intro hstage hflag
    obtain ⟨hb, hm⟩ := h.idle hstage hflag
    refine ⟨hb.pushBack _, ?_⟩
    simp only [missed, ha, List.length_append, List.length_singleton] at hm ⊢
    simp only [Bool.false_eq_true, if_false, if_true] at hm ⊢
    omega

theorem Inv.step {t : SelectThread} {e : SelectEvent} (h : s.Inv) (he : s.Timely e) (ht : s.step e = some t) : t.Inv := by
  cases e with
  | pushBack fd =>
    simp only [SelectThread.step, Option.ite_none_left_eq_some, Bool.not_eq_true, Option.some.injEq] at ht
    obtain ⟨ha, rfl⟩ := ht
    exact h.pushBack ha he
  | update =>
    simp only [SelectThread.step, Option.ite_none_right_eq_some, Option.some.injEq] at ht
    obtain ⟨-, rfl⟩ := ht
    exact ⟨h.inSet, h.built, fun _ hflag => by cases hflag⟩
  | start =>
    simp only [SelectThread.step, Option.ite_none_right_eq_some, Option.some.injEq] at ht
    obtain ⟨-, rfl⟩ := ht
    exact ⟨h.inSet, by simp, fun _ hflag => by cases hflag⟩
  | test =>
    simp only [SelectThread.step, Option.ite_none_right_eq_some, Option.some.injEq] at ht
    obtain ⟨hstage, rfl⟩ := ht
    cases hflag : s.mSelectThreadUpdate with
    | true => exact ⟨h.inSet, by simp, by simp⟩
    | false =>
      have hidle := h.idle (Or.inr (Or.inr hstage)) hflag
      exact ⟨h.inSet, fun _ => hidle.1, fun _ _ => hidle⟩
  | zero =>
    simp only [SelectThread.step, Option.ite_none_right_eq_some, Option.some.injEq] at ht
    obtain ⟨-, rfl⟩ := ht
    exact ⟨h.inSet, fun _ => built_zero s, by simp⟩
  | walk =>
    simp only [SelectThread.step, Option.ite_none_right_eq_some] at ht
    obtain ⟨hstage, ht⟩ := ht
    have hb := h.built (Or.inl hstage)
    cases hc : s.mConnClients[s.it]? with
    | some c =>
      rw [hc] at ht
      cases ht
      exact ⟨h.inSet, fun _ => hb.walk hc (h.inSet c (List.mem_of_getElem? hc)), by simp [hstage]⟩
    | none =>
      rw [hc] at ht
      cases ht
      exact ⟨h.inSet, fun _ => hb, by simp⟩
  | store =>
    simp only [SelectThread.step, Option.ite_none_right_eq_some, Option.some.injEq] at ht
    obtain ⟨hstage, rfl⟩ := ht
    have hb := h.built (Or.inr (Or.inl hstage))
    exact ⟨h.inSet, fun _ => hb, fun _ _ => ⟨hb, he⟩⟩
  | select =>
    simp only [SelectThread.step, Option.ite_none_right_eq_some, Option.some.injEq] at ht
    obtain ⟨hstage, rfl⟩ := ht
    exact ⟨h.inSet, fun _ => h.built (Or.inr (Or.inr (Or.inl hstage))), fun _ => h.idle (Or.inl hstage)⟩
  | served =>
    simp only [SelectThread.step, Option.ite_none_right_eq_some, Option.some.injEq] at ht
    obtain ⟨hstage, rfl⟩ := ht
    exact ⟨h.inSet, by simp, fun _ => h.idle (Or.inr (Or.inl hstage))⟩
  | erase i =>
    cases hc : s.mConnClients[i]? with
    | some c =>
      simp only [SelectThread.step, hc, Option.ite_none_right_eq_some, Option.some.injEq] at ht
      obtain ⟨-, rfl⟩ := ht
      exact ⟨fun c' hc' => h.inSet c' (List.mem_of_mem_eraseP hc'), by simp, by simp⟩
    | none =>
      rw [SelectThread.step, hc] at ht
      cases ht
  | erased =>
    simp only [SelectThread.step, Option.ite_none_right_eq_some, Option.some.injEq] at ht
    obtain ⟨-, rfl⟩ := ht
    exact ⟨h.inSet, by simp, fun _ hflag => by cases hflag⟩

/-- A timely call of `select` listens to every connection: nothing is being accepted behind the walk. -/
theorem Inv.listens (h : s.Inv) {e : SelectEvent} (he : s.Timely e) : s.Listens e := by
  cases e with
  | select =>
    intro hstage hflag
    obtain ⟨hb, hm⟩ := h.idle (Or.inl hstage) hflag
    apply hb.lists
    cases ha : s.accepting with
    | true => exact he hflag ha
    | false =>
      simp only [missed, ha] at hm
      simp only [Bool.false_eq_true, if_false] at hm
      omega
  | _ => trivial

theorem inv_opened (fullSet : Finset Int) (maxFd : Int) : (opened fullSet maxFd).Inv := by
  constructor <;> simp [opened]

/-- In a run whose events are timely every call of `select` without an update pending listens to every connection. -/
theorem listens_of_timely (fullSet : Finset Int) (maxFd : Int) {es : List SelectEvent}
    (h : StepsMeet step Timely (opened fullSet maxFd) es) : StepsMeet step Listens (opened fullSet maxFd) es :=
  h.of_invariant (fun _ _ _ hs he => hs.step he) (fun _ _ hs he => hs.listens he) (inv_opened fullSet maxFd)

/-- A client connects while the first `select` waits. -/
def timelyConnect : List SelectEvent :=
  [.start, .test, .zero, .walk, .store, .select, .pushBack 6, .update, .served, .test, .zero, .walk, .walk, .store, .select]

theorem listens_of_timely_connect : StepsMeet step Timely (opened ∅ 0) timelyConnect ∧
    (exec step (opened ∅ 0) timelyConnect).isSome ∧ StepsMeet step Listens (opened ∅ 0) timelyConnect :=
  ⟨by decide, by decide, listens_of_timely ∅ 0 (by decide)⟩

/-- A client connects between the walk and the store of false. -/
def lateConnect : List SelectEvent := [.start, .test, .zero, .walk, .pushBack 6, .update, .store]

/-- The client is accepted, and turn after turn `select` is called without it. -/
theorem not_listens_lateConnect : ∃ t, exec step (opened ∅ 0) lateConnect = some t ∧ t.fds = [6] ∧ t.fullSet = ∅ ∧
    exec step t [.select, .served, .test] = some t ∧ ¬ StepsMeet step Listens t [.select, .served, .test] := by
  refine ⟨⟨[⟨6, rcciClientFlagNone⟩], false, ∅, 0, .select, 0, false⟩, ?_, rfl, rfl, ?_, ?_⟩
  · decide
  · decide
  · decide

/-! ### `addClient` and `removeClient` -/

/-- The list and the flag are those of the server. -/
def Of (s : SelectThread) (srv : Server) : Prop :=
  s.mConnClients = srv.mConnClients ∧ s.mSelectThreadUpdate = srv.mSelectThreadUpdate

/-- The two steps of the accept thread are `addClient`. -/
theorem Of.addClient {srv : Server} (h : s.Of srv) (ha : s.accepting = false) (fd : Int) (resolved : Bool) (name : Text) :
    ∃ t, exec SelectThread.step s [.pushBack fd, .update] = some t ∧ t.Of (srv.addClient fd resolved name) := by
  have hconns : (srv.addClient fd resolved name).mConnClients = srv.mConnClients ++ [⟨fd, rcciClientFlagNone⟩] := by
    unfold Server.addClient
    cases resolved <;> rfl
  refine ⟨{ s with mConnClients := s.mConnClients ++ [⟨fd, rcciClientFlagNone⟩], mSelectThreadUpdate := true }, ?_, ?_, rfl⟩
  · simp [exec, SelectThread.step, ha]
  · rw [hconns, ← h.1]

/-- The two steps of the select thread are `removeClient`. -/
theorem Of.removeClient {srv : Server} (h : s.Of srv) {i : Nat} {c : ClientInfo} (hc : srv.mConnClients[i]? = some c)
    (hstage : s.stage = .serve) (hset : c.fd ∈ s.fullSet) :
    ∃ t, exec SelectThread.step s [.erase i, .erased] = some t ∧ t.Of (srv.removeClient i c) := by
  have hany : (srv.mConnClients.any fun it => it.fd = c.fd) = true :=
    List.any_eq_true.2 ⟨c, List.mem_of_getElem? hc, by simp⟩
  refine ⟨{ s with
    mConnClients := s.mConnClients.eraseP fun it => it.fd = c.fd, mSelectThreadUpdate := true, stage := .test }, ?_, ?_⟩
  · simp [exec, SelectThread.step, h.1, hc, hstage, hset]
  · unfold Server.removeClient
    rw [if_pos hany]
    exact ⟨by rw [h.1]; rfl, rfl⟩

end SelectThread

end RcCarControl.Daemon
