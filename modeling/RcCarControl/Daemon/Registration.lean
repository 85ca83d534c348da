import Mathlib.Data.List.Pairwise
import RcCarControl.Daemon.Requests

/-!
# Flags and client lists

A registration puts an address on a service's list and the service's flag on the connection.  Beside the server a run
records which live connection registered which address (`noteRegs`); the tables are in step (`InStep`) if every listed
address was registered by a flagged live connection, and every flagged connection has a registered address listed.

Two handlers forget one of the tables: `removeClient` takes nothing off the lists, and `processMsgUnregService` clears no
flag.  So the tables stay in step exactly as long as no closing connection leaves an address behind and no address goes
that a flag still needs (`inStep_iff_keeps`).
-/

namespace RcCarControl.Daemon

open Interface LittleEndian Lts

/-! ### Flags -/

theorem has_none (fd : Int) (s : ServiceId) : (ClientInfo.mk fd rcciClientFlagNone).has s = false := by
  simp [ClientInfo.has, rcciClientFlagNone]

theorem has_or_init (c : ClientInfo) (s : ServiceId) :
    ({ c with flags := c.flags ||| rcciClientFlagInit } : ClientInfo).has s = c.has s := by
  have h0 : rcciClientFlagInit &&& s.flag = 0#32 := by cases s <;> decide
  unfold ClientInfo.has
  simp only
  rw [BitVec.and_or_distrib_right, h0, BitVec.or_zero]

theorem has_or_flag_self (c : ClientInfo) (s : ServiceId) :
    ({ c with flags := c.flags ||| s.flag } : ClientInfo).has s = true := by
  have hs : s.flag ≠ 0 := by cases s <;> decide
  have h : (c.flags ||| s.flag) &&& s.flag = s.flag := by
    rw [BitVec.and_or_distrib_right, BitVec.and_self]
    ext k hk
    simp
  unfold ClientInfo.has
  simpa only [h, bne_iff_ne] using hs

theorem has_or_flag_ne (c : ClientInfo) {s t : ServiceId} (h : t ≠ s) :
    ({ c with flags := c.flags ||| s.flag } : ClientInfo).has t = c.has t := by
  have h0 : s.flag &&& t.flag = 0#32 := by cases s <;> cases t <;> first | decide | exact absurd rfl h
  unfold ClientInfo.has
  simp only
  rw [BitVec.and_or_distrib_right, h0, BitVec.or_zero]

/-! ### The connection table -/

/-- No two connections share an open descriptor. -/
def Distinct (conns : List ClientInfo) : Prop := conns.Pairwise fun c c' => c.fd = c'.fd → c.fd < 0

theorem Distinct.index_eq {conns : List ClientInfo} (h : Distinct conns) {c c' : ClientInfo} {i j : Nat}
    (hi : conns[i]? = some c) (hj : conns[j]? = some c') (hfd : c'.fd = c.fd) (h0 : ¬ c.fd < 0) : j = i := by
  unfold Distinct at h
  rw [List.pairwise_iff_getElem] at h
  obtain ⟨hil, hi⟩ := List.getElem?_eq_some_iff.1 hi
  obtain ⟨hjl, hj⟩ := List.getElem?_eq_some_iff.1 hj
  rcases Nat.lt_trichotomy i j with hij | hij | hij
  · have := h i j hil hjl hij
    rw [hi, hj] at this
    exact absurd (this hfd.symm) h0
  · exact hij.symm
  · have := h j i hjl hil hij
    rw [hi, hj, hfd] at this
    exact absurd (this rfl) h0

theorem Distinct.eq_of_fd {conns : List ClientInfo} (h : Distinct conns) {c c' : ClientInfo} {i : Nat}
    (hi : conns[i]? = some c) (hc' : c' ∈ conns) (hfd : c'.fd = c.fd) (h0 : ¬ c.fd < 0) : c' = c := by
  obtain ⟨j, hj⟩ := List.mem_iff_getElem?.1 hc'
  rw [h.index_eq hi hj hfd h0, hi, Option.some.injEq] at hj
  exact hj.symm

theorem map_fd_orFlags (srv : Server) (i : Nat) (flag : U32) :
    (srv.orFlags i flag).mConnClients.map (·.fd) = srv.mConnClients.map (·.fd) := by
  apply List.ext_getElem?
  intro j
  simp only [Server.orFlags, List.getElem?_map, List.getElem?_modify]
  cases srv.mConnClients[j]? with
  | none => rfl
  | some c => by_cases hij : i = j <;> simp [hij]

theorem Distinct.of_map_fd {conns conns' : List ClientInfo} (h : Distinct conns)
    (hm : conns'.map (·.fd) = conns.map (·.fd)) : Distinct conns' := by
  have key (l : List ClientInfo) : Distinct l ↔ (l.map (·.fd)).Pairwise fun a b => a = b → a < 0 := by
    rw [List.pairwise_map]
    rfl
  rw [key] at h ⊢
  rwa [hm]

/-- A connection of the table other than `c` has another descriptor. -/
theorem mem_orFlags {srv : Server} {i : Nat} {c c' : ClientInfo} {flag : U32} (hd : Distinct srv.mConnClients)
    (hc : srv.mConnClients[i]? = some c) (h0 : ¬ c.fd < 0) :
    c' ∈ (srv.orFlags i flag).mConnClients ↔
      c' = { c with flags := c.flags ||| flag } ∨ c' ∈ srv.mConnClients ∧ c'.fd ≠ c.fd := by
  unfold Server.orFlags
  simp only [List.mem_iff_getElem?, List.getElem?_modify]
  constructor
  · rintro ⟨j, hj⟩
    by_cases hij : i = j
    · subst hij
      simp only [hc, if_true, Option.map_eq_map, Option.map_some, Option.some.injEq] at hj
      exact Or.inl hj.symm
    · simp only [if_neg hij, Option.map_eq_map, Option.map_id'] at hj
      exact Or.inr ⟨⟨j, hj⟩, fun hfd => hij (hd.index_eq hc hj hfd h0).symm⟩
  · rintro (rfl | ⟨⟨j, hj⟩, hfd⟩)
    · exact ⟨i, by simp [hc]⟩
    · have hij : i ≠ j := by
        intro hij
        rw [← hij, hc, Option.some.injEq] at hj
        exact hfd (by rw [hj])
      exact ⟨j, by simp [hij, hj]⟩

theorem mem_eraseP_fd {conns : List ClientInfo} {c c' : ClientInfo} (hd : Distinct conns) (hc : c ∈ conns)
    (h0 : ¬ c.fd < 0) : c' ∈ conns.eraseP (fun it => it.fd = c.fd) ↔ c' ∈ conns ∧ c'.fd ≠ c.fd := by
  induction conns with
  | nil => cases hc
  | cons d conns ih =>
    unfold Distinct at hd
    rw [List.pairwise_cons] at hd
    by_cases hdc : d.fd = c.fd
    · rw [List.eraseP_cons_of_pos (by simpa using hdc)]
      have hne : ∀ c'' ∈ conns, c''.fd ≠ c.fd := by
        intro c'' hm hfd
        exact h0 (hdc ▸ hd.1 c'' hm (by rw [hdc, hfd]))
      constructor
      · intro hm
        exact ⟨List.mem_cons_of_mem _ hm, hne c' hm⟩
      · rintro ⟨hm, hfd⟩
        rcases List.mem_cons.1 hm with rfl | hm
        · exact absurd hdc hfd
        · exact hm
    · rw [List.eraseP_cons_of_neg (by simpa using hdc)]
      have hc' : c ∈ conns := by
        rcases List.mem_cons.1 hc with rfl | hc
        · exact absurd rfl hdc
        · exact hc
      rw [List.mem_cons, List.mem_cons, ih hd.2 hc']
      constructor
      · rintro (rfl | h)
        · exact ⟨Or.inl rfl, hdc⟩
        · exact ⟨Or.inr h.1, h.2⟩
      · rintro ⟨rfl | h, hfd⟩
        · exact Or.inl rfl
        · exact Or.inr ⟨h, hfd⟩

theorem mem_removeClient {srv : Server} {i : Nat} {c c' : ClientInfo} (hd : Distinct srv.mConnClients)
    (hc : srv.mConnClients[i]? = some c) (h0 : ¬ c.fd < 0) :
    c' ∈ (srv.removeClient i c).mConnClients ↔ c' ∈ srv.mConnClients ∧ c'.fd ≠ c.fd := by
  have hm : c ∈ srv.mConnClients := List.mem_of_getElem? hc
  have hany : (srv.mConnClients.any fun it => it.fd = c.fd) = true := List.any_eq_true.2 ⟨c, hm, by simp⟩
  have hr : (srv.removeClient i c).mConnClients = srv.mConnClients.eraseP fun it => it.fd = c.fd := by
    unfold Server.removeClient
    rw [if_pos hany]
    rfl
  rw [hr, mem_eraseP_fd hd hm h0]

/-- Nothing is asked for on a descriptor that is not open. -/
theorem request_of_neg {c : ClientInfo} (w : Script) (h : c.fd < 0) : w.request c = .none := by
  unfold Script.request
  split
  · exact if_pos h
  · rfl

theorem open_of_request {srv : Server} {e : Event} {c : ClientInfo} {r : Request} (h : srv.incoming e = some (c, r))
    (hr : r ≠ .none) : ¬ c.fd < 0 := by
  intro hfd
  cases e with
  | process i w =>
    simp only [Server.incoming, Option.map_eq_some_iff, Prod.mk.injEq] at h
    obtain ⟨c', -, rfl, rfl⟩ := h
    exact hr (request_of_neg w hfd)
  | accept fd resolved name => cases h
  | datagram sockAddr bytes => cases h

/-! ### Who registered what -/

/-- An address that a register message on the connection with the descriptor brought on a list. -/
structure Registration where
  fd : Int
  service : ServiceId
  sockaddr : SockaddrIn
deriving DecidableEq

/-- A registration is noted when the server admits it and forgotten when its connection closes. -/
def noteRegs (srv : Server) (e : Event) (regs : List Registration) : List Registration :=
  match srv.incoming e with
  | some (c, .register s a) => if srv.admits s then ⟨c.fd, s, a⟩ :: regs else regs
  | some (c, .eof) => regs.filter fun r => r.fd ≠ c.fd
  | _ => regs

/-- The server with the registrations of its connections. -/
abbrev Registry := Server × List Registration

def Registry.step : Registry → Event → Option Registry := withGhost Server.step noteRegs

/-- The connection has the service's flag, and it registered the address. -/
def Holds (regs : List Registration) (c : ClientInfo) (t : ServiceId) (a : SockaddrIn) : Prop :=
  c.has t ∧ ⟨c.fd, t, a⟩ ∈ regs

structure InStep (s : Registry) : Prop where
  listed : ∀ t, ∀ a ∈ s.1.clients t, ∃ c ∈ s.1.mConnClients, Holds s.2 c t a
  flagged : ∀ c ∈ s.1.mConnClients, ∀ t, c.has t → ∃ a ∈ s.1.clients t, ⟨c.fd, t, a⟩ ∈ s.2
  driveFree : (∀ c ∈ s.1.mConnClients, ¬ c.has .drive) → (s.1.mServices .drive).canAddClient

/-- Without a flagged connection nothing is listed, and an empty list has room. -/
theorem InStep.of_listed_flagged {s : Registry}
    (hl : ∀ t, ∀ a ∈ s.1.clients t, ∃ c ∈ s.1.mConnClients, Holds s.2 c t a)
    (hf : ∀ c ∈ s.1.mConnClients, ∀ t, c.has t → ∃ a ∈ s.1.clients t, ⟨c.fd, t, a⟩ ∈ s.2) : InStep s := by
  refine ⟨hl, hf, fun hno => ?_⟩
  have hempty : (s.1.mServices .drive).clients = [] := by
    rw [List.eq_nil_iff_forall_not_mem]
    intro a ha
    obtain ⟨c, hc, hh⟩ := hl .drive a ha
    exact hno c hc hh.1
  unfold Service.canAddClient
  rw [hempty]
  simp only [List.length_nil, Bool.or_eq_true, beq_iff_eq, decide_eq_true_eq]
  omega

/-- What an event must leave for the tables to stay in step: a connection that closes is not the only flagged one that
registered a listed address, and after an unregister message every flagged connection still has a listed address. -/
def Keeps (s : Registry) (e : Event) : Prop :=
  match s.1.incoming e with
  | some (c, .eof) => ∀ t, ∀ a ∈ s.1.clients t, ∃ c' ∈ s.1.mConnClients, c'.fd ≠ c.fd ∧ Holds s.2 c' t a
  | some (_, .unregister t a) =>
    ∀ c' ∈ s.1.mConnClients, c'.has t → ∃ a' ∈ (s.1.clients t).erase a, ⟨c'.fd, t, a'⟩ ∈ s.2
  | _ => True

theorem inStep_congr {srv srv' : Server} (h : SameTables srv srv') {regs : List Registration} :
    InStep (srv', regs) ↔ InStep (srv, regs) := by
  have hcl (t : ServiceId) : srv'.clients t = srv.clients t := h.clients t
  constructor
  · rintro ⟨hl, hf, hd⟩
    simp only [hcl, h.1, h.2.1] at hl hf hd
    exact ⟨hl, hf, hd⟩
  · rintro ⟨hl, hf, hd⟩
    constructor
    · simpa only [hcl, h.1] using hl
    · simpa only [hcl, h.1] using hf
    · simpa only [h.1, h.2.1] using hd

/-! ### The steps -/

variable {srv : Server} {regs : List Registration} {i : Nat} {c : ClientInfo}

/-- A new connection has no flags. -/
theorem inStep_accept (hs : InStep (srv, regs)) (fd : Int) :
    InStep ({ srv with mConnClients := srv.mConnClients ++ [⟨fd, rcciClientFlagNone⟩] }, regs) := by
  apply InStep.of_listed_flagged
  · intro t a ha
    obtain ⟨c, hc, hh⟩ := hs.listed t a ha
    exact ⟨c, List.mem_append_left _ hc, hh⟩
  · intro c hc t ht
    rcases List.mem_append.1 hc with hc | hc
    · exact hs.flagged c hc t ht
    · rw [List.mem_singleton.1 hc, has_none] at ht
      cases ht

/-- The init flag concerns no service. -/
theorem inStep_init (hs : InStep (srv, regs)) (hd : Distinct srv.mConnClients) (hc : srv.mConnClients[i]? = some c)
    (h0 : ¬ c.fd < 0) : InStep (srv.orFlags i rcciClientFlagInit, regs) := by
  have hm : c ∈ srv.mConnClients := List.mem_of_getElem? hc
  apply InStep.of_listed_flagged
  · intro t a ha
    obtain ⟨c', hc', hh⟩ := hs.listed t a ha
    by_cases hfd : c'.fd = c.fd
    · rw [hd.eq_of_fd hc hc' hfd h0] at hh
      exact ⟨_, (mem_orFlags hd hc h0).2 (Or.inl rfl), (has_or_init c t).trans hh.1, hh.2⟩
    · exact ⟨c', (mem_orFlags hd hc h0).2 (Or.inr ⟨hc', hfd⟩), hh⟩
  · intro c' hc' t ht
    rcases (mem_orFlags hd hc h0).1 hc' with rfl | ⟨hc', -⟩
    · rw [has_or_init] at ht
      exact hs.flagged c hm t ht
    · exact hs.flagged c' hc' t ht

/-- A registration puts the address and the flag. -/
theorem inStep_register (hs : InStep (srv, regs)) (hd : Distinct srv.mConnClients) (hc : srv.mConnClients[i]? = some c)
    (h0 : ¬ c.fd < 0) (s : ServiceId) (a : SockaddrIn) :
    InStep ((srv.pushClient s a).orFlags i s.flag, ⟨c.fd, s, a⟩ :: regs) := by
  have hm : c ∈ srv.mConnClients := List.mem_of_getElem? hc
  have hmem (c' : ClientInfo) : c' ∈ ((srv.pushClient s a).orFlags i s.flag).mConnClients ↔
      c' = { c with flags := c.flags ||| s.flag } ∨ c' ∈ srv.mConnClients ∧ c'.fd ≠ c.fd :=
    mem_orFlags hd hc h0
  have hlist (t : ServiceId) : ((srv.pushClient s a).orFlags i s.flag).clients t =
      if t = s then srv.clients s ++ [a] else srv.clients t := srv.clients_pushClient s t a
  have hself (t : ServiceId) (ht : c.has t) : ({ c with flags := c.flags ||| s.flag } : ClientInfo).has t := by
    by_cases hts : t = s
    · rw [hts]
      exact has_or_flag_self c s
    · rwa [has_or_flag_ne c hts]
  have hsub (t : ServiceId) {a' : SockaddrIn} (ha : a' ∈ srv.clients t) :
      a' ∈ ((srv.pushClient s a).orFlags i s.flag).clients t := by
    rw [hlist]
    split
    · next hts => exact List.mem_append_left _ (hts ▸ ha)
    · exact ha
  have hold (t : ServiceId) (a' : SockaddrIn) (ha : a' ∈ srv.clients t) :
      ∃ c' ∈ ((srv.pushClient s a).orFlags i s.flag).mConnClients, Holds (⟨c.fd, s, a⟩ :: regs) c' t a' := by
    obtain ⟨c', hc', hh⟩ := hs.listed t a' ha
    by_cases hfd : c'.fd = c.fd
    · rw [hd.eq_of_fd hc hc' hfd h0] at hh
      exact ⟨_, (hmem _).2 (Or.inl rfl), hself t hh.1, List.mem_cons_of_mem _ hh.2⟩
    · exact ⟨c', (hmem c').2 (Or.inr ⟨hc', hfd⟩), hh.1, List.mem_cons_of_mem _ hh.2⟩
  apply InStep.of_listed_flagged
  · intro t a' ha
    simp only [hlist] at ha
    split at ha
    · next hts =>
      subst hts
      rcases List.mem_append.1 ha with ha | ha
      · exact hold t a' ha
      · rw [List.mem_singleton.1 ha]
        exact ⟨_, (hmem _).2 (Or.inl rfl), has_or_flag_self c t, List.mem_cons_self⟩
    · exact hold t a' ha
  · intro c' hc' t ht
    rcases (hmem c').1 hc' with rfl | ⟨hc', -⟩
    · by_cases hts : t = s
      · subst hts
        exact ⟨a, by simp [hlist], List.mem_cons_self⟩
      · rw [has_or_flag_ne c hts] at ht
        obtain ⟨a', ha', hr⟩ := hs.flagged c hm t ht
        exact ⟨a', hsub t ha', List.mem_cons_of_mem _ hr⟩
    · obtain ⟨a', ha', hr⟩ := hs.flagged c' hc' t ht
      exact ⟨a', hsub t ha', List.mem_cons_of_mem _ hr⟩

/-- An unregistration takes an address and leaves the flags. -/
theorem inStep_unregister (hs : InStep (srv, regs)) (t : ServiceId) (a : SockaddrIn) :
    InStep (srv.eraseClient t a, regs) ↔
      ∀ c' ∈ srv.mConnClients, c'.has t → ∃ a' ∈ (srv.clients t).erase a, ⟨c'.fd, t, a'⟩ ∈ regs := by
  constructor
  · intro h c' hc' ht
    obtain ⟨a', ha', hr⟩ := h.flagged c' hc' t ht
    rw [Server.clients_eraseClient, if_pos rfl] at ha'
    exact ⟨a', ha', hr⟩
  · intro h
    apply InStep.of_listed_flagged
    · intro u a' ha'
      simp only [Server.clients_eraseClient] at ha'
      split at ha'
      · next hut =>
        subst hut
        exact hs.listed u a' (List.mem_of_mem_erase ha')
      · exact hs.listed u a' ha'
    · intro c' hc' u hu
      simp only [Server.clients_eraseClient]
      split
      · next hut =>
        subst hut
        exact h c' hc' hu
      · exact hs.flagged c' hc' u hu

/-- A closed connection takes its flags and leaves the lists. -/
theorem inStep_eof (hs : InStep (srv, regs)) (hd : Distinct srv.mConnClients) (hc : srv.mConnClients[i]? = some c)
    (h0 : ¬ c.fd < 0) :
    InStep (srv.removeClient i c, regs.filter fun r => r.fd ≠ c.fd) ↔
      ∀ t, ∀ a ∈ srv.clients t, ∃ c' ∈ srv.mConnClients, c'.fd ≠ c.fd ∧ Holds regs c' t a := by
  have hlist (t : ServiceId) : (srv.removeClient i c).clients t = srv.clients t := by
    unfold Server.clients
    rw [Server.mServices_removeClient]
  constructor
  · intro h t a ha
    obtain ⟨c', hc', hh⟩ := h.listed t a (by rwa [hlist])
    obtain ⟨hc', hfd⟩ := (mem_removeClient hd hc h0).1 hc'
    exact ⟨c', hc', hfd, hh.1, (List.mem_filter.1 hh.2).1⟩
  · intro h
    apply InStep.of_listed_flagged
    · intro t a ha
      simp only [hlist] at ha
      obtain ⟨c', hc', hfd, hh⟩ := h t a ha
      exact ⟨c', (mem_removeClient hd hc h0).2 ⟨hc', hfd⟩, hh.1, List.mem_filter.2 ⟨hh.2, by simpa using hfd⟩⟩
    · intro c' hc' t ht
      obtain ⟨hc', hfd⟩ := (mem_removeClient hd hc h0).1 hc'
      obtain ⟨a, ha, hr⟩ := hs.flagged c' hc' t ht
      simp only [hlist]
      exact ⟨a, ha, List.mem_filter.2 ⟨hr, by simpa using hfd⟩⟩

/-! ### Runs -/

/-- The descriptors stay distinct: an accepted one is new. -/
theorem Distinct.step {srv srv' : Server} {e : Event} (hd : Distinct srv.mConnClients) (h : srv.step e = some srv') :
    Distinct srv'.mConnClients := by
  rcases Server.step_cases h with ⟨fd, -, hfd, ht⟩ | ⟨i, c, r, -, hc, ht⟩ | ⟨-, ht⟩
  · rw [ht.1]
    unfold Distinct
    rw [List.pairwise_append]
    refine ⟨hd, List.pairwise_singleton _ _, ?_⟩
    intro c hc c' hc' heq
    rw [List.mem_singleton.1 hc'] at heq
    rcases hfd with hfd | hfd
    · exact heq ▸ hfd
    · exact absurd heq (hfd c hc)
  · rw [ht.1]
    have hor (flag : U32) : Distinct (srv.orFlags i flag).mConnClients := hd.of_map_fd (map_fd_orFlags srv i flag)
    cases r with
    | none => exact hd
    | eof =>
      simp only [Server.handle, Server.removeClient]
      split
      · exact hd.sublist List.eraseP_sublist
      · exact hd
    | init => exact hor _
    | register s a =>
      simp only [Server.handle]
      split
      · exact hor _
      · exact hd
    | unregister s a => exact hd
  · rw [ht.1]
    exact hd

/-- One step from tables that are in step: they stay so exactly if the event keeps what is needed. -/
theorem inStep_step {s t : Registry} {e : Event} (hd : Distinct s.1.mConnClients) (hs : InStep s)
    (h : Registry.step s e = some t) : InStep t ↔ Keeps s e := by
  obtain ⟨srv, regs⟩ := s
  obtain ⟨srv', regs'⟩ := t
  obtain ⟨h, rfl⟩ := withGhost_eq_some.1 h
  unfold Keeps noteRegs
  rcases Server.step_cases h with ⟨fd, hin, -, ht⟩ | ⟨i, c, r, hin, hc, ht⟩ | ⟨hin, ht⟩
  · rw [hin, inStep_congr ht]
    exact iff_of_true (inStep_accept hs fd) trivial
  · rw [hin, inStep_congr ht]
    cases r with
    | none => exact iff_of_true hs trivial
    | eof => exact inStep_eof hs hd hc (open_of_request hin (by simp))
    | init => exact iff_of_true (inStep_init hs hd hc (open_of_request hin (by simp))) trivial
    | register s a =>
      simp only [Server.handle]
      split
      · exact iff_of_true (inStep_register hs hd hc (open_of_request hin (by simp)) s a) trivial
      · exact iff_of_true hs trivial
    | unregister s a => exact inStep_unregister hs s a
  · rw [hin, inStep_congr ht]
    exact iff_of_true hs trivial

theorem inStep_started (env : OpenEnv) : InStep (started env, []) := by
  have hf := fresh_started env
  apply InStep.of_listed_flagged
  · intro t a ha
    simp [hf.clients t] at ha
  · intro c hc
    simp [hf.conns] at hc

/-- The tables are in step in every state of a run exactly if every event of the run leaves what is needed. -/
theorem inStep_iff_keeps (env : OpenEnv) {es : List Event} {t : Registry}
    (h : exec Registry.step (started env, []) es = some t) :
    StatesMeet Registry.step InStep (started env, []) es ↔ StepsMeet Registry.step Keeps (started env, []) es := by
  refine statesMeet_iff_stepsMeet (fun s e t (hd : Distinct s.1.mConnClients) ht => ?_)
    (fun s e t hd hs ht => ?_) ?_ (inStep_started env) h
  · exact hd.step (withGhost_eq_some.1 ht).1
  · exact inStep_step hd hs ht
  · rw [(fresh_started env).conns]
    exact List.Pairwise.nil

/-- A client initializes, registers for the drive service and closes. -/
def leftBehind : List Event :=
  [.accept 6 true [], .process 0 (.whole initMessage),
    .process 0 (.whole (serviceMessage rcciMsgRegService .drive someClient)), .process 0 .eof]

theorem leftBehind_run : (exec Registry.step (started openEnv, []) leftBehind).map
    (fun t => (t.1.mConnClients, (t.1.mServices .drive).canAddClient)) = some ([], false) := by
  decide

theorem inStep_iff_keeps_leftBehind : ∃ t, exec Registry.step (started openEnv, []) leftBehind = some t ∧
    (StatesMeet Registry.step InStep (started openEnv, []) leftBehind ↔
      StepsMeet Registry.step Keeps (started openEnv, []) leftBehind) := by
  obtain ⟨t, ht, -⟩ := Option.map_eq_some_iff.1 leftBehind_run
  exact ⟨t, ht, inStep_iff_keeps openEnv ht⟩

/-- With the last connection gone its address is still listed, and the drive service is full. -/
theorem not_inStep_leftBehind : ∃ t, exec Registry.step (started openEnv, []) leftBehind = some t ∧
    t.1.mConnClients = [] ∧ (t.1.mServices .drive).canAddClient = false ∧
      ¬ StatesMeet Registry.step InStep (started openEnv, []) leftBehind := by
  obtain ⟨t, ht, hcon⟩ := Option.map_eq_some_iff.1 leftBehind_run
  rw [Prod.mk.injEq] at hcon
  refine ⟨t, ht, hcon.1, hcon.2, fun hQ => ?_⟩
  have hs : InStep t := statesMeet_iff.1 hQ leftBehind [] t (List.append_nil _).symm ht
  have hfree := hs.driveFree (by simp [hcon.1])
  rw [hcon.2] at hfree
  cases hfree

end RcCarControl.Daemon
