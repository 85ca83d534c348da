import RcCarControl.Daemon.Requests

/-!
# The init message as a gate

A connection must send a complete init message, and be sent the whole reply, before one of its messages can change the
list of a service: the flag in `processData` says so of every connection that has it (`noteInits` records which those
are).  The drive service's limit of one client is tested at each registration, so that its list never has two.
-/

namespace RcCarControl.Daemon

open Interface LittleEndian Lts

/-! ### Complete messages -/

/-- Header and rest of a message of the kind arrive, each in one piece, and the header passes the check. -/
def Script.complete (w : Script) (k : MsgKind) : Bool :=
  match w.reads with
  | .got header :: .got body :: _ =>
    header.length == msgHeaderSize && k.expected.accepts (MsgHeader.ofBytes header) &&
      body.length == k.expected.remBytes
  | _ => false

/-- The connection sends a complete init message, and the whole reply is written. -/
def Script.initialises (w : Script) (c : ClientInfo) : Bool :=
  !decide (c.fd < 0) && w.complete .init && w.writes.head? == some (msgInitSize : Int)

/-- The descriptors of the connections that were initialised since they were accepted. -/
def noteInits (srv : Server) (e : Event) (inits : List Int) : List Int :=
  match e with
  | .accept fd _ _ => inits.filter fun fd' => fd' ≠ fd
  | .process i w =>
    match srv.mConnClients[i]? with
    | some c => if w.initialises c then c.fd :: inits else inits
    | none => inits
  | .datagram _ _ => inits

/-- The server with the initialised connections. -/
abbrev GateState := Server × List Int

def GateState.step : GateState → Event → Option GateState := withGhost Server.step noteInits

/-- The list of a service changes only while a complete register or unregister message of an initialised connection is
processed. -/
def Gated (s : GateState) (e : Event) : Prop :=
  ∀ t, GateState.step s e = some t → ∀ sv, t.1.clients sv ≠ s.1.clients sv →
    ∃ i w c, e = .process i w ∧ s.1.mConnClients[i]? = some c ∧
      (w.complete .regService ∨ w.complete .unregService) ∧ c.fd ∈ s.2

/-! ### Requests -/

theorem complete_of_body {w : Script} {k : MsgKind} {header body : List Byte} {reads : List ReadResult}
    (hw : w.reads = .got header :: reads) (hl : header.length = msgHeaderSize)
    (hb : Script.body { w with reads := reads } k (MsgHeader.ofBytes header) = some body) : w.complete k := by
  unfold Script.body at hb
  cases reads with
  | nil => cases hb
  | cons r reads =>
    cases r with
    | failed strerror => cases hb
    | got body' =>
      simp only [Option.ite_none_right_eq_some] at hb
      unfold Script.complete
      simp [hw, hl, hb.1.1, hb.1.2]

theorem serviceRequest_cases {request : ServiceId → SockaddrIn → Request} {body : Option (List Byte)} :
    serviceRequest request body = .none ∨ ∃ bytes s a, body = some bytes ∧ serviceRequest request body = request s a := by
  cases body with
  | none => exact Or.inl rfl
  | some bytes =>
    unfold serviceRequest
    cases hs : serviceOf (u32 bytes 0) with
    | none => exact Or.inl (by simp only [hs])
    | some s => exact Or.inr ⟨bytes, s, SockaddrIn.ofBytes bytes 8, rfl, by simp only [hs]⟩

/-- Without the init flag only the init message is handled. -/
theorem flag_of_headerKind {c : ClientInfo} {header : MsgHeader} {k : MsgKind} (h : headerKind c header = some k)
    (hk : k ≠ .init) : c.flags &&& rcciClientFlagInit ≠ 0 := by
  intro h0
  unfold headerKind at h
  rw [if_pos (Or.inl h0), Option.some.injEq] at h
  exact hk h.symm

/-- What a request of the connection says about the message behind it. -/
theorem request_cases {w : Script} {c : ClientInfo} {r : Request} (h : w.request c = r) :
    r = .none ∨ r = .eof ∨ (r = .init ∧ w.initialises c) ∨
      ((∃ s a, r = .register s a ∨ r = .unregister s a) ∧ c.flags &&& rcciClientFlagInit ≠ 0 ∧
        (w.complete .regService ∨ w.complete .unregService)) := by
  unfold Script.request at h
  split at h
  · next header reads hw =>
    split_ifs at h with hfd he hl
    · exact Or.inl h.symm
    · exact Or.inr (Or.inl h.symm)
    · unfold Script.headerRequest at h
      split at h
      · split_ifs at h with hinit
        · obtain ⟨body, hb⟩ := Option.isSome_iff_exists.1 hinit.1
          refine Or.inr (Or.inr (Or.inl ⟨h.symm, ?_⟩))
          unfold Script.initialises
          simp [hfd, complete_of_body hw hl hb, hinit.2]
        · exact Or.inl h.symm
      · next hk =>
        rcases serviceRequest_cases with hn | ⟨bytes, s, a, hb, hr⟩
        · exact Or.inl (h.symm.trans hn)
        · exact Or.inr (Or.inr (Or.inr ⟨⟨s, a, Or.inl (h.symm.trans hr)⟩, flag_of_headerKind hk (by decide),
            Or.inl (complete_of_body hw hl hb)⟩))
      · next hk =>
        rcases serviceRequest_cases with hn | ⟨bytes, s, a, hb, hr⟩
        · exact Or.inl (h.symm.trans hn)
        · exact Or.inr (Or.inr (Or.inr ⟨⟨s, a, Or.inr (h.symm.trans hr)⟩, flag_of_headerKind hk (by decide),
            Or.inr (complete_of_body hw hl hb)⟩))
      · exact Or.inl h.symm
    · exact Or.inl h.symm
  · exact Or.inl h.symm

/-! ### The flag -/

/-- Every connection with the init flag is open and was initialised. -/
def InitFlags (conns : List ClientInfo) (inits : List Int) : Prop :=
  ∀ c ∈ conns, c.flags &&& rcciClientFlagInit ≠ 0 → ¬ c.fd < 0 ∧ c.fd ∈ inits

theorem mem_orFlags_cases {srv : Server} {i : Nat} {c c' : ClientInfo} {flag : U32} (hc : srv.mConnClients[i]? = some c)
    (h : c' ∈ (srv.orFlags i flag).mConnClients) :
    c' ∈ srv.mConnClients ∨ c' = { c with flags := c.flags ||| flag } := by
  obtain ⟨j, hj⟩ := List.mem_iff_getElem?.1 h
  simp only [Server.orFlags, List.getElem?_modify] at hj
  by_cases hij : i = j
  · subst hij
    simp only [hc, if_true, Option.map_eq_map, Option.map_some, Option.some.injEq] at hj
    exact Or.inr hj.symm
  · simp only [if_neg hij, Option.map_eq_map, Option.map_id'] at hj
    exact Or.inl (List.mem_iff_getElem?.2 ⟨j, hj⟩)

/-- The flag of a service is not the init flag. -/
theorem init_or_flag (flags : U32) (s : ServiceId) :
    (flags ||| s.flag) &&& rcciClientFlagInit = flags &&& rcciClientFlagInit := by
  have h0 : s.flag &&& rcciClientFlagInit = 0#32 := by cases s <;> decide
  rw [BitVec.and_or_distrib_right, h0, BitVec.or_zero]

/-- A new connection has no flags, and its descriptor is no other connection's. -/
theorem InitFlags.accept {conns : List ClientInfo} {inits : List Int} (h : InitFlags conns inits) {fd : Int}
    (hfd : fd < 0 ∨ ∀ c ∈ conns, c.fd ≠ fd) :
    InitFlags (conns ++ [⟨fd, rcciClientFlagNone⟩]) (inits.filter fun fd' => fd' ≠ fd) := by
  intro c hc hinit
  rcases List.mem_append.1 hc with hc | hc
  · obtain ⟨h0, hm⟩ := h c hc hinit
    refine ⟨h0, List.mem_filter.2 ⟨hm, ?_⟩⟩
    rcases hfd with hfd | hfd
    · have hne : c.fd ≠ fd := by omega
      simpa using hne
    · simpa using hfd c hc
  · rw [List.mem_singleton.1 hc] at hinit
    exact absurd (by simp [rcciClientFlagNone]) hinit

/-- A request sets the init flag only on a connection that it initialises. -/
theorem InitFlags.handle {srv : Server} {inits : List Int} {i : Nat} {c : ClientInfo} {w : Script}
    (h : InitFlags srv.mConnClients inits) (hc : srv.mConnClients[i]? = some c) :
    InitFlags (srv.handle i c (w.request c)).mConnClients (if w.initialises c then c.fd :: inits else inits) := by
  have hm : c ∈ srv.mConnClients := List.mem_of_getElem? hc
  have hsub : inits ⊆ if w.initialises c then c.fd :: inits else inits := by
    split
    · exact List.subset_cons_self _ _
    · exact List.Subset.refl _
  have hold {c' : ClientInfo} (hc' : c' ∈ srv.mConnClients) (hinit : c'.flags &&& rcciClientFlagInit ≠ 0) :=
    (h c' hc' hinit).imp id fun hfd => hsub hfd
  intro c' hc' hinit
  cases hr : w.request c with
  | none =>
    rw [hr] at hc'
    exact hold hc' hinit
  | eof =>
    rw [hr] at hc'
    unfold Server.handle Server.removeClient at hc'
    simp only at hc'
    split at hc'
    · exact hold (List.mem_of_mem_eraseP hc') hinit
    · exact hold hc' hinit
  | init =>
    rw [hr] at hc'
    rcases mem_orFlags_cases hc hc' with hc' | rfl
    · exact hold hc' hinit
    · have hw : w.initialises c := by
        rcases request_cases hr with h | h | ⟨-, h⟩ | ⟨⟨s, a, h | h⟩, -⟩
        · cases h
        · cases h
        · exact h
        · cases h
        · cases h
      rw [if_pos hw]
      unfold Script.initialises at hw
      simp only [Bool.and_eq_true, Bool.not_eq_true', decide_eq_false_iff_not] at hw
      exact ⟨hw.1.1, List.mem_cons_self⟩
  | register s a =>
    rw [hr] at hc'
    unfold Server.handle at hc'
    simp only at hc'
    split at hc'
    · have hpush : (srv.pushClient s a).mConnClients[i]? = some c := hc
      rcases mem_orFlags_cases hpush hc' with hc' | rfl
      · exact hold hc' hinit
      · simp only [init_or_flag] at hinit
        exact (h c hm hinit).imp id fun hfd => hsub hfd
    · exact hold hc' hinit
  | unregister s a =>
    rw [hr] at hc'
    exact hold hc' hinit

/-! ### Runs -/

theorem InitFlags.step {s t : GateState} {e : Event} (h : InitFlags s.1.mConnClients s.2)
    (hs : GateState.step s e = some t) : InitFlags t.1.mConnClients t.2 := by
  obtain ⟨srv, inits⟩ := s
  obtain ⟨srv', inits'⟩ := t
  obtain ⟨hs, rfl⟩ := withGhost_eq_some.1 hs
  cases e with
  | accept fd resolved name =>
    simp only [Server.step, Option.ite_none_right_eq_some, Option.some.injEq] at hs
    obtain ⟨hfd, rfl⟩ := hs
    have hconns : (srv.addClient fd resolved name).mConnClients = srv.mConnClients ++ [⟨fd, rcciClientFlagNone⟩] := by
      unfold Server.addClient
      cases resolved <;> rfl
    simp only [hconns]
    exact h.accept hfd
  | process i w =>
    simp only [Server.step, Option.map_eq_some_iff] at hs
    obtain ⟨out, ho, rfl⟩ := hs
    obtain ⟨c, hc, ht⟩ := processData_request ho
    simp only [noteInits, ht.1, hc]
    exact h.handle hc
  | datagram sockAddr bytes =>
    simp only [Server.step, Option.ite_none_right_eq_some, Option.some.injEq] at hs
    obtain ⟨-, rfl⟩ := hs
    simp only [(driveRead_tables srv sockAddr bytes).1]
    exact h

/-- Only register and unregister messages change a list, and they need the flag. -/
theorem gated_of_initFlags {s : GateState} (h : InitFlags s.1.mConnClients s.2) (e : Event) : Gated s e := by
  intro t hs sv hne
  obtain ⟨hs, -⟩ := withGhost_eq_some.1 hs
  cases e with
  | accept fd resolved name =>
    simp only [Server.step, Option.ite_none_right_eq_some, Option.some.injEq] at hs
    refine absurd ?_ hne
    rw [← hs.2]
    unfold Server.addClient
    cases resolved <;> rfl
  | datagram sockAddr bytes =>
    simp only [Server.step, Option.ite_none_right_eq_some, Option.some.injEq] at hs
    refine absurd ?_ hne
    rw [← hs.2]
    exact (driveRead_tables s.1 sockAddr bytes).clients sv
  | process i w =>
    simp only [Server.step, Option.map_eq_some_iff] at hs
    obtain ⟨out, ho, hout⟩ := hs
    obtain ⟨c, hc, ht⟩ := processData_request ho
    rw [← hout, ht.clients] at hne
    rcases request_cases (w := w) (c := c) rfl with hr | hr | ⟨hr, -⟩ | ⟨-, hflag, hw⟩
    · rw [hr] at hne
      exact absurd rfl hne
    · rw [hr] at hne
      refine absurd ?_ hne
      unfold Server.clients
      rw [Server.handle, Server.mServices_removeClient]
    · rw [hr] at hne
      exact absurd rfl hne
    · exact ⟨i, w, c, rfl, hc, hw, (h c (List.mem_of_getElem? hc) hflag).2⟩

/-! ### The drive service -/

/-- The drive service has room for one client, and at most one. -/
def OneDriver (srv : Server) : Prop := (srv.mServices .drive).maxClients = 1 ∧ (srv.clients .drive).length ≤ 1

theorem OneDriver.congr {srv srv' : Server} (h : OneDriver srv) (hs : srv'.mServices = srv.mServices) :
    OneDriver srv' := by
  unfold OneDriver Server.clients
  rw [hs]
  exact h

theorem OneDriver.handle {srv : Server} (h : OneDriver srv) (i : Nat) (c : ClientInfo) (r : Request) :
    OneDriver (srv.handle i c r) := by
  cases r with
  | none => exact h
  | eof => exact h.congr (srv.mServices_removeClient i c)
  | init => exact h.congr rfl
  | register s a =>
    unfold Server.handle
    simp only
    split
    · next hadm =>
      refine ⟨(srv.maxClients_pushClient s .drive a).trans h.1, ?_⟩
      rw [Server.clients_orFlags, Server.clients_pushClient]
      split
      · next hs =>
        subst hs
        -- the service had room, so it had no client
        simp only [Server.admits, Service.canAddClient, h.1, Bool.and_eq_true, Bool.or_eq_true, beq_iff_eq,
          decide_eq_true_eq] at hadm
        have hlen : (srv.clients .drive).length < 1 := by
          unfold Server.clients
          omega
        rw [List.length_append, List.length_singleton]
        omega
      · exact h.2
    · exact h
  | unregister s a =>
    refine ⟨(srv.maxClients_eraseClient s .drive a).trans h.1, ?_⟩
    show ((srv.eraseClient s a).clients .drive).length ≤ 1
    rw [Server.clients_eraseClient]
    split
    · next hs =>
      subst hs
      exact Nat.le_trans List.length_erase_le h.2
    · exact h.2

theorem OneDriver.step {srv srv' : Server} {e : Event} (h : OneDriver srv) (hs : srv.step e = some srv') :
    OneDriver srv' := by
  rcases Server.step_cases hs with ⟨fd, -, -, ht⟩ | ⟨i, c, r, -, -, ht⟩ | ⟨-, ht⟩
  · exact h.congr ht.2.1
  · exact (h.handle i c r).congr ht.2.1
  · exact h.congr ht.2.1

/-! ### Both -/

theorem initFlags_started (env : OpenEnv) : InitFlags (started env).mConnClients [] := by
  intro c hc
  rw [(fresh_started env).conns] at hc
  cases hc

theorem oneDriver_started (env : OpenEnv) : OneDriver (started env) := by
  refine ⟨(fresh_started env).maxClients .drive, ?_⟩
  rw [(fresh_started env).clients .drive]
  exact Nat.zero_le 1

/-- In every run each change of a client list is gated, and at most one address controls the car. -/
theorem gated_oneDriver (env : OpenEnv) (es : List Event) :
    StepsMeet GateState.step Gated (started env, []) es ∧
      StatesMeet GateState.step (fun s => (s.1.clients .drive).length ≤ 1) (started env, []) es := by
  constructor
  · have keep (s : GateState) (e : Event) (t : GateState) (h : InitFlags s.1.mConnClients s.2)
        (ht : GateState.step s e = some t) : InitFlags t.1.mConnClients t.2 := h.step ht
    exact stepsMeet_of_invariant keep (fun _ e h => gated_of_initFlags h e) (initFlags_started env) es
  · have keep (s : GateState) (e : Event) (t : GateState) (h : OneDriver s.1) (ht : GateState.step s e = some t) :
        OneDriver t.1 := h.step (withGhost_eq_some.1 ht).1
    exact statesMeet_of_invariant keep (fun _ h => h.2) (oneDriver_started env) es

end RcCarControl.Daemon
