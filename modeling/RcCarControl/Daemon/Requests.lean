import RcCarControl.Lib.Runs
import RcCarControl.Daemon.ProcessData

/-!
# What `processData` does to the tables

A call of `processData` with any returns of its system calls (`Script`) is, on the connection table and the client lists,
the handling of one request (`processData_request`): most calls are none, as malformed and short messages change no table.
`Server.step` is the system of connections, calls of `processData` and drive datagrams in any order.
-/

namespace RcCarControl.Daemon

open Interface LittleEndian

/-! ### The tables -/

/-- The same connections and services; only the log has changed. -/
def SameTables (srv srv' : Server) : Prop :=
  srv'.mConnClients = srv.mConnClients ∧ srv'.mServices = srv.mServices ∧ srv'.mDriveCbFunc = srv.mDriveCbFunc

namespace SameTables

theorem refl (srv : Server) : SameTables srv srv := ⟨rfl, rfl, rfl⟩

theorem print {srv srv' : Server} (h : SameTables srv srv') (text : Text) : SameTables srv (srv'.print text) := h

theorem clients {srv srv' : Server} (h : SameTables srv srv') (s : ServiceId) : srv'.clients s = srv.clients s := by
  unfold Server.clients
  rw [h.2.1]

theorem running {srv srv' : Server} (h : SameTables srv srv') (s : ServiceId) : srv'.running s = srv.running s := by
  unfold Server.running
  rw [h.2.1]

theorem orFlags {srv srv' : Server} (h : SameTables srv srv') (i : Nat) (flag : U32) :
    SameTables (srv.orFlags i flag) (srv'.orFlags i flag) := by
  refine ⟨?_, h.2.1, h.2.2⟩
  unfold Server.orFlags
  rw [h.1]

theorem pushClient {srv srv' : Server} (h : SameTables srv srv') (s : ServiceId) (a : SockaddrIn) :
    SameTables (srv.pushClient s a) (srv'.pushClient s a) := by
  refine ⟨h.1, ?_, h.2.2⟩
  unfold Server.pushClient Server.setService
  rw [h.2.1, h.clients]

theorem eraseClient {srv srv' : Server} (h : SameTables srv srv') (s : ServiceId) (a : SockaddrIn) :
    SameTables (srv.eraseClient s a) (srv'.eraseClient s a) := by
  refine ⟨h.1, ?_, h.2.2⟩
  unfold Server.eraseClient Server.setService
  rw [h.2.1, h.clients]

end SameTables

namespace Server

variable (srv : Server)

theorem setService_apply (s t : ServiceId) (service : Service) :
    (srv.setService s service).mServices t = if t = s then service else srv.mServices t := rfl

theorem clients_pushClient (s t : ServiceId) (a : SockaddrIn) :
    (srv.pushClient s a).clients t = if t = s then srv.clients s ++ [a] else srv.clients t := by
  unfold clients pushClient
  rw [setService_apply]
  split <;> rfl

theorem clients_eraseClient (s t : ServiceId) (a : SockaddrIn) :
    (srv.eraseClient s a).clients t = if t = s then (srv.clients s).erase a else srv.clients t := by
  unfold clients eraseClient
  rw [setService_apply]
  split <;> rfl

@[simp] theorem clients_orFlags (i : Nat) (flag : U32) (s : ServiceId) :
    (srv.orFlags i flag).clients s = srv.clients s := rfl

theorem running_pushClient (s t : ServiceId) (a : SockaddrIn) : (srv.pushClient s a).running t = srv.running t := by
  unfold running pushClient
  rw [setService_apply]
  split
  · next hts => rw [hts]
  · rfl

theorem maxClients_pushClient (s t : ServiceId) (a : SockaddrIn) :
    ((srv.pushClient s a).mServices t).maxClients = (srv.mServices t).maxClients := by
  unfold pushClient
  rw [setService_apply]
  split
  · next hts => rw [hts]
  · rfl

theorem maxClients_eraseClient (s t : ServiceId) (a : SockaddrIn) :
    ((srv.eraseClient s a).mServices t).maxClients = (srv.mServices t).maxClients := by
  unfold eraseClient
  rw [setService_apply]
  split
  · next hts => rw [hts]
  · rfl

theorem mServices_removeClient (i : Nat) (c : ClientInfo) : (srv.removeClient i c).mServices = srv.mServices := by
  unfold removeClient
  split_ifs <;> rfl

/-- Nothing is erased for an address that is not listed. -/
theorem eraseClient_of_not_mem {s : ServiceId} {a : SockaddrIn} (h : a ∉ srv.clients s) : srv.eraseClient s a = srv := by
  have hs : (srv.eraseClient s a).mServices = srv.mServices := by
    funext t
    unfold eraseClient
    rw [setService_apply, List.erase_of_not_mem h]
    split
    · next ht =>
      subst ht
      rfl
    · rfl
  calc srv.eraseClient s a = { srv with mServices := (srv.eraseClient s a).mServices } := rfl
    _ = srv := by rw [hs]

end Server

/-! ### Scripts -/

/-- What the system calls of one call of `processData` return, in their order. -/
structure Script where
  reads : List ReadResult
  writes : List Int
  crc : U32

/-- A `read` returns at most as many bytes as asked for, and none from a descriptor that is not open. -/
def scriptSock : Sock Script where
  read fd n w :=
    match w.reads with
    | [] => none
    | r :: reads =>
      if fd < 0 then some (.failed (str "Bad file descriptor"), { w with reads := reads })
      else if r.bytes.length ≤ n then some (r, { w with reads := reads })
      else none
  write _ _ w :=
    match w.writes with
    | [] => (-1, w)
    | k :: writes => (k, { w with writes := writes })
  crc w := w.crc

/-! ### Requests -/

inductive Request where
  | none
  | eof
  | init
  | register (s : ServiceId) (a : SockaddrIn)
  | unregister (s : ServiceId) (a : SockaddrIn)
deriving DecidableEq

/-- The rest of a message whose header is accepted, if it is read whole. -/
def Script.body (w : Script) (k : MsgKind) (header : MsgHeader) : Option (List Byte) :=
  match w.reads with
  | .got body :: _ => if k.expected.accepts header ∧ body.length = k.expected.remBytes then some body else none
  | _ => none

/-- The service and the address in a register or unregister message. -/
def serviceRequest (request : ServiceId → SockaddrIn → Request) (body : Option (List Byte)) : Request :=
  match body with
  | some body =>
    match serviceOf (u32 body 0) with
    | some s => request s (SockaddrIn.ofBytes body 8)
    | none => .none
  | none => .none

def Script.headerRequest (w : Script) (c : ClientInfo) (header : MsgHeader) : Request :=
  match headerKind c header with
  | some .init =>
    if (w.body .init header).isSome ∧ w.writes.head? = some (msgInitSize : Int) then .init else .none
  | some .regService => serviceRequest .register (w.body .regService header)
  | some .unregService => serviceRequest .unregister (w.body .unregService header)
  | none => .none

/-- What the script asks for on the connection. -/
def Script.request (w : Script) (c : ClientInfo) : Request :=
  match w.reads with
  | .got bytes :: reads =>
    if c.fd < 0 then .none
    else if bytes = [] then .eof
    else if bytes.length = msgHeaderSize then Script.headerRequest { w with reads := reads } c (MsgHeader.ofBytes bytes)
    else .none
  | _ => .none

/-- The service runs and has room. -/
def Server.admits (srv : Server) (s : ServiceId) : Bool := srv.running s && (srv.mServices s).canAddClient

/-- The request of the connection `c` at index `i` on the tables. -/
def Server.handle (srv : Server) (i : Nat) (c : ClientInfo) : Request → Server
  | .none => srv
  | .eof => srv.removeClient i c
  | .init => srv.orFlags i rcciClientFlagInit
  | .register s a => if srv.admits s then (srv.pushClient s a).orFlags i s.flag else srv
  | .unregister s a => srv.eraseClient s a

/-! ### The handlers -/

/-- What a handler does by the read: it answers if the length is the expected one, and prints otherwise. -/
theorem processMsg_read {σ : Type} {sk : Sock σ} {k : MsgKind} {srv : Server} {i : Nat} {c : ClientInfo}
    {header : MsgHeader} {w : σ} {out : Server × σ × Int} (h : processMsg sk k srv i c header w = some out) :
    (k.expected.accepts header = true ∧ ∃ r w', sk.read c.fd k.expected.remBytes w = some (r, w') ∧
      ((r.count = (k.expected.remBytes : Int) ∧ out = answer sk srv i c k r.bytes w') ∨
        (r.count ≠ (k.expected.remBytes : Int) ∧ SameTables srv out.1 ∧ out.2.1 = w'))) ∨
    (k.expected.accepts header ≠ true ∧ SameTables srv out.1 ∧ out.2.1 = w) := by
  unfold processMsg readMessage at h
  split at h
  · rename_i ha
    rw [Option.map_eq_some_iff] at h
    obtain ⟨⟨r, w'⟩, hr, h⟩ := h
    refine Or.inl ⟨ha, r, w', hr, ?_⟩
    split at h
    · rename_i hcount
      exact Or.inl ⟨hcount, h.symm⟩
    · rename_i hcount
      subst h
      exact Or.inr ⟨hcount, (SameTables.refl srv).print _, rfl⟩
  · rename_i ha
    cases h
    exact Or.inr ⟨ha, (SameTables.refl srv).print _, rfl⟩

theorem processMsg_cases {k : MsgKind} {srv : Server} {i : Nat} {c : ClientInfo} {header : MsgHeader} {w : Script}
    {out : Server × Script × Int} (hfd : ¬ c.fd < 0) (h : processMsg scriptSock k srv i c header w = some out) :
    (∃ body reads, w.body k header = some body ∧ out = answer scriptSock srv i c k body { w with reads := reads }) ∨
      (w.body k header = none ∧ SameTables srv out.1) := by
  unfold Script.body
  rcases processMsg_read h with ⟨ha, r, w', hr, hout⟩ | ⟨ha, hsame, -⟩
  · cases hw : w.reads with
    | nil => simp [scriptSock, hw] at hr
    | cons r₀ reads =>
      simp only [scriptSock, hw, if_neg hfd, Option.ite_none_right_eq_some, Option.some.injEq, Prod.mk.injEq] at hr
      obtain ⟨-, rfl, rfl⟩ := hr
      cases r₀ with
      | failed strerror =>
        right
        have hne : (ReadResult.failed strerror).count ≠ (k.expected.remBytes : Int) := by
          simp only [ReadResult.count]
          omega
        rcases hout with ⟨hcount, -⟩ | ⟨-, hsame, -⟩
        · exact absurd hcount hne
        · exact ⟨rfl, hsame⟩
      | got body =>
        simp only [ReadResult.count] at hout
        rcases hout with ⟨hcount, rfl⟩ | ⟨hcount, hsame, -⟩
        · have hl : body.length = k.expected.remBytes := by omega
          exact Or.inl ⟨body, reads, if_pos ⟨ha, hl⟩, rfl⟩
        · have hl : body.length ≠ k.expected.remBytes := by omega
          exact Or.inr ⟨if_neg fun h => hl h.2, hsame⟩
  · right
    refine ⟨?_, hsame⟩
    split
    · exact if_neg fun h => ha h.1
    · rfl

theorem answerInit_tables (srv : Server) (i : Nat) (c : ClientInfo) (w : Script) :
    SameTables (if w.writes.head? = some (msgInitSize : Int) then srv.orFlags i rcciClientFlagInit else srv)
      (answerInit scriptSock srv i c w).1 := by
  have hw (msg : List Byte) : (scriptSock.write c.fd msg w).1 = w.writes.head?.getD (-1) := by
    cases hw : w.writes with
    | nil => simp [scriptSock, hw]
    | cons k writes => simp [scriptSock, hw]
  unfold answerInit
  simp only [hw]
  cases w.writes.head? with
  | none => exact (SameTables.refl srv).print _
  | some k =>
    by_cases hk : k = (msgInitSize : Int)
    · simp only [hk, Option.getD_some, if_true]
      exact SameTables.refl _
    · simp only [Option.some.injEq, Option.getD_some, if_neg hk]
      exact (SameTables.refl srv).print _

/-- A registration leaves the server as it is or adds one client. -/
theorem regService_cases (srv : Server) (i : Nat) (msg : MsgRegService) :
    (regService srv i msg).1 = srv ∨
      ∃ s, (regService srv i msg).1 = (srv.pushClient s msg.sockaddr).orFlags i s.flag := by
  unfold regService
  split
  · rename_i s _
    split
    · unfold register
      simp only
      split
      · exact Or.inr ⟨s, rfl⟩
      · exact Or.inl rfl
    · exact Or.inl rfl
  · exact Or.inl rfl

theorem answerReg_tables {σ : Type} (sk : Sock σ) (srv : Server) (i : Nat) (c : ClientInfo) (body : List Byte) (w : σ) :
    SameTables (srv.handle i c (serviceRequest .register (some body))) (answerReg sk srv i c body w).1 := by
  have hreg : (regService srv i (receivedReg body (sk.crc w))).1 =
      srv.handle i c (serviceRequest .register (some body)) := by
    unfold regService serviceRequest receivedReg
    cases hs : serviceOf (u32 body 0) with
    | none => simp [hs, Server.handle]
    | some s =>
      simp only [Server.handle, Server.admits, register]
      by_cases hr : srv.running s = true
      · by_cases hc : (srv.mServices s).canAddClient = true <;> simp [hs, hr, hc]
      · simp [hs, hr]
  rw [← hreg]
  unfold answerReg
  simp only
  split_ifs <;> exact SameTables.refl _

theorem answerUnreg_tables {σ : Type} (sk : Sock σ) (srv : Server) (i : Nat) (c : ClientInfo) (body : List Byte) (w : σ) :
    SameTables (srv.handle i c (serviceRequest .unregister (some body))) (answerUnreg sk srv c body w).1 := by
  have hunreg : SameTables (srv.handle i c (serviceRequest .unregister (some body)))
      (unregService srv (receivedReg body (sk.crc w))).1 := by
    unfold unregService serviceRequest receivedReg
    cases hs : serviceOf (u32 body 0) with
    | none => simpa [hs, Server.handle] using (SameTables.refl srv).print _
    | some s =>
      by_cases hm : SockaddrIn.ofBytes body 8 ∈ srv.clients s
      · simpa [hs, Server.handle, hm] using (SameTables.refl _).print _
      · simpa [hs, Server.handle, hm, srv.eraseClient_of_not_mem hm] using SameTables.refl srv
  unfold answerUnreg
  simp only
  split_ifs <;> exact hunreg

/-! ### `processData` -/

theorem processHeader_request {srv : Server} {i : Nat} {c : ClientInfo} {header : MsgHeader} {w : Script}
    {out : Server × Script × Int} (hfd : ¬ c.fd < 0) (h : processHeader scriptSock srv i c header w = some out) :
    SameTables (srv.handle i c (w.headerRequest c header)) out.1 := by
  rw [processHeader_eq] at h
  unfold Script.headerRequest
  cases hk : headerKind c header with
  | none =>
    rw [hk] at h
    cases h
    exact SameTables.refl srv
  | some k =>
    rw [hk] at h
    rcases processMsg_cases hfd h with ⟨body, reads, hb, rfl⟩ | ⟨hb, hs⟩
    · cases k with
      | init =>
        have ht := answerInit_tables srv i c { w with reads := reads }
        by_cases hw : w.writes.head? = some (msgInitSize : Int)
        · simpa [hb, hw, Server.handle, answer] using ht
        · simpa [hb, hw, Server.handle, answer] using ht
      | regService =>
        simp only [hb]
        exact answerReg_tables scriptSock srv i c body _
      | unregService =>
        simp only [hb]
        exact answerUnreg_tables scriptSock srv i c body _
    · cases k with
      | init => simpa [hb, Server.handle] using hs
      | regService => simpa [hb, serviceRequest, Server.handle] using hs
      | unregService => simpa [hb, serviceRequest, Server.handle] using hs

/-- On the tables a call of `processData` is the handling of the request it received. -/
theorem processData_request {srv : Server} {i : Nat} {w : Script} {out : Server × Script × Int}
    (h : processData scriptSock srv i w = some out) :
    ∃ c, srv.mConnClients[i]? = some c ∧ SameTables (srv.handle i c (w.request c)) out.1 := by
  unfold processData at h
  obtain ⟨c, hc, h⟩ := Option.bind_eq_some_iff.1 h
  obtain ⟨⟨r, w'⟩, hr, h⟩ := Option.bind_eq_some_iff.1 h
  refine ⟨c, hc, ?_⟩
  unfold Script.request
  cases hw : w.reads with
  | nil => simp [scriptSock, hw] at hr
  | cons r₀ reads =>
    by_cases hfd : c.fd < 0
    · simp only [scriptSock, hw, if_pos hfd, Option.some.injEq, Prod.mk.injEq] at hr
      obtain ⟨rfl, rfl⟩ := hr
      cases h
      cases r₀ with
      | failed strerror => exact (SameTables.refl srv).print _
      | got bytes =>
        simp only [if_pos hfd]
        exact (SameTables.refl srv).print _
    · simp only [scriptSock, hw, if_neg hfd, Option.ite_none_right_eq_some, Option.some.injEq, Prod.mk.injEq] at hr
      obtain ⟨-, rfl, rfl⟩ := hr
      cases r₀ with
      | failed strerror =>
        cases h
        exact (SameTables.refl srv).print _
      | got bytes =>
        simp only [if_neg hfd]
        by_cases he : bytes = []
        · simp only [if_pos he] at h ⊢
          cases h
          exact SameTables.refl _
        · simp only [if_neg he] at h ⊢
          by_cases hl : bytes.length = msgHeaderSize
          · rw [if_pos hl] at h ⊢
            exact processHeader_request hfd h
          · rw [if_neg hl] at h ⊢
            cases h
            exact (SameTables.refl srv).print _

/-! ### The start -/

/-- The server of the daemon after `openServer`. -/
def started (env : OpenEnv) : Server := (Server.new.setDriveDataCb.openServer env).1

/-- No client yet, and the limits and the callback are those of the start. -/
structure Fresh (srv : Server) : Prop where
  conns : srv.mConnClients = []
  clients : ∀ s, srv.clients s = []
  maxClients : ∀ s, (srv.mServices s).maxClients = (cServiceTable s).maxClients
  driveCb : srv.mDriveCbFunc = true

/-- The start keeps `P`: it prints, opens sockets, starts a thread, and clears the client list of each service. -/
structure StartKeeps (P : Server → Prop) : Prop where
  print : ∀ srv text, P srv → P (srv.print text)
  listenFd : ∀ srv fd, P srv → P { srv with mListenFd := fd }
  port : ∀ srv port, P srv → P { srv with mPort := port }
  driveReadThread : ∀ srv running, P srv → P { srv with mDriveReadThread := running }
  serviceFd : ∀ srv s fd, P srv → P (srv.setService s { srv.mServices s with fd := fd })
  servicePort : ∀ srv s port, P srv → P (srv.setService s { srv.mServices s with port := port, clients := [] })

namespace StartKeeps

variable {P : Server → Prop} (hP : StartKeeps P) {srv : Server}
include hP

theorem startServiceServer (h : P srv) (s : ServiceId) (env : ServiceEnv) : P (srv.startServiceServer s env) := by
  have hfd : P (srv.setService s { srv.mServices s with fd := env.socket }) := hP.serviceFd srv s _ h
  unfold Server.startServiceServer
  simp only
  split_ifs
  · exact hP.print _ _ hfd
  · exact hP.print _ _ hfd
  · exact hP.print _ _ hfd
  · exact hP.print _ _ (hP.servicePort _ s _ hfd)

theorem startDriveThread (h : P srv) : P srv.startDriveThread := by
  unfold Server.startDriveThread
  split_ifs
  · exact hP.print _ _ h
  · exact hP.print _ _ h
  · exact hP.driveReadThread _ _ h

theorem printStarts (h : P srv) (texts : List StartText) : P (srv.printStarts texts) := by
  induction texts generalizing srv with
  | nil => exact h
  | cons t texts ih => exact ih (hP.print _ _ h)

theorem openServer (h : P srv) (env : OpenEnv) : P (srv.openServer env).1 := by
  have hl : P { srv with mListenFd := env.socket } := hP.listenFd srv _ h
  unfold Server.openServer
  simp only
  split_ifs
  · exact hP.print _ _ hl
  · exact hP.print _ _ hl
  · have hp := hP.print _ (str "Server open on port: " ++ dec (ntohs (ntohs env.port)).toNat ++ str "\n")
      (hP.port _ (ntohs env.port).toNat hl)
    have hlog := hP.startServiceServer hp .logging (env.service .logging)
    have hdrive := hP.startServiceServer hlog .drive (env.service .drive)
    exact hP.printStarts (hP.print _ _ (hP.printStarts (hP.startDriveThread hdrive) _)) _

end StartKeeps

/-- Setting a service of a fresh server. -/
theorem Fresh.setService {srv : Server} (h : Fresh srv) {s : ServiceId} {service : Service} (hc : service.clients = [])
    (hm : service.maxClients = (cServiceTable s).maxClients) : Fresh (srv.setService s service) := by
  refine ⟨h.conns, fun t => ?_, fun t => ?_, h.driveCb⟩
  · unfold Server.clients
    rw [Server.setService_apply]
    split
    · exact hc
    · exact h.clients t
  · rw [Server.setService_apply]
    split
    · next hts => rw [hm, hts]
    · exact h.maxClients t

/-- With no client at any service the start sends no datagram. -/
theorem startKeeps_fresh : StartKeeps fun srv => Fresh srv ∧ srv.logSent = [] where
  print srv text h := ⟨⟨h.1.conns, h.1.clients, h.1.maxClients, h.1.driveCb⟩, by
    have hnone : (srv.mServices .logging).clients = [] := h.1.clients .logging
    simp [Server.print, h.2, hnone]⟩
  listenFd srv fd h := ⟨⟨h.1.conns, h.1.clients, h.1.maxClients, h.1.driveCb⟩, h.2⟩
  port srv port h := ⟨⟨h.1.conns, h.1.clients, h.1.maxClients, h.1.driveCb⟩, h.2⟩
  driveReadThread srv running h := ⟨⟨h.1.conns, h.1.clients, h.1.maxClients, h.1.driveCb⟩, h.2⟩
  serviceFd srv s fd h := ⟨h.1.setService (h.1.clients s) (h.1.maxClients s), h.2⟩
  servicePort srv s port h := ⟨h.1.setService rfl (h.1.maxClients s), h.2⟩

theorem started_fresh (env : OpenEnv) : Fresh (started env) ∧ (started env).logSent = [] := by
  refine startKeeps_fresh.openServer ⟨⟨rfl, fun s => ?_, fun s => rfl, rfl⟩, rfl⟩ env
  cases s <;> rfl

theorem fresh_started (env : OpenEnv) : Fresh (started env) := (started_fresh env).1

/-! ### The system -/

inductive Event where
  /-- `accept` has returned a descriptor, or failed, and `addClient` follows. -/
  | accept (fd : Int) (resolved : Bool) (name : Text)
  | process (i : Nat) (w : Script)
  | datagram (sockAddr : SockaddrIn) (bytes : List Byte)

/-- An accepted descriptor is not open yet. -/
def Server.step (srv : Server) : Event → Option Server
  | .accept fd resolved name =>
    if fd < 0 ∨ ∀ c ∈ srv.mConnClients, c.fd ≠ fd then some (srv.addClient fd resolved name) else none
  | .process i w => (processData scriptSock srv i w).map (·.1)
  | .datagram sockAddr bytes => if srv.mDriveReadThread then some (driveRead srv sockAddr bytes).1 else none

/-- The request of a connection that the event is. -/
def Server.incoming (srv : Server) : Event → Option (ClientInfo × Request)
  | .process i w => srv.mConnClients[i]?.map fun c => (c, w.request c)
  | _ => none

theorem driveRead_tables (srv : Server) (sockAddr : SockaddrIn) (datagram : List Byte) :
    SameTables srv (driveRead srv sockAddr datagram).1 := by
  unfold driveRead
  simp only
  split_ifs
  · split
    · exact SameTables.refl srv
    · split_ifs
      · exact SameTables.refl srv
      · exact (SameTables.refl srv).print _
  · exact (SameTables.refl srv).print _

/-- The steps on the tables: a new connection, a request, or nothing. -/
theorem Server.step_cases {srv srv' : Server} {e : Event} (h : srv.step e = some srv') :
    (∃ fd, srv.incoming e = none ∧ (fd < 0 ∨ ∀ c ∈ srv.mConnClients, c.fd ≠ fd) ∧
        SameTables { srv with mConnClients := srv.mConnClients ++ [⟨fd, rcciClientFlagNone⟩] } srv') ∨
      (∃ i c r, srv.incoming e = some (c, r) ∧ srv.mConnClients[i]? = some c ∧ SameTables (srv.handle i c r) srv') ∨
      (srv.incoming e = none ∧ SameTables srv srv') := by
  cases e with
  | accept fd resolved name =>
    left
    simp only [Server.step, Option.ite_none_right_eq_some, Option.some.injEq] at h
    obtain ⟨hfd, rfl⟩ := h
    refine ⟨fd, rfl, hfd, ?_⟩
    unfold addClient
    cases resolved <;> exact SameTables.refl _
  | process i w =>
    right; left
    simp only [Server.step, Option.map_eq_some_iff] at h
    obtain ⟨out, ho, rfl⟩ := h
    obtain ⟨c, hc, ht⟩ := processData_request ho
    exact ⟨i, c, w.request c, by simp [Server.incoming, hc], hc, ht⟩
  | datagram sockAddr bytes =>
    right; right
    simp only [Server.step, Option.ite_none_right_eq_some, Option.some.injEq] at h
    obtain ⟨-, rfl⟩ := h
    exact ⟨rfl, driveRead_tables srv sockAddr bytes⟩

/-! ### A client -/

/-- Every call of the start succeeds. -/
def openEnv : OpenEnv where
  port := 1025
  socket := 3
  bind := 0
  service s := match s with
    | .logging => ⟨4, 0, 0, 5000, []⟩
    | .drive => ⟨5, 0, 0, 5001, []⟩
  strerror := []
  early := [.listening]
  late := [.starting]

def initMessage : List Byte :=
  MsgHeader.toBytes ⟨rcciMsgInitMagic, rcciMsgInitVer, rcciMsgInit, BitVec.ofNat 32 msgInitSize, 0⟩ ++
    List.replicate (msgInitSize - msgHeaderSize) 0

def serviceMessage (type : U32) (s : ServiceId) (a : SockaddrIn) : List Byte :=
  MsgRegService.toBytes ⟨⟨cServMagic, cServVer, type, BitVec.ofNat 32 msgRegServiceSize, 0⟩, s.flag, 0, a, 0⟩

/-- The message arrives whole, and the reply is written whole. -/
def Script.whole (message : List Byte) : Script where
  reads := [.got (message.take msgHeaderSize), .got (message.drop msgHeaderSize)]
  writes := [(message.length : Int)]
  crc := 0

def Script.eof : Script := ⟨[.got []], [], 0⟩

def someClient : SockaddrIn := ⟨2, 0x1027, 0x0100007F, (0, 0)⟩

end RcCarControl.Daemon
