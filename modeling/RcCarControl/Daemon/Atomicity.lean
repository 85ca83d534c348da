import RcCarControl.Daemon.Acknowledge

/-!
# What a failed call leaves behind

The handlers of messages return -1 when a message is wrong, when it is not read whole, and when the reply is not written
whole.  `processMsgInit` sets its flag behind the reply, so that a failed call leaves no trace.  The other two change the
tables in front of the reply: if the reply then breaks, the client that was put on a list stays on it and the client that
was taken off stays off (`atomic_iff_answered`).
-/

namespace RcCarControl.Daemon

open Interface LittleEndian Lts

/-! ### Failed calls -/

/-- If the call returns -1, the client lists and the flags are those of before. -/
def Atomic (srv : Server) (call : Option (Server × Script × Int)) : Prop :=
  ∀ out ∈ call, out.2.2 = -1 →
    (∀ s, out.1.clients s = srv.clients s) ∧ out.1.mConnClients.map (·.flags) = srv.mConnClients.map (·.flags)

/-- The message takes an address on a list or off it. -/
def Edits (srv : Server) (body : List Byte) : MsgKind → Prop
  | .init => False
  | .regService => ∃ s, serviceOf (u32 body 0) = some s ∧ srv.admits s
  | .unregService => ∃ s, serviceOf (u32 body 0) = some s ∧ SockaddrIn.ofBytes body 8 ∈ srv.clients s

/-- The log is sent to a client that is registered. -/
def LogFollows (srv : Server) (body : List Byte) : MsgKind → Prop
  | .regService =>
    u32 body 0 = rcciClientFlagLog ∧ srv.running .logging ∧ u32 body 24 ≠ 0 ∧ 0 < srv.mLog.length
  | _ => False

/-- The structure of the reply is written whole, and so is a log behind it. -/
def Script.Answers (w : Script) (srv : Server) (body : List Byte) (k : MsgKind) : Prop :=
  w.writes.head? = some (msgRegServiceSize : Int) ∧
    (LogFollows srv body k → w.writes[1]? = some (srv.mLog.length : Int))

theorem Atomic.of_sameTables {srv : Server} {call : Option (Server × Script × Int)}
    (h : ∀ out ∈ call, SameTables srv out.1) : Atomic srv call := by
  intro out hout _
  have hs := h out hout
  exact ⟨hs.clients, by rw [hs.1]⟩

/-! ### Messages that are not read -/

theorem processMsg_closed {k : MsgKind} {srv : Server} {i : Nat} {c : ClientInfo} {header : MsgHeader} {w : Script}
    {out : Server × Script × Int} (hfd : c.fd < 0) (h : processMsg scriptSock k srv i c header w = some out) :
    SameTables srv out.1 := by
  rcases processMsg_read h with ⟨-, r, w', hr, ⟨hcount, -⟩ | ⟨-, hsame, -⟩⟩ | ⟨-, hsame, -⟩
  · cases hw : w.reads with
    | nil => simp [scriptSock, hw] at hr
    | cons r₀ reads =>
      simp only [scriptSock, hw, if_pos hfd, Option.some.injEq, Prod.mk.injEq] at hr
      obtain ⟨rfl, rfl⟩ := hr
      have hne : ((ReadResult.failed (str "Bad file descriptor")).count) ≠ (k.expected.remBytes : Int) := by
        simp only [ReadResult.count]
        omega
      exact absurd hcount hne
  · exact hsame
  · exact hsame

/-- A message that is read whole is answered. -/
theorem processMsg_body {k : MsgKind} (srv : Server) (i : Nat) {c : ClientInfo} {header : MsgHeader} {w : Script}
    {body : List Byte} (hfd : ¬ c.fd < 0) (hb : w.body k header = some body) :
    ∃ reads, processMsg scriptSock k srv i c header w =
      some (answer scriptSock srv i c k body { w with reads := reads }) := by
  unfold Script.body at hb
  cases hw : w.reads with
  | nil => simp [hw] at hb
  | cons r₀ reads =>
    cases r₀ with
    | failed strerror => simp [hw] at hb
    | got bytes =>
      simp only [hw, Option.ite_none_right_eq_some, Option.some.injEq] at hb
      obtain ⟨⟨ha, hl⟩, rfl⟩ := hb
      refine ⟨reads, ?_⟩
      unfold processMsg readMessage
      simp [ha, scriptSock, hw, hfd, hl, ReadResult.count, ReadResult.bytes]

/-! ### Replies -/

theorem write_head (fd : Int) (msg : List Byte) (w : Script) (n : Nat) :
    (scriptSock.write fd msg w).1 = (n : Int) ↔ w.writes.head? = some (n : Int) := by
  cases hw : w.writes with
  | nil =>
    simp only [scriptSock, hw, List.head?_nil]
    constructor
    · intro h
      omega
    · intro h
      cases h
  | cons k writes => simp [scriptSock, hw]

theorem write_rest (fd : Int) (msg : List Byte) (w : Script) : (scriptSock.write fd msg w).2.writes = w.writes.tail := by
  cases hw : w.writes with
  | nil => simp [scriptSock, hw]
  | cons k writes => simp [scriptSock, hw]

/-- The registration of a client that is admitted. -/
theorem regService_admitted {srv : Server} {s : ServiceId} (ha : srv.admits s = true) (i : Nat) (msg : MsgRegService)
    (hs : serviceOf msg.service = some s) :
    (regService srv i msg).1 = (srv.pushClient s msg.sockaddr).orFlags i s.flag ∧
      (regService srv i msg).2.service = msg.service ∧ (regService srv i msg).2.params = msg.params ∧
        (regService srv i msg).2.status = msg.status := by
  unfold Server.admits at ha
  rw [Bool.and_eq_true] at ha
  unfold regService
  simp [hs, ha.1, register, ha.2]

theorem answerReg_ret {srv : Server} {s : ServiceId} (ha : srv.admits s = true) (i : Nat) (c : ClientInfo)
    {body : List Byte} (hs : serviceOf (u32 body 0) = some s) (w : Script) :
    (answerReg scriptSock srv i c body w).2.2 = -1 ↔ ¬ w.Answers srv body .regService := by
  have hservice : (receivedReg body (scriptSock.crc w)).service = u32 body 0 := rfl
  obtain ⟨hsrv, hserv, hparams, hstatus⟩ := regService_admitted ha i (receivedReg body (scriptSock.crc w)) hs
  have hrunning : (regService srv i (receivedReg body (scriptSock.crc w))).1.running .logging = srv.running .logging := by
    rw [hsrv]
    exact srv.running_pushClient s .logging _
  have hack : (receivedReg body (scriptSock.crc w)).status = rcciStatusAck := rfl
  have hlog : (receivedReg body (scriptSock.crc w)).params = u32 body 24 := rfl
  unfold answerReg Script.Answers LogFollows
  simp only [hserv, hparams, hstatus, hrunning, hservice, hack, hlog, write_head, write_rest, List.head?_tail, and_true]
  by_cases hhead : w.writes.head? = some (msgRegServiceSize : Int)
  · by_cases hfollows : u32 body 0 = rcciClientFlagLog ∧ srv.running .logging ∧ u32 body 24 ≠ 0 ∧ 0 < srv.mLog.length
    · by_cases hwhole : w.writes[1]? = some (srv.mLog.length : Int)
      · rw [if_pos hhead, if_pos hfollows, if_pos hwhole]
        exact iff_of_false (by simp) fun h => h ⟨hhead, fun _ => hwhole⟩
      · rw [if_pos hhead, if_pos hfollows, if_neg hwhole]
        exact iff_of_true rfl fun h => hwhole (h.2 hfollows)
    · rw [if_pos hhead, if_neg hfollows]
      exact iff_of_false (by simp) fun h => h ⟨hhead, fun hf => absurd hf hfollows⟩
  · rw [if_neg hhead]
    exact iff_of_true rfl fun h => hhead h.1

theorem answerUnreg_ret (srv : Server) (c : ClientInfo) (body : List Byte) (w : Script) :
    (answerUnreg scriptSock srv c body w).2.2 = -1 ↔ ¬ w.Answers srv body .unregService := by
  unfold answerUnreg Script.Answers LogFollows
  simp only [write_head]
  by_cases hhead : w.writes.head? = some (msgRegServiceSize : Int)
  · simp [hhead]
  · simp [hhead]

/-! ### Handlers -/

theorem serviceRequest_known {request : ServiceId → SockaddrIn → Request} {body : List Byte} {s : ServiceId}
    (hs : serviceOf (u32 body 0) = some s) :
    serviceRequest request (some body) = request s (SockaddrIn.ofBytes body 8) := by
  simp only [serviceRequest, hs]

theorem serviceRequest_unknown {request : ServiceId → SockaddrIn → Request} {body : List Byte}
    (hs : serviceOf (u32 body 0) = none) : serviceRequest request (some body) = .none := by
  simp only [serviceRequest, hs]

/-- A call that changes the lists is atomic exactly if it succeeds. -/
theorem atomic_iff_ret {srv : Server} {out : Server × Script × Int} {s : ServiceId}
    (hs : out.1.clients s ≠ srv.clients s) : Atomic srv (some out) ↔ out.2.2 ≠ -1 := by
  constructor
  · intro h hret
    exact hs ((h out rfl hret).1 s)
  · intro hret out' hout hret'
    cases hout
    exact absurd hret' hret

theorem atomic_init (srv : Server) (i : Nat) (c : ClientInfo) (w : Script) :
    Atomic srv (some (answerInit scriptSock srv i c w)) := by
  intro out hout hret
  cases hout
  unfold answerInit at hret ⊢
  simp only at hret ⊢
  split at hret
  · cases hret
  · next hne =>
    rw [if_neg hne]
    exact ⟨fun s => rfl, rfl⟩

/-- A call that edits no list is atomic. -/
theorem atomic_of_kept {srv : Server} {out : Server × Script × Int} {edits answers : Prop} (hedits : ¬ edits)
    (ht : SameTables srv out.1) : Atomic srv (some out) ↔ (edits → answers) := by
  refine iff_of_true (Atomic.of_sameTables fun out' hout => ?_) fun h => absurd h hedits
  cases hout
  exact ht

theorem atomic_reg (srv : Server) (i : Nat) (c : ClientInfo) (body : List Byte) (w : Script) :
    Atomic srv (some (answerReg scriptSock srv i c body w)) ↔
      (Edits srv body .regService → w.Answers srv body .regService) := by
  have ht := answerReg_tables scriptSock srv i c body w
  by_cases hedits : Edits srv body .regService
  · obtain ⟨s, hs, ha⟩ := hedits
    have hlist : (answerReg scriptSock srv i c body w).1.clients s = srv.clients s ++ [SockaddrIn.ofBytes body 8] := by
      rw [ht.clients, serviceRequest_known hs]
      simp [Server.handle, ha, Server.clients_pushClient]
    rw [atomic_iff_ret (s := s) (by simp [hlist]), ne_eq, answerReg_ret ha i c hs, not_not]
    exact ⟨fun h _ => h, fun h => h ⟨s, hs, ha⟩⟩
  · have hsame : srv.handle i c (serviceRequest .register (some body)) = srv := by
      cases hs : serviceOf (u32 body 0) with
      | none =>
        rw [serviceRequest_unknown hs]
        rfl
      | some s =>
        rw [serviceRequest_known hs]
        exact if_neg fun ha => hedits ⟨s, hs, ha⟩
    rw [hsame] at ht
    exact atomic_of_kept hedits ht

theorem atomic_unreg (srv : Server) (c : ClientInfo) (body : List Byte) (w : Script) :
    Atomic srv (some (answerUnreg scriptSock srv c body w)) ↔
      (Edits srv body .unregService → w.Answers srv body .unregService) := by
  have ht := answerUnreg_tables scriptSock srv 0 c body w
  by_cases hedits : Edits srv body .unregService
  · obtain ⟨s, hs, hm⟩ := hedits
    have hlist : (answerUnreg scriptSock srv c body w).1.clients s = (srv.clients s).erase (SockaddrIn.ofBytes body 8) := by
      rw [ht.clients, serviceRequest_known hs]
      simp [Server.handle, Server.clients_eraseClient]
    have hne : (srv.clients s).erase (SockaddrIn.ofBytes body 8) ≠ srv.clients s := by
      intro h
      have hlen := congrArg List.length h
      have hpos := List.length_pos_of_mem hm
      rw [List.length_erase_of_mem hm] at hlen
      omega
    rw [atomic_iff_ret (s := s) (by rwa [hlist]), ne_eq, answerUnreg_ret, not_not]
    exact ⟨fun h _ => h, fun h => h ⟨s, hs, hm⟩⟩
  · have hsame : srv.handle 0 c (serviceRequest .unregister (some body)) = srv := by
      cases hs : serviceOf (u32 body 0) with
      | none =>
        rw [serviceRequest_unknown hs]
        rfl
      | some s =>
        rw [serviceRequest_known hs]
        exact srv.eraseClient_of_not_mem fun hm => hedits ⟨s, hs, hm⟩
    rw [hsame] at ht
    exact atomic_of_kept hedits ht

/-- A handler is atomic on a message exactly if the message edits no list or everything is written that follows it. -/
theorem atomic_iff_answered (k : MsgKind) (srv : Server) (i : Nat) (c : ClientInfo) (header : MsgHeader) (w : Script) :
    Atomic srv (processMsg scriptSock k srv i c header w) ↔
      (0 ≤ c.fd → ∀ body ∈ w.body k header, Edits srv body k → w.Answers srv body k) := by
  by_cases hfd : c.fd < 0
  · refine iff_of_true (Atomic.of_sameTables fun out hout => processMsg_closed hfd hout) fun h => ?_
    omega
  · cases hb : w.body k header with
    | none =>
      refine iff_of_true (Atomic.of_sameTables fun out hout => ?_) (by simp)
      rcases processMsg_cases hfd hout with ⟨body, reads, hbody, -⟩ | ⟨-, hs⟩
      · rw [hb] at hbody
        cases hbody
      · exact hs
    | some body =>
      obtain ⟨reads, hcall⟩ := processMsg_body srv i hfd hb
      have hcond : (0 ≤ c.fd → ∀ body' ∈ some body, Edits srv body' k → w.Answers srv body' k) ↔
          (Edits srv body k → w.Answers srv body k) := by
        constructor
        · intro h
          exact h (by omega) body rfl
        · intro h _ body' hbody'
          cases hbody'
          exact h
      rw [hcall, hcond]
      cases k with
      | init => exact iff_of_true (atomic_init srv i c _) fun h => h.elim
      | regService => exact atomic_reg srv i c body _
      | unregService => exact atomic_unreg srv c body _

/-- A message whose reply is cut to ten bytes. -/
def Script.cut (message : List Byte) : Script where
  reads := [.got (message.drop msgHeaderSize)]
  writes := [10]
  crc := 0

/-- The drive service has the client of a registration that failed, and the connection has the flag. -/
theorem not_atomic_cut : ∃ srv c, exec Server.step (started openEnv) connected = some srv ∧
    srv.mConnClients[0]? = some c ∧
      ¬ Atomic srv (processMsgRegService scriptSock srv 0 c
        (MsgHeader.ofBytes (serviceMessage rcciMsgRegService .drive someClient))
        (.cut (serviceMessage rcciMsgRegService .drive someClient))) := by
  have hrun : ((exec Server.step (started openEnv) connected).bind fun srv => srv.mConnClients[0]?.bind fun c =>
      (processMsgRegService scriptSock srv 0 c (MsgHeader.ofBytes (serviceMessage rcciMsgRegService .drive someClient))
        (.cut (serviceMessage rcciMsgRegService .drive someClient))).map fun out =>
          (srv.clients .drive, out.1.clients .drive, out.2.2)) = some ([], [someClient], -1) := by
    decide
  obtain ⟨srv, hsrv, hrun⟩ := Option.bind_eq_some_iff.1 hrun
  obtain ⟨c, hc, hrun⟩ := Option.bind_eq_some_iff.1 hrun
  obtain ⟨out, hcall, hout⟩ := Option.map_eq_some_iff.1 hrun
  simp only [Prod.mk.injEq] at hout
  obtain ⟨hbefore, hafter, hret⟩ := hout
  refine ⟨srv, c, hsrv, hc, fun h => ?_⟩
  have hlist := (h out hcall hret).1 .drive
  rw [hbefore, hafter] at hlist
  cases hlist

end RcCarControl.Daemon
