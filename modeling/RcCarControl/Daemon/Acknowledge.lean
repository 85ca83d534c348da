import RcCarControl.Daemon.Segmentation

/-!
# What an acknowledgement is worth

The reply to a register or unregister message has a status, and the message has or has not its effect on the list of the
service.  `Truthful` says that the two agree, `Effective` is the condition on the server and the message under which they
do.

A registration for a service that is unknown or not running is acknowledged and has no effect, where an unregistration
from an unknown service is refused; and an unregistration takes one entry of the list, however often the address is in it.
-/

namespace RcCarControl.Daemon

open Interface LittleEndian Lts

variable {σ : Type}

/-! ### Replies -/

/-- The sockets, and what was handed to `write`. -/
def recording (sk : Sock σ) : Sock (σ × List (List Byte)) where
  read fd n w := (sk.read fd n w.1).map fun r => (r.1, r.2, w.2)
  write fd bytes w := ((sk.write fd bytes w.1).1, (sk.write fd bytes w.1).2, w.2 ++ [bytes])
  crc w := sk.crc w.1

theorem Receives.recording {sk : Sock σ} {fd : Int} {m : List Byte} {w w' : σ} (h : Receives sk fd m w w')
    (sent : List (List Byte)) : Receives (recording sk) fd m (w, sent) (w', sent) := by
  obtain ⟨v, h₁, h₂⟩ := h
  exact ⟨(v, sent), by simp [Daemon.recording, h₁], by simp [Daemon.recording, h₂]⟩

/-- The reply to a register or unregister message agrees with what became of the request. -/
def Truthful (k : MsgKind) (msg : MsgRegService) (srv' : Server) (reply : MsgRegService) : Prop :=
  match k with
  | .regService =>
    reply.status = rcciStatusAck ↔ ∃ s, serviceOf msg.service = some s ∧ msg.sockaddr ∈ srv'.clients s
  | .unregService =>
    reply.status = rcciStatusAck ↔ ∃ s, serviceOf msg.service = some s ∧ msg.sockaddr ∉ srv'.clients s
  | .init => True

/-- A registration is for a known service, and either the service runs and is not full with others, or the address is
listed already.  An unregistration finds the address at most once. -/
def Effective (k : MsgKind) (msg : MsgRegService) (srv : Server) : Prop :=
  match k with
  | .regService =>
    ∃ s, serviceOf msg.service = some s ∧
      if srv.running s then (srv.mServices s).canAddClient ∨ msg.sockaddr ∉ srv.clients s
      else msg.sockaddr ∈ srv.clients s
  | .unregService => ∀ s, serviceOf msg.service = some s → (srv.clients s).count msg.sockaddr ≤ 1
  | .init => True

/-! ### Handlers -/

/-- What the handler does between reading and writing. -/
def serviceReply (k : MsgKind) (srv : Server) (i : Nat) (msg : MsgRegService) : Server × MsgRegService :=
  match k with
  | .unregService => unregService srv msg
  | _ => regService srv i msg

/-- The reply is the first that is written, and what comes after it changes no table. -/
theorem answer_recording (sk : Sock σ) (srv : Server) (i : Nat) (c : ClientInfo) {k : MsgKind} (hk : k ≠ .init)
    (body : List Byte) (w : σ) :
    ∃ srv' v rest ret, answer (recording sk) srv i c k body (w, []) =
        (srv', (v, (serviceReply k srv i (receivedReg body (sk.crc w))).2.toBytes :: rest), ret) ∧
      SameTables (serviceReply k srv i (receivedReg body (sk.crc w))).1 srv' := by
  have hsent : ∃ rest, (answer (recording sk) srv i c k body (w, [])).2.1.2 =
      (serviceReply k srv i (receivedReg body (sk.crc w))).2.toBytes :: rest := by
    cases k with
    | init => exact absurd rfl hk
    | regService =>
      unfold answer answerReg
      simp only
      split_ifs
      · exact ⟨[textBytes srv.mLog], rfl⟩
      · exact ⟨[textBytes srv.mLog], rfl⟩
      · exact ⟨[], rfl⟩
      · exact ⟨[], rfl⟩
    | unregService =>
      unfold answer answerUnreg
      simp only
      split_ifs <;> exact ⟨[], rfl⟩
  have htables : SameTables (serviceReply k srv i (receivedReg body (sk.crc w))).1
      (answer (recording sk) srv i c k body (w, [])).1 := by
    cases k with
    | init => exact absurd rfl hk
    | regService =>
      unfold answer answerReg
      simp only
      split_ifs <;> exact SameTables.refl _
    | unregService =>
      unfold answer answerUnreg
      simp only
      split_ifs <;> exact SameTables.refl _
  obtain ⟨rest, hrest⟩ := hsent
  exact ⟨_, _, rest, _, Prod.ext rfl (Prod.ext (Prod.ext rfl hrest) rfl), htables⟩

theorem regService_truthful (srv : Server) (i : Nat) {msg : MsgRegService} (hack : msg.status = rcciStatusAck) :
    Truthful .regService msg (regService srv i msg).1 (regService srv i msg).2 ↔ Effective .regService msg srv := by
  have hne : rcciStatusNack ≠ rcciStatusAck := by decide
  simp only [Truthful, Effective, regService]
  cases hs : serviceOf msg.service with
  | none => simp [hack]
  | some s =>
    by_cases hr : srv.running s = true
    · by_cases ha : (srv.mServices s).canAddClient = true
      · have hm : msg.sockaddr ∈ (srv.pushClient s msg.sockaddr).clients s := by
          simp [Server.clients_pushClient]
        simpa [hr, ha, register, hack] using hm
      · simp [hr, ha, register, hne]
    · simp [hr, hack]

theorem unregService_truthful (srv : Server) {msg : MsgRegService} (hack : msg.status = rcciStatusAck) :
    Truthful .unregService msg (unregService srv msg).1 (unregService srv msg).2 ↔ Effective .unregService msg srv := by
  have hne : rcciStatusNack ≠ rcciStatusAck := by decide
  simp only [Truthful, Effective, unregService]
  cases hs : serviceOf msg.service with
  | none => simp [hne]
  | some s =>
    by_cases hm : msg.sockaddr ∈ srv.clients s
    · have hcount : msg.sockaddr ∉ (srv.clients s).erase msg.sockaddr ↔ (srv.clients s).count msg.sockaddr ≤ 1 := by
        rw [← List.count_eq_zero, List.count_erase_self]
        omega
      have hlist (text : Text) : ((srv.eraseClient s msg.sockaddr).print text).clients s =
          (srv.clients s).erase msg.sockaddr := by
        rw [((SameTables.refl _).print _).clients, Server.clients_eraseClient, if_pos rfl]
      simpa [hm, hack, hlist] using hcount
    · have hcount : (srv.clients s).count msg.sockaddr = 0 := List.count_eq_zero.2 hm
      simp [hm, hack, hcount]

/-- The handlers see the message without its header, and answer with a status of their own. -/
theorem receivedReg_drop (m : List Byte) (crc : U32) :
    (receivedReg (m.drop msgHeaderSize) crc).service = (MsgRegService.ofBytes m).service ∧
      (receivedReg (m.drop msgHeaderSize) crc).sockaddr = (MsgRegService.ofBytes m).sockaddr := by
  simp [receivedReg, MsgRegService.ofBytes, SockaddrIn.ofBytes, u32_drop, u16_drop, msgHeaderSize]

theorem Truthful.congr {k : MsgKind} {msg msg' : MsgRegService} {srv srv' : Server} (hs : msg.service = msg'.service)
    (ha : msg.sockaddr = msg'.sockaddr) (ht : SameTables srv srv') (reply : MsgRegService) :
    Truthful k msg srv reply ↔ Truthful k msg' srv' reply := by
  simp only [Truthful, hs, ha, ht.clients]

theorem Effective.congr {k : MsgKind} {msg msg' : MsgRegService} (hs : msg.service = msg'.service)
    (ha : msg.sockaddr = msg'.sockaddr) (srv : Server) : Effective k msg srv ↔ Effective k msg' srv := by
  simp only [Effective, hs, ha]

/-! ### Calls -/

/-- A register or unregister message that is received is answered, and the reply agrees with what became of the request
exactly if the request was effective. -/
theorem truthful_iff_effective {sk : Sock σ} {srv : Server} {i : Nat} {c : ClientInfo} {k : MsgKind} {m : List Byte}
    {w w' : σ} (hc : srv.mConnClients[i]? = some c) (hinit : c.flags &&& rcciClientFlagInit ≠ 0) (hk : k ≠ .init)
    (hm : IsMessage k m) (hr : Receives sk c.fd m w w') :
    ∃ srv' v reply rest ret,
      processData (recording sk) srv i (w, []) = some (srv', (v, MsgRegService.toBytes reply :: rest), ret) ∧
        (Truthful k (MsgRegService.ofBytes m) srv' reply ↔ Effective k (MsgRegService.ofBytes m) srv) := by
  have hcall := processData_received hc hm (Or.inr ⟨c, hc, hinit⟩) (hr.recording [])
  obtain ⟨srv', v, rest, ret, ha, ht⟩ := answer_recording sk srv i c hk (m.drop msgHeaderSize) w'
  obtain ⟨hservice, haddr⟩ := receivedReg_drop m (sk.crc w')
  refine ⟨srv', v, _, rest, ret, hcall.trans (congrArg some ha), ?_⟩
  rw [← Truthful.congr hservice haddr ht, ← Effective.congr hservice haddr]
  cases k with
  | init => exact absurd rfl hk
  | regService => exact regService_truthful srv i rfl
  | unregService => exact unregService_truthful srv rfl

/-- A client that connects and initializes. -/
def connected : List Event := [.accept 6 true [], .process 0 (.whole initMessage)]

theorem truthful_iff_effective_drive : ∃ srv' v reply rest ret,
    processData (recording scriptSock) (accepted.orFlags 0 rcciClientFlagInit) 0
        (.whole (serviceMessage rcciMsgRegService .drive someClient), []) =
      some (srv', (v, MsgRegService.toBytes reply :: rest), ret) ∧
      (Truthful .regService (MsgRegService.ofBytes (serviceMessage rcciMsgRegService .drive someClient)) srv' reply ↔
        Effective .regService (MsgRegService.ofBytes (serviceMessage rcciMsgRegService .drive someClient))
          (accepted.orFlags 0 rcciClientFlagInit)) :=
  truthful_iff_effective (c := ⟨6, rcciClientFlagInit⟩) (by decide) (by decide) (by decide) ⟨by decide, by decide⟩
    ⟨⟨[.got ((serviceMessage rcciMsgRegService .drive someClient).drop msgHeaderSize)], [(msgRegServiceSize : Int)], 0⟩,
      rfl, rfl⟩

/-- A registration for the service 8, which does not exist. -/
def unknownService : MsgRegService where
  header := ⟨cServMagic, cServVer, rcciMsgRegService, BitVec.ofNat 32 msgRegServiceSize, 0⟩
  service := 8
  status := 0
  sockaddr := someClient
  params := 0

/-- It is acknowledged. -/
theorem not_truthful_unknownService : ∃ srv srv' v reply rest ret,
    exec Server.step (started openEnv) connected = some srv ∧
      processData (recording scriptSock) srv 0 (.whole unknownService.toBytes, []) =
          some (srv', (v, MsgRegService.toBytes reply :: rest), ret) ∧
        ¬ Truthful .regService unknownService srv' reply := by
  have hrun : ((exec Server.step (started openEnv) connected).bind fun srv =>
      (processData (recording scriptSock) srv 0 (.whole unknownService.toBytes, [])).map fun out => out.2.1.2) =
        some [unknownService.toBytes] := by
    decide
  obtain ⟨srv, hsrv, hrun⟩ := Option.bind_eq_some_iff.1 hrun
  obtain ⟨⟨srv', ⟨v, sent⟩, ret⟩, hcall, rfl⟩ := Option.map_eq_some_iff.1 hrun
  refine ⟨srv, srv', v, unknownService, [], ret, hsrv, hcall, fun h => ?_⟩
  obtain ⟨s, hs, -⟩ := h.1 rfl
  exact absurd hs (by decide +revert)

end RcCarControl.Daemon
