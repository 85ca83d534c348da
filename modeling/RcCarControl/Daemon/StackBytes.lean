import RcCarControl.Daemon.Acknowledge
import RcCarControl.Interface.Client

/-!
# What is written of the stack

The handlers and the client build their messages in local structures that nothing initializes, and write them whole.  Only
`processMsgInit` sets every field.  The checksum of the other replies, and of the client's messages also the status and the
ports, are what the stack held before (`sent_eq_iff_covers`).
-/

namespace RcCarControl.Interface

open LittleEndian

/-- The system calls over a stack, and what was handed to `write`.  A `read` that never returns fails here, as nothing is
written behind it. -/
def Net.watched {τ : Type} (net : Net τ) (stack : List Byte) : Net (τ × List (List Byte)) where
  socket type w := ((net.socket type w.1).1, (net.socket type w.1).2, w.2)
  gethostbyname hostname w := ((net.gethostbyname hostname w.1).1, (net.gethostbyname hostname w.1).2, w.2)
  connect type fd a w := ((net.connect type fd a w.1).1, (net.connect type fd a w.1).2, w.2)
  getsockname fd w := ((net.getsockname fd w.1).1, (net.getsockname fd w.1).2, w.2)
  write fd bytes w := ((net.write fd bytes w.1).1, (net.write fd bytes w.1).2, w.2 ++ [bytes])
  read fd n w :=
    match net.read fd n w.1 with
    | some r => some (r.1, r.2.1, r.2.2, w.2)
    | none => some (-1, [], w)
  close fd w := (net.close fd w.1, w.2)
  stack _ := stack
  heap w := net.heap w.1

end RcCarControl.Interface

namespace RcCarControl.Daemon

open Interface LittleEndian

variable {σ τ : Type}

/-! ### The replies -/

/-- The sockets with a handler's structure on this stack. -/
def Sock.onStack (sk : Sock σ) (stack : List Byte) : Sock σ := { sk with crc := fun _ => u32 stack 12 }

/-- The structure of `processMsgRegService` and `processMsgUnregService`: the rest of the message is read behind the header,
and the fields are set. -/
def localMsg (stack body : List Byte) : MsgRegService :=
  let msg := MsgRegService.ofBytes ((List.range msgHeaderSize).map (stack.getD · 0) ++ body)
  { msg with
    header := { msg.header with
      magic := cServMagic
      ver := cServVer
      type := rcciMsgRegService
      size := BitVec.ofNat 32 msgRegServiceSize }
    status := rcciStatusAck }

/-- Of the stack only the checksum is left. -/
theorem localMsg_eq (stack body : List Byte) : localMsg stack body = receivedReg body (u32 stack 12) := by
  have hlen : ((List.range msgHeaderSize).map (stack.getD · 0)).length = 16 := by
    rw [List.length_map, List.length_range]
    rfl
  have hword (k : Nat) := u32_append hlen body k
  have hhalf (k : Nat) := u16_append hlen body k
  have hcrc : u32 ((List.range msgHeaderSize).map (stack.getD · 0) ++ body) 12 = u32 stack 12 := by
    have hbyte (k : Nat) (hk : k < 16) :
        ((List.range msgHeaderSize).map (stack.getD · 0) ++ body).getD k 0 = stack.getD k 0 := by
      rw [List.getD_eq_getElem?_getD, List.getElem?_append_left (by omega), List.getElem?_map,
        List.getElem?_range (show k < msgHeaderSize from hk)]
      rfl
    unfold u32
    rw [hbyte 15 (by omega), hbyte 14 (by omega), hbyte 13 (by omega), hbyte 12 (by omega)]
  have haddr : SockaddrIn.ofBytes ((List.range msgHeaderSize).map (stack.getD · 0) ++ body) 24 =
      SockaddrIn.ofBytes body 8 := by
    unfold SockaddrIn.ofBytes
    rw [hword 12, hword 16, hword 20, hhalf 8, hhalf 10]
  unfold localMsg MsgRegService.ofBytes MsgHeader.ofBytes receivedReg
  simp only [hcrc, haddr, hword 24, hword 0]

/-! ### Messages -/

/-- The functions that write a message structure. -/
inductive Filling where
  | processMsg (k : MsgKind) (srv : Server) (i : Nat) (c : ClientInfo) (header : MsgHeader)
  | sendInitMsg (cl : Client)
  | registerService (cl : Client) (service : U32) (srvFd : Int) (params : U32)
  | unregisterService (cl : Client) (service : U32) (srvFd : Int)

namespace Filling

variable (sk : Sock σ) (net : Net τ) (w : σ) (v : τ)

/-- The message structure that is written over this stack, if one is. -/
def sent (stack : List Byte) : Filling → Option (List Byte)
  | .processMsg k srv i c header =>
    (Daemon.processMsg (recording (sk.onStack stack)) k srv i c header (w, [])).bind fun out => out.2.1.2.head?
  | .sendInitMsg cl => (cl.sendInitMsg (net.watched stack) (v, [])).bind fun out => out.w.2.head?
  | .registerService cl service srvFd params =>
    (cl.registerService (net.watched stack) service srvFd params (v, [])).bind fun out => out.w.2.head?
  | .unregisterService cl service srvFd =>
    (cl.unregisterService (net.watched stack) service srvFd (v, [])).bind fun out => out.w.2.head?

/-- The message is accepted, and its rest is read whole. -/
def Receives (k : MsgKind) (c : ClientInfo) (header : MsgHeader) : Prop :=
  k.expected.accepts header ∧
    ∃ body w', sk.read c.fd k.expected.remBytes w = some (.got body, w') ∧ body.length = k.expected.remBytes

/-- The two stacks agree on what the function does not set, unless it writes no message. -/
def Covers (stack stack' : List Byte) : Filling → Prop
  | .processMsg k _ _ c header =>
    k = .init ∨ ¬ Receives sk w k c header ∨ u32 stack 12 = u32 stack' 12
  | .sendInitMsg cl =>
    cl.isConnected = false ∨ (u32 stack 12 = u32 stack' 12 ∧ u32 stack 16 = u32 stack' 16 ∧
      u32 stack 20 = u32 stack' 20 ∧ u32 stack 24 = u32 stack' 24)
  | .registerService _ _ srvFd _ | .unregisterService _ _ srvFd =>
    (net.getsockname srvFd v).1 = none ∨ (u32 stack 12 = u32 stack' 12 ∧ u32 stack 20 = u32 stack' 20)

end Filling

/-! ### The server -/

section Server

variable {sk : Sock σ} {k : MsgKind} {srv : Server} {i : Nat} {c : ClientInfo} {header : MsgHeader} {w : σ}

/-- The reply has the checksum of the stack. -/
theorem crc_serviceReply (k : MsgKind) (srv : Server) (i : Nat) (msg : MsgRegService) :
    (serviceReply k srv i msg).2.header.crc = msg.header.crc := by
  have hreg : (regService srv i msg).2.header.crc = msg.header.crc := by
    unfold regService
    split
    · split
      · unfold register
        simp only
        split <;> rfl
      · rfl
    · rfl
  cases k with
  | init => exact hreg
  | regService => exact hreg
  | unregService =>
    show (unregService srv msg).2.header.crc = msg.header.crc
    unfold unregService
    split
    · split <;> rfl
    · rfl

/-- A message that is not received is not answered. -/
theorem sent_unreceived (h : ¬ Filling.Receives sk w k c header) (net : Net τ) (v : τ) (stack : List Byte) :
    (Filling.processMsg k srv i c header).sent sk net w v stack = none := by
  simp only [Filling.sent, processMsg, readMessage]
  by_cases ha : k.expected.accepts header = true
  · rw [if_pos ha]
    cases hr : sk.read c.fd k.expected.remBytes w with
    | none => simp [recording, Sock.onStack, hr]
    | some r =>
      have hne : r.1.count ≠ (k.expected.remBytes : Int) := by
        intro hcount
        cases hb : r.1 with
        | failed strerror =>
          rw [hb] at hcount
          simp only [ReadResult.count] at hcount
          omega
        | got body =>
          rw [hb] at hcount
          simp only [ReadResult.count, Int.natCast_inj] at hcount
          exact h ⟨ha, body, r.2, by rw [hr, ← hb], hcount⟩
      simp [recording, Sock.onStack, hr, hne]
  · rw [if_neg ha]
    rfl

/-- A message that is received is answered. -/
theorem sent_received (h : Filling.Receives sk w k c header) (srv : Server) (i : Nat) (net : Net τ) (v : τ) :
    ∃ body w', ∀ stack, (Filling.processMsg k srv i c header).sent sk net w v stack =
      (answer (recording (sk.onStack stack)) srv i c k body (w', [])).2.1.2.head? := by
  obtain ⟨ha, body, w', hr, hlen⟩ := h
  refine ⟨body, w', fun stack => ?_⟩
  have hcount : (ReadResult.got body).count = (k.expected.remBytes : Int) := congrArg Nat.cast hlen
  have hread : (recording (sk.onStack stack)).read c.fd k.expected.remBytes (w, []) = some (.got body, w', []) := by
    simp [recording, Sock.onStack, hr]
  simp only [Filling.sent, processMsg, readMessage, if_pos ha, hread, Option.map_some, if_pos hcount, Option.bind_some]
  rfl

/-- The reply about a service is the structure on the stack. -/
theorem sent_service (h : Filling.Receives sk w k c header) (hk : k ≠ .init) (srv : Server) (i : Nat) (net : Net τ) (v : τ) :
    ∃ body, ∀ stack, (Filling.processMsg k srv i c header).sent sk net w v stack =
      some (serviceReply k srv i (localMsg stack body)).2.toBytes := by
  obtain ⟨body, w', hsent⟩ := sent_received h srv i net v
  refine ⟨body, fun stack => ?_⟩
  obtain ⟨srv', v, rest, ret, ha, -⟩ := answer_recording (sk.onStack stack) srv i c hk body w'
  rw [hsent, ha, localMsg_eq]
  rfl

theorem sent_init (srv : Server) (i : Nat) (c : ClientInfo) (body : List Byte) (w : σ) (stack stack' : List Byte) :
    (answer (recording (sk.onStack stack)) srv i c .init body (w, [])).2.1.2 =
      (answer (recording (sk.onStack stack')) srv i c .init body (w, [])).2.1.2 := by
  have hsent (stack : List Byte) : (answer (recording (sk.onStack stack)) srv i c .init body (w, [])).2.1.2 =
      [MsgInit.toBytes
        { header := ⟨cServMagic, cServVer, rcciMsgInit, BitVec.ofNat 32 msgInitSize, 0⟩
          status := rcciStatusAck
          logPort := BitVec.ofInt 32 (srv.mServices .logging).port
          drvPort := BitVec.ofInt 32 (srv.mServices .drive).port }] := by
    unfold answer answerInit
    simp only
    split <;> rfl
  rw [hsent, hsent]

theorem processMsg_sent_eq_iff (net : Net τ) (v : τ) (stack stack' : List Byte) :
    (Filling.processMsg k srv i c header).sent sk net w v stack =
        (Filling.processMsg k srv i c header).sent sk net w v stack' ↔
      (Filling.processMsg k srv i c header).Covers sk net w v stack stack' := by
  simp only [Filling.Covers]
  by_cases h : Filling.Receives sk w k c header
  · by_cases hk : k = .init
    · subst hk
      obtain ⟨body, w', hsent⟩ := sent_received h srv i net v
      rw [hsent, hsent]
      exact iff_of_true (by rw [sent_init srv i c body w' stack stack']) (Or.inl rfl)
    · obtain ⟨body, hsent⟩ := sent_service h hk srv i net v
      rw [hsent, hsent, Option.some.injEq, or_iff_right hk, or_iff_right (not_not.2 h)]
      constructor
      · intro heq
        have hmsg := congrArg MsgRegService.ofBytes heq
        rw [MsgRegService.ofBytes_toBytes, MsgRegService.ofBytes_toBytes] at hmsg
        have hcrc := congrArg (fun m => m.header.crc) hmsg
        simpa only [crc_serviceReply, localMsg_eq, receivedReg] using hcrc
      · intro hcrc
        rw [localMsg_eq, localMsg_eq, hcrc]
  · rw [sent_unreceived h, sent_unreceived h]
    exact iff_of_true rfl (Or.inr (Or.inl h))

end Server

/-! ### The client -/

section Client

variable {net : Net τ} {cl : Client} {v : τ}

/-- A request writes its message, and nothing else. -/
theorem request_watched (net : Net τ) (cl : Client) (stack msg : List Byte) (check : Int → List Byte → Int) (v : τ) :
    ∃ out, cl.request (net.watched stack) msg check (v, []) = some out ∧ out.1.w.2 = [msg] := by
  unfold Client.request Net.watched
  simp only
  split
  · exact ⟨_, rfl, rfl⟩
  · split
    · exact ⟨_, rfl, rfl⟩
    · exact ⟨_, rfl, rfl⟩

theorem sendInitMsg_sent (sk : Sock σ) (w : σ) (hc : cl.isConnected = true) (stack : List Byte) :
    (Filling.sendInitMsg cl).sent sk net w v stack = some (MsgInit.toBytes
      { header := ⟨rcciMsgInitMagic, rcciMsgInitVer, rcciMsgInit, BitVec.ofNat 32 msgInitSize, u32 stack 12⟩
        status := u32 stack 16
        logPort := u32 stack 20
        drvPort := u32 stack 24 }) := by
  simp only [Filling.sent, Client.sendInitMsg, if_pos hc]
  obtain ⟨out, hout, hsent⟩ := request_watched net cl stack _ Client.checkInit v
  rw [hout]
  simp only [Option.map_some, Option.bind_some]
  split
  · rw [hsent]
    rfl
  · rw [hsent]
    rfl

theorem sendInitMsg_sent_eq_iff (sk : Sock σ) (w : σ) (stack stack' : List Byte) :
    (Filling.sendInitMsg cl).sent sk net w v stack = (Filling.sendInitMsg cl).sent sk net w v stack' ↔
      (Filling.sendInitMsg cl).Covers sk net w v stack stack' := by
  simp only [Filling.Covers]
  cases hc : cl.isConnected with
  | false =>
    have hnone (stack : List Byte) : (Filling.sendInitMsg cl).sent sk net w v stack = none := by
      simp [Filling.sent, Client.sendInitMsg, hc]
    rw [hnone, hnone]
    exact iff_of_true rfl (Or.inl rfl)
  | true =>
    rw [sendInitMsg_sent sk w hc, sendInitMsg_sent sk w hc, Option.some.injEq, or_iff_right (by simp)]
    constructor
    · intro heq
      have hmsg := congrArg MsgInit.ofBytes heq
      rw [MsgInit.ofBytes_toBytes, MsgInit.ofBytes_toBytes] at hmsg
      simp only [MsgInit.mk.injEq, MsgHeader.mk.injEq, true_and] at hmsg
      exact hmsg
    · rintro ⟨hcrc, hstatus, hlog, hdrv⟩
      rw [hcrc, hstatus, hlog, hdrv]

/-- The messages for a service agree if the stacks do where the function sets nothing. -/
theorem serviceMsg_eq_iff (type service params : U32) (sockAddr : SockaddrIn) (w : τ × List (List Byte))
    (stack stack' : List Byte) :
    (cl.serviceMsg (net.watched stack) type service params sockAddr w).toBytes =
        (cl.serviceMsg (net.watched stack') type service params sockAddr w).toBytes ↔
      u32 stack 12 = u32 stack' 12 ∧ u32 stack 20 = u32 stack' 20 := by
  have hmsg (stack : List Byte) : cl.serviceMsg (net.watched stack) type service params sockAddr w =
      { header := ⟨cl.mMagic, cl.mVersion, type, BitVec.ofNat 32 msgRegServiceSize, u32 stack 12⟩
        service := service
        status := u32 stack 20
        sockaddr := sockAddr
        params := params } := rfl
  rw [hmsg, hmsg]
  constructor
  · intro heq
    have heq := congrArg MsgRegService.ofBytes heq
    rw [MsgRegService.ofBytes_toBytes, MsgRegService.ofBytes_toBytes] at heq
    simp only [MsgRegService.mk.injEq, MsgHeader.mk.injEq, true_and, and_true] at heq
    exact heq
  · rintro ⟨hcrc, hstatus⟩
    rw [hcrc, hstatus]

/-- `registerService` and `unregisterService` write the message for the address of their socket, if it has one. -/
theorem service_sent_eq_iff {f : Filling} {sk : Sock σ} {w : σ} {srvFd : Int} {type service params : U32}
    (hsent : ∀ stack, f.sent sk net w v stack = (net.getsockname srvFd v).1.map fun sockAddr =>
      (cl.serviceMsg (net.watched stack) type service params sockAddr ((net.getsockname srvFd v).2, [])).toBytes)
    (stack stack' : List Byte) :
    f.sent sk net w v stack = f.sent sk net w v stack' ↔
      ((net.getsockname srvFd v).1 = none ∨ (u32 stack 12 = u32 stack' 12 ∧ u32 stack 20 = u32 stack' 20)) := by
  rw [hsent, hsent]
  cases hname : (net.getsockname srvFd v).1 with
  | none => exact iff_of_true rfl (Or.inl rfl)
  | some sockAddr =>
    rw [or_iff_right (by simp), Option.map_some, Option.map_some, Option.some.injEq]
    exact serviceMsg_eq_iff type service params sockAddr _ stack stack'

theorem registerService_sent (sk : Sock σ) (w : σ) (service : U32) (srvFd : Int) (params : U32) (stack : List Byte) :
    (Filling.registerService cl service srvFd params).sent sk net w v stack = (net.getsockname srvFd v).1.map fun sockAddr =>
      (cl.serviceMsg (net.watched stack) rcciMsgRegService service params sockAddr
        ((net.getsockname srvFd v).2, [])).toBytes := by
  have hcall : (net.watched stack).getsockname srvFd (v, []) =
      ((net.getsockname srvFd v).1, (net.getsockname srvFd v).2, []) := rfl
  simp only [Filling.sent, Client.registerService]
  rw [hcall]
  cases hname : (net.getsockname srvFd v).1 with
  | none => rfl
  | some sockAddr =>
    obtain ⟨out, hout, hsent⟩ := request_watched net cl stack
      (cl.serviceMsg (net.watched stack) rcciMsgRegService service params sockAddr
        ((net.getsockname srvFd v).2, [])).toBytes cl.checkRegister (net.getsockname srvFd v).2
    simp only [hout, Option.map_some, Option.bind_some, hsent, List.head?_cons]

theorem unregisterService_sent (sk : Sock σ) (w : σ) (service : U32) (srvFd : Int) (stack : List Byte) :
    (Filling.unregisterService cl service srvFd).sent sk net w v stack = (net.getsockname srvFd v).1.map fun sockAddr =>
      (cl.serviceMsg (net.watched stack) rcciMsgUnregService service 0 sockAddr
        ((net.getsockname srvFd v).2, [])).toBytes := by
  have hcall : (net.watched stack).getsockname srvFd (v, []) =
      ((net.getsockname srvFd v).1, (net.getsockname srvFd v).2, []) := rfl
  simp only [Filling.sent, Client.unregisterService]
  rw [hcall]
  cases hname : (net.getsockname srvFd v).1 with
  | none => rfl
  | some sockAddr =>
    obtain ⟨out, hout, hsent⟩ := request_watched net cl stack
      (cl.serviceMsg (net.watched stack) rcciMsgUnregService service 0 sockAddr
        ((net.getsockname srvFd v).2, [])).toBytes Client.checkUnregister (net.getsockname srvFd v).2
    simp only [hout, Option.map_some, Option.bind_some, hsent, List.head?_cons]

end Client

/-! ### Both -/

/-- Over two stacks the same message is written exactly if they agree on what the function does not set. -/
theorem sent_eq_iff_covers (sk : Sock σ) (net : Net τ) (w : σ) (v : τ) (f : Filling) (stack stack' : List Byte) :
    f.sent sk net w v stack = f.sent sk net w v stack' ↔ f.Covers sk net w v stack stack' := by
  cases f with
  | processMsg k srv i c header => exact processMsg_sent_eq_iff net v stack stack'
  | sendInitMsg cl => exact sendInitMsg_sent_eq_iff sk w stack stack'
  | registerService cl service srvFd params =>
    exact service_sent_eq_iff (registerService_sent sk w service srvFd params) stack stack'
  | unregisterService cl service srvFd =>
    exact service_sent_eq_iff (unregisterService_sent sk w service srvFd) stack stack'

/-- The reply to a registration, over a stack of zeros and one that has a 1 in its thirteenth byte. -/
theorem sent_ne_registration : ∃ srv c, Lts.exec Server.step (started openEnv) connected = some srv ∧
    srv.mConnClients[0]? = some c ∧ ∃ w : Script, ∀ (τ : Type) (net : Net τ) (v : τ),
      (Filling.processMsg .regService srv 0 c
          (MsgHeader.ofBytes (serviceMessage rcciMsgRegService .drive someClient))).sent scriptSock net w v
        (List.replicate 44 0) ≠
      (Filling.processMsg .regService srv 0 c
          (MsgHeader.ofBytes (serviceMessage rcciMsgRegService .drive someClient))).sent scriptSock net w v
        (List.replicate 12 0 ++ 1 :: List.replicate 31 0) := by
  have hrun : ((Lts.exec Server.step (started openEnv) connected).bind fun srv => srv.mConnClients[0]?.map (·.fd)) =
      some 6 := by decide
  obtain ⟨srv, hsrv, hrun⟩ := Option.bind_eq_some_iff.1 hrun
  obtain ⟨c, hc, hfd⟩ := Option.map_eq_some_iff.1 hrun
  refine ⟨srv, c, hsrv, hc, ⟨[.got ((serviceMessage rcciMsgRegService .drive someClient).drop msgHeaderSize)], [44], 0⟩,
    fun τ net v heq => ?_⟩
  have hreceives : Filling.Receives scriptSock
      ⟨[.got ((serviceMessage rcciMsgRegService .drive someClient).drop msgHeaderSize)], [44], 0⟩ .regService c
      (MsgHeader.ofBytes (serviceMessage rcciMsgRegService .drive someClient)) := by
    refine ⟨by decide, (serviceMessage rcciMsgRegService .drive someClient).drop msgHeaderSize, ⟨[], [44], 0⟩, ?_, rfl⟩
    rw [hfd]
    rfl
  rcases (processMsg_sent_eq_iff net v _ _).1 heq with hk | hk | hk
  · cases hk
  · exact hk hreceives
  · exact absurd hk (by decide)

end RcCarControl.Daemon
