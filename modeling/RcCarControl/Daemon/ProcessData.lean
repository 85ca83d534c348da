import RcCarControl.Daemon.Server

/-!
# What arrives at the server

`processData` with its three handlers, and one turn of `driveReadThread`.  The TCP sockets are a parameter (`Sock`): what
`read` and `write` return is up to it, and a `read` may also block for good.
-/

namespace RcCarControl.Daemon

open Interface LittleEndian

variable {σ : Type}

/-! ### Sockets -/

inductive ReadResult where
  | failed (strerror : Text)
  | got (bytes : List Byte)
deriving DecidableEq

namespace ReadResult

def bytes : ReadResult → List Byte
  | failed _ => []
  | got bytes => bytes

/-- The return value of `read`; 0 is the end of the file. -/
def count : ReadResult → Int
  | failed _ => -1
  | got bytes => bytes.length

end ReadResult

/-- The TCP sockets, with a state of their own. -/
structure Sock (σ : Type) where
  /-- `read` of at most the given number of bytes, `none` if it never returns. -/
  read : Int → Nat → σ → Option (ReadResult × σ)
  /-- The return value of `write`. -/
  write : Int → List Byte → σ → Int × σ
  /-- What lies on the stack where the checksum of a reply is, which no handler sets. -/
  crc : σ → U32

def textBytes (t : Text) : List Byte := t.map fun c => BitVec.ofNat 8 c.toNat

/-- The end of an error text about a number of bytes. -/
def incorrect (bytes expected : Int) (direction : String) (fd : Int) : Text :=
  dec bytes ++ str " != " ++ dec expected ++ str direction ++ dec fd ++ str "\n"

/-! ### Messages -/

/-- What a handler insists on, and what its error texts show. -/
structure Expected where
  type : U32
  magic : BitVec 16
  ver : BitVec 16
  size : Nat
  wrongText : String
  expectedText : U32
  sizeText : String

inductive MsgKind where
  | init
  | regService
  | unregService
deriving DecidableEq

def MsgKind.expected : MsgKind → Expected
  | .init =>
    ⟨rcciMsgInit, rcciMsgInitMagic, rcciMsgInitVer, msgInitSize,
      "processMsgInit() wrong message received, type: ", rcciMsgInit, "processMsgInit() received size incorrect: "⟩
  | .regService =>
    ⟨rcciMsgRegService, cServMagic, cServVer, msgRegServiceSize,
      "processMsgRegService() wrong message received, type: ", rcciMsgRegService,
      "processMsgRegClient() received size incorrect: "⟩
  | .unregService =>
    ⟨rcciMsgUnregService, cServMagic, cServVer, msgRegServiceSize,
      "processMsgUnregService() wrong message received, type: ", rcciMsgRegService,
      "processMsgUnregClient() received size incorrect: "⟩

namespace Expected

/-- The header passes the check of the handler. -/
def accepts (x : Expected) (header : MsgHeader) : Bool :=
  header.type == x.type && header.magic == x.magic && header.ver == x.ver

/-- `remBytes`: the size of the message behind its header. -/
def remBytes (x : Expected) : Nat := x.size - msgHeaderSize

end Expected

/-- The first part of the handlers: the header is checked and the rest of the message is read. -/
def readMessage (sk : Sock σ) (x : Expected) (srv : Server) (c : ClientInfo) (header : MsgHeader) (w : σ)
    (next : List Byte → σ → Server × σ × Int) : Option (Server × σ × Int) :=
  if x.accepts header then
    (sk.read c.fd x.remBytes w).map fun r =>
      if r.1.count = (x.remBytes : Int) then next r.1.bytes r.2
      else (srv.print (str x.sizeText ++ incorrect r.1.count x.remBytes " from: " c.fd), r.2, -1)
  else
    some (srv.print (str x.wrongText ++ dec header.type.toNat ++ str " expected: " ++ dec x.expectedText.toNat ++
      str " from: " ++ dec c.fd ++ str "\n"), w, -1)

/-! ### Handlers -/

/-- `processMsgInit` after the message was read. -/
def answerInit (sk : Sock σ) (srv : Server) (i : Nat) (c : ClientInfo) (w : σ) : Server × σ × Int :=
  let msg : MsgInit :=
    { header := ⟨cServMagic, cServVer, rcciMsgInit, BitVec.ofNat 32 msgInitSize, 0⟩
      status := rcciStatusAck
      logPort := BitVec.ofInt 32 (srv.mServices .logging).port
      drvPort := BitVec.ofInt 32 (srv.mServices .drive).port }
  let wr := sk.write c.fd msg.toBytes w
  if wr.1 = msgInitSize then (srv.orFlags i rcciClientFlagInit, wr.2, 0)
  else (srv.print (str "processMsgInit() write 1 size incorrect: " ++ incorrect wr.1 msgInitSize " to: " c.fd), wr.2, -1)

/-- A register or unregister message as it was read, with the header and the status of its reply. -/
def receivedReg (body : List Byte) (crc : U32) : MsgRegService where
  header := ⟨cServMagic, cServVer, rcciMsgRegService, BitVec.ofNat 32 msgRegServiceSize, crc⟩
  service := u32 body 0
  status := rcciStatusAck
  sockaddr := SockaddrIn.ofBytes body 8
  params := u32 body 24

/-- The service with this flag. -/
def serviceOf (service : U32) : Option ServiceId :=
  if service = rcciClientFlagLog then some .logging else if service = rcciClientFlagDrive then some .drive else none

/-- The client is added if the service has room for it; a full log that is requested counts in the size of the reply. -/
def register (srv : Server) (i : Nat) (s : ServiceId) (msg : MsgRegService) : Server × MsgRegService :=
  let size := if s = .logging ∧ msg.params ≠ 0 then msg.header.size + BitVec.ofNat 32 srv.mLog.length else msg.header.size
  let msg := { msg with header.size := size }
  if (srv.mServices s).canAddClient then ((srv.pushClient s msg.sockaddr).orFlags i s.flag, msg)
  else (srv, { msg with status := rcciStatusNack })

/-- What `processMsgRegService` does between reading and writing; a service that is not running gets no client, and the
reply is an acknowledgement. -/
def regService (srv : Server) (i : Nat) (msg : MsgRegService) : Server × MsgRegService :=
  match serviceOf msg.service with
  | some s => if srv.running s then register srv i s msg else (srv, msg)
  | none => (srv, msg)

/-- `processMsgRegService` after the message was read. -/
def answerReg (sk : Sock σ) (srv : Server) (i : Nat) (c : ClientInfo) (body : List Byte) (w : σ) : Server × σ × Int :=
  let serverLog := srv.mLog
  let reg := regService srv i (receivedReg body (sk.crc w))
  let wr := sk.write c.fd reg.2.toBytes w
  if wr.1 = msgRegServiceSize then
    if reg.2.service = rcciClientFlagLog ∧ reg.1.running .logging ∧ reg.2.params ≠ 0 ∧ 0 < serverLog.length ∧
        reg.2.status = rcciStatusAck then
      let wr := sk.write c.fd (textBytes serverLog) wr.2
      if wr.1 = serverLog.length then (reg.1, wr.2, 0)
      else
        (reg.1.print (str "processMsgRegClient() log write incorrect: " ++ incorrect wr.1 serverLog.length " to: " c.fd),
          wr.2, -1)
    else (reg.1, wr.2, 0)
  else
    (reg.1.print (str "processMsgRegClient() write 1 size incorrect: " ++ incorrect wr.1 msgRegServiceSize " to: " c.fd),
      wr.2, -1)

/-- What `processMsgUnregService` does between reading and writing: the address is taken from the service's list, whoever
registered it. -/
def unregService (srv : Server) (msg : MsgRegService) : Server × MsgRegService :=
  match serviceOf msg.service with
  | some s =>
    if msg.sockaddr ∈ srv.clients s then
      ((srv.eraseClient s msg.sockaddr).print
        (str "Removing client for service " ++ (srv.mServices s).name ++ str "\n"), msg)
    else (srv, msg)
  | none =>
    (srv.print (str "processMsgUnregClient() unknown service flag: " ++ dec msg.service.toNat ++ str "\n"),
      { msg with status := rcciStatusNack })

/-- `processMsgUnregService` after the message was read. -/
def answerUnreg (sk : Sock σ) (srv : Server) (c : ClientInfo) (body : List Byte) (w : σ) : Server × σ × Int :=
  let unreg := unregService srv (receivedReg body (sk.crc w))
  let wr := sk.write c.fd unreg.2.toBytes w
  if wr.1 = msgRegServiceSize then (unreg.1, wr.2, 0)
  else
    (unreg.1.print (str "processMsgRegClient() write 1 size incorrect: " ++
      incorrect wr.1 msgRegServiceSize " to: " c.fd), wr.2, -1)

/-- What a handler does after the message was read. -/
def answer (sk : Sock σ) (srv : Server) (i : Nat) (c : ClientInfo) : MsgKind → List Byte → σ → Server × σ × Int
  | .init => fun _ => answerInit sk srv i c
  | .regService => answerReg sk srv i c
  | .unregService => answerUnreg sk srv c

def processMsg (sk : Sock σ) (k : MsgKind) (srv : Server) (i : Nat) (c : ClientInfo) (header : MsgHeader) (w : σ) :
    Option (Server × σ × Int) :=
  readMessage sk k.expected srv c header w (answer sk srv i c k)

def processMsgInit (sk : Sock σ) := processMsg sk .init
def processMsgRegService (sk : Sock σ) := processMsg sk .regService
def processMsgUnregService (sk : Sock σ) := processMsg sk .unregService

/-- `processData` behind the reading of the header. -/
def processHeader (sk : Sock σ) (srv : Server) (i : Nat) (c : ClientInfo) (header : MsgHeader) (w : σ) :
    Option (Server × σ × Int) :=
  if c.flags &&& rcciClientFlagInit = 0 then processMsgInit sk srv i c header w
  else if header.type = rcciMsgInit then processMsgInit sk srv i c header w
  else if header.type = rcciMsgRegService then processMsgRegService sk srv i c header w
  else if header.type = rcciMsgUnregService then processMsgUnregService sk srv i c header w
  else some (srv, w, -1)

/-- The handler that `processData` calls, if any. -/
def headerKind (c : ClientInfo) (header : MsgHeader) : Option MsgKind :=
  if c.flags &&& rcciClientFlagInit = 0 ∨ header.type = rcciMsgInit then some .init
  else if header.type = rcciMsgRegService then some .regService
  else if header.type = rcciMsgUnregService then some .unregService
  else none

theorem processHeader_eq (sk : Sock σ) (srv : Server) (i : Nat) (c : ClientInfo) (header : MsgHeader) (w : σ) :
    processHeader sk srv i c header w =
      match headerKind c header with
      | some k => processMsg sk k srv i c header w
      | none => some (srv, w, -1) := by
  unfold processHeader headerKind
  by_cases hi : c.flags &&& rcciClientFlagInit = 0
  · simp only [hi, true_or, if_true, processMsgInit]
  · simp only [hi, false_or, if_false]
    split_ifs <;> rfl

/-- `processData` for the connection at index `i`. -/
def processData (sk : Sock σ) (srv : Server) (i : Nat) (w : σ) : Option (Server × σ × Int) :=
  srv.mConnClients[i]?.bind fun c =>
    (sk.read c.fd msgHeaderSize w).bind fun r =>
      match r.1 with
      | .failed strerror => some (srv.print (str "read() failed: " ++ strerror ++ str "\n"), r.2, -1)
      | .got bytes =>
        if bytes = [] then some (srv.removeClient i c, r.2, 0)
        else if bytes.length = msgHeaderSize then processHeader sk srv i c (MsgHeader.ofBytes bytes) r.2
        else
          some (srv.print (str "Init header size wrong: " ++ dec bytes.length ++ str " != " ++ dec msgHeaderSize ++
            str "\n"), r.2, -1)

/-! ### Drive data -/

inductive DriveRead where
  | called (drvData : MsgDrvCtrl)
  | unknownSource
  /-- `clients[0]` is read and there is no client. -/
  | outOfBounds
  | wrongSize
deriving DecidableEq

/-- One turn of `driveReadThread` with a datagram, of which `recvfrom` keeps what fits into the structure.  What follows
an access out of bounds is not modelled: the server stays as it is. -/
def driveRead (srv : Server) (sockAddr : SockaddrIn) (datagram : List Byte) : Server × DriveRead :=
  let bytes := datagram.take msgDrvCtrlSize
  if srv.mDriveCbFunc ∧ bytes.length = msgDrvCtrlSize then
    match srv.clients .drive with
    | [] => (srv, .outOfBounds)
    | client :: _ =>
      if sockAddr = client then (srv, .called (MsgDrvCtrl.ofBytes bytes))
      else (srv.print (str "Drive command comming from unknown source! Ignored!\n"), .unknownSource)
  else
    (srv.print (str "driveReadThread() wrong bytes read: " ++ dec bytes.length ++ str " != " ++ dec msgDrvCtrlSize),
      .wrongSize)

end RcCarControl.Daemon
