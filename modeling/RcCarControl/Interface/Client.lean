import RcCarControl.Interface.Messages

/-!
# The client

`rcciClient` of `sw/interface/rcci_client.cpp` as far as it talks to the server on its TCP connection.  The system calls
are a parameter (`Net`), and so is what lies on the stack and on the heap where the code does not write.
-/

namespace RcCarControl.Interface

open LittleEndian

/-! ### System calls -/

inductive SockType where
  | stream
  | dgram
deriving DecidableEq

/-- The system calls of the client, with a state of their own. -/
structure Net (σ : Type) where
  socket : SockType → σ → Int × σ
  /-- The address of the host, if it is known. -/
  gethostbyname : List Char → σ → Option U32 × σ
  /-- `connect` of a socket of the given type. -/
  connect : SockType → Int → SockaddrIn → σ → Int × σ
  /-- The address of the socket; `none` is a negative return value. -/
  getsockname : Int → σ → Option SockaddrIn × σ
  write : Int → List Byte → σ → Int × σ
  /-- What `read` returns and the bytes it stores, `none` if it never returns. -/
  read : Int → Nat → σ → Option (Int × List Byte × σ)
  close : Int → σ → σ
  /-- What lies on the stack where a message structure is. -/
  stack : σ → List Byte
  /-- What lies on the heap behind the buffer for the log. -/
  heap : σ → List Byte

def htons (x : BitVec 16) : BitVec 16 := x.extractLsb' 0 8 ++ x.extractLsb' 8 8

/-- `AF_INET`. -/
def afInet : BitVec 16 := 2

/-! ### State -/

structure Client where
  mPort : Int
  mSockFd : Int
  mServAddr : SockaddrIn
  /-- There is a host entry. -/
  mServer : Bool
  mMagic : BitVec 16
  mVersion : BitVec 16
  mLogPort : Int
  mLogFd : Int
  mDrvPort : Int
  mDrvFd : Int
  /-- For each request that was written, what the function that sent it returned, and the structure it evaluated. -/
  returned : List (Int × List Byte)

/-- The constructor, which leaves `mServAddr` as it is. -/
def Client.new (mServAddr : SockaddrIn) : Client where
  mPort := -1
  mSockFd := -1
  mServAddr := mServAddr
  mServer := false
  mMagic := 0
  mVersion := 0
  mLogPort := -1
  mLogFd := -1
  mDrvPort := -1
  mDrvFd := -1
  returned := []

/-- A client and the system after a call, with its return value. -/
structure Out (σ : Type) where
  cl : Client
  w : σ
  ret : Int

/-- The string that the caller passes to `logConnect`, and how many bytes outside of the received ones were read for it. -/
structure LogStr where
  aStr : List Byte
  outside : Nat
deriving DecidableEq

/-- The constructor of `std::string` from a pointer: the bytes in front of the first zero byte. -/
def cString (bytes : List Byte) : List Byte := bytes.takeWhile (· ≠ 0)

namespace Client

variable {σ : Type} (net : Net σ) (cl : Client)

def isConnected : Bool := 0 < cl.mPort && 0 < cl.mSockFd && cl.mServer

/-! ### Requests -/

/-- What `sendInitMsg`, `registerService` and `unregisterService` do alike: `msg` is written, and the reply is read into
the same structure, of which `check` makes the return value.  A short reply leaves the rest of the structure as it was. -/
def request (msg : List Byte) (check : Int → List Byte → Int) (w : σ) : Option (Out σ × List Byte) :=
  let wr := net.write cl.mSockFd msg w
  if wr.1 < 0 then some (⟨cl, wr.2, -1⟩, msg)
  else
    (net.read cl.mSockFd msg.length wr.2).map fun r =>
      let msg := r.2.1 ++ msg.drop r.2.1.length
      let ret := if r.1 < 0 then -1 else check r.1 msg
      (⟨{ cl with returned := cl.returned ++ [(ret, msg)] }, r.2.2, ret⟩, msg)

def checkInit (bytes : Int) (msg : List Byte) : Int :=
  let initMsg := MsgInit.ofBytes msg
  if initMsg.status ≠ rcciStatusAck ∨ bytes ≠ msgInitSize then -1 else 0

def sendInitMsg (w : σ) : Option (Out σ) :=
  if cl.isConnected then
    let initMsg := MsgInit.ofBytes (net.stack w)
    let initMsg := { initMsg with
      header := { initMsg.header with
        type := rcciMsgInit
        magic := rcciMsgInitMagic
        ver := rcciMsgInitVer
        size := BitVec.ofNat 32 msgInitSize } }
    (cl.request net initMsg.toBytes checkInit w).map fun r =>
      if r.1.ret < 0 then ⟨r.1.cl, r.1.w, -1⟩
      else
        let initMsg := MsgInit.ofBytes r.2
        ⟨{ r.1.cl with
          mMagic := initMsg.header.magic
          mVersion := initMsg.header.ver
          mLogPort := initMsg.logPort.toInt
          mDrvPort := initMsg.drvPort.toInt }, r.1.w, 0⟩
  else some ⟨cl, w, -1⟩

/-- The message of `registerService` and of `unregisterService`. -/
def serviceMsg (type service params : U32) (sockAddr : SockaddrIn) (w : σ) : MsgRegService :=
  let msg := MsgRegService.ofBytes (net.stack w)
  { msg with
    header := { msg.header with
      type := type
      magic := cl.mMagic
      ver := cl.mVersion
      size := BitVec.ofNat 32 msgRegServiceSize }
    service := service
    sockaddr := sockAddr
    params := params }

def checkRegister (bytes : Int) (msg : List Byte) : Int :=
  let msg := MsgRegService.ofBytes msg
  if msg.status ≠ rcciStatusAck then -1
  else if msg.header.magic ≠ cl.mMagic ∨ msg.header.ver ≠ cl.mVersion ∨ msg.header.type ≠ rcciMsgRegService ∨
      bytes ≠ msgRegServiceSize then -1
  else msg.header.size.toInt

/-- `unregisterService` checks nothing but the status. -/
def checkUnregister (_bytes : Int) (msg : List Byte) : Int :=
  if (MsgRegService.ofBytes msg).status ≠ rcciStatusAck then -1 else 0

def registerService (service : U32) (srvFd : Int) (params : U32) (w : σ) : Option (Out σ) :=
  match net.getsockname srvFd w with
  | (none, w) => some ⟨cl, w, -1⟩
  | (some sockAddr, w) =>
    let msg := cl.serviceMsg net rcciMsgRegService service params sockAddr w
    (cl.request net msg.toBytes cl.checkRegister w).map Prod.fst

def unregisterService (service : U32) (srvFd : Int) (w : σ) : Option (Out σ) :=
  match net.getsockname srvFd w with
  | (none, w) => some ⟨cl, w, -1⟩
  | (some sockAddr, w) =>
    let msg := cl.serviceMsg net rcciMsgUnregService service 0 sockAddr w
    (cl.request net msg.toBytes checkUnregister w).map Prod.fst

/-! ### Connections -/

/-- `connect`. -/
def connect (hostname : List Char) (port : Int) (w : σ) : Option (Out σ) :=
  let sock := net.socket .stream w
  if sock.1 < 0 then some ⟨cl, sock.2, -1⟩
  else
    match net.gethostbyname hostname sock.2 with
    | (none, w) => some ⟨{ cl with mServer := false }, w, -1⟩
    | (some addr, w) =>
      let cl := { cl with mServer := true, mServAddr := ⟨afInet, htons (BitVec.ofInt 16 port), addr, (0, 0)⟩ }
      let conn := net.connect .stream sock.1 cl.mServAddr w
      if conn.1 < 0 then some ⟨cl, conn.2, -1⟩
      else
        let cl := { cl with mSockFd := sock.1, mPort := port }
        cl.sendInitMsg net conn.2

/-- The new value of `aServFd`; `none` if it stays as it is and -1 is returned. -/
def serviceConnect (aServPort : Int) (w : σ) : Option Int × σ :=
  if aServPort ≤ 0 then (none, w)
  else
    let sock := net.socket .dgram w
    if sock.1 < 0 then (none, sock.2)
    else
      let conn := net.connect .dgram sock.1 { cl.mServAddr with sinPort := htons (BitVec.ofInt 16 aServPort) } sock.2
      if conn.1 < 0 then (none, conn.2) else (some sock.1, conn.2)

/-- `registerLog`.  A buffer of a negative size is not allocated, and the call throws. -/
def registerLog (fullLog : Bool) (aStr : List Byte) (w : σ) : Option (Out σ × LogStr) :=
  (cl.registerService net rcciClientFlagLog cl.mLogFd (if fullLog then 1 else 0) w).bind fun r =>
    if r.ret < 0 then some (⟨r.cl, r.w, -1⟩, ⟨aStr, 0⟩)
    else
      -- unsigned, so that only the size of the bare reply is not larger
      let rem := BitVec.ofInt 32 r.ret - BitVec.ofNat 32 msgRegServiceSize
      if fullLog ∧ 0 < rem then
        let remBytes := rem.toInt
        if remBytes < 0 then none
        else
          (net.read r.cl.mSockFd remBytes.toNat r.w).map fun rd =>
            if rd.1 ≠ remBytes then (⟨r.cl, rd.2.2, -1⟩, ⟨aStr, 0⟩)
            else
              let str := cString (rd.2.1 ++ net.heap rd.2.2)
              (⟨r.cl, rd.2.2, 0⟩, ⟨str, str.length + 1 - remBytes.toNat⟩)
      else some (⟨r.cl, r.w, 0⟩, ⟨aStr, 0⟩)

def logConnect (aStr : List Byte) (fullLog : Bool) (w : σ) : Option (Out σ × LogStr) :=
  match cl.serviceConnect net cl.mLogPort w with
  | (none, w) => some (⟨cl, w, -1⟩, ⟨aStr, 0⟩)
  | (some fd, w) =>
    let cl := { cl with mLogFd := fd }
    (cl.registerLog net fullLog aStr w).map fun r =>
      (if r.1.ret < 0 then ⟨r.1.cl, r.1.w, -1⟩ else ⟨r.1.cl, r.1.w, r.1.cl.mLogFd⟩, r.2)

def logDisconnect (w : σ) : Option (Out σ) :=
  if cl.mLogFd < 0 then some ⟨cl, w, 0⟩
  else
    (cl.unregisterService net rcciClientFlagLog cl.mLogFd w).map fun r =>
      ⟨{ r.cl with mLogFd := -1 }, net.close r.cl.mLogFd r.w, 0⟩

def drvConnect (w : σ) : Option (Out σ) :=
  match cl.serviceConnect net cl.mDrvPort w with
  | (none, w) => some ⟨cl, w, -1⟩
  | (some fd, w) =>
    let cl := { cl with mDrvFd := fd }
    (cl.registerService net rcciClientFlagDrive fd 0 w).map fun r =>
      if r.ret < 0 then ⟨r.cl, r.w, -1⟩ else ⟨r.cl, r.w, r.cl.mDrvFd⟩

def drvDisconnect (w : σ) : Option (Out σ) :=
  if cl.mDrvFd < 0 then some ⟨cl, w, 0⟩
  else
    (cl.unregisterService net rcciClientFlagDrive cl.mDrvFd w).map fun r =>
      ⟨{ r.cl with mDrvFd := -1 }, net.close r.cl.mDrvFd r.w, 0⟩

end Client

end RcCarControl.Interface
