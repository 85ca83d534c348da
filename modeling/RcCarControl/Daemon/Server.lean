import RcCarControl.Interface.Messages

/-!
# The daemon's server

`rcciServer` of `sw/daemon/rcci_server.cpp`: its start, the connection table, the services with their client lists, and
what is done to them when clients connect, close, register and unregister.  What the logger prints it also appends to the
log and sends to the clients of the logging service.
-/

namespace RcCarControl.Daemon

open Interface LittleEndian

abbrev Text := List Char

def str (s : String) : Text := s.toList

def dec (n : Int) : Text := (toString n).toList

def ntohs (x : BitVec 16) : BitVec 16 := x.extractLsb' 0 8 ++ x.extractLsb' 8 8

def cServMagic : BitVec 16 := 0xbaba
def cServVer : BitVec 16 := 0x100

/-! ### State -/

/-- `rcci_service_id_t`. -/
inductive ServiceId where
  | logging
  | drive
deriving DecidableEq

/-- The flag of a connection that registered for the service. -/
def ServiceId.flag : ServiceId → U32
  | .logging => rcciClientFlagLog
  | .drive => rcciClientFlagDrive

/-- `rcci_service_t`. -/
structure Service where
  name : Text
  maxClients : Nat
  port : Int
  fd : Int
  clients : List SockaddrIn

def Service.canAddClient (s : Service) : Bool := s.maxClients == 0 || s.clients.length < s.maxClients

def cServiceTable : ServiceId → Service
  | .logging => ⟨str "logging", 0, -1, -1, []⟩
  | .drive => ⟨str "drive", 1, -1, -1, []⟩

/-- `rcci_client_info_t`. -/
structure ClientInfo where
  fd : Int
  flags : U32
deriving DecidableEq

def ClientInfo.has (c : ClientInfo) (s : ServiceId) : Bool := c.flags &&& s.flag != 0

structure Server where
  mListenFd : Int
  mPort : Int
  mConnClients : List ClientInfo
  mSelectThreadUpdate : Bool
  mServices : ServiceId → Service
  /-- A callback for drive data is installed. -/
  mDriveCbFunc : Bool
  /-- The thread that reads drive data was started. -/
  mDriveReadThread : Bool
  mLog : Text
  /-- What `writeServiceLog` has sent. -/
  logSent : List (SockaddrIn × Text)

/-- The constructor. -/
def Server.new : Server where
  mListenFd := -1
  mPort := -1
  mConnClients := []
  mSelectThreadUpdate := false
  mServices := cServiceTable
  mDriveCbFunc := false
  mDriveReadThread := false
  mLog := []
  logSent := []

/-- What the calls that open a UDP service return. -/
structure ServiceEnv where
  socket : Int
  bind : Int
  getsockname : Int
  port : BitVec 16
  strerror : Text

/-- What a thread that `openServer` starts prints first. -/
inductive StartText where
  | listening
  | starting
  | notStarted

def StartText.text : StartText → Text
  | listening => str "driveReadThread(): Listening for drive data\n"
  | starting => str "Starting server\n"
  | notStarted => str "Server not started, can not listen!\n"

/-- What those of `openServer` return, and its port. -/
structure OpenEnv where
  port : BitVec 16
  socket : Int
  bind : Int
  service : ServiceId → ServiceEnv
  strerror : Text
  /-- The texts of the started threads that come before the last one of `openServer`. -/
  early : List StartText
  /-- Those that come after it, before `openServer` returns. -/
  late : List StartText

namespace Server

variable (srv : Server)

def setDriveDataCb : Server := { srv with mDriveCbFunc := true }

/-- `rccLogger::print` with the callback of the daemon, `writeServiceLog`. -/
def print (text : Text) : Server :=
  { srv with
    mLog := srv.mLog ++ text
    logSent := srv.logSent ++ (srv.mServices .logging).clients.map fun a => (a, text) }

def setService (s : ServiceId) (service : Service) : Server :=
  { srv with mServices := fun t => if t = s then service else srv.mServices t }

/-! ### Start -/

/-- `startServiceServer`; its return value is ignored by its caller. -/
def startServiceServer (s : ServiceId) (env : ServiceEnv) : Server :=
  let srv := srv.setService s { srv.mServices s with fd := env.socket }
  if env.socket < 0 then
    srv.print (str "openServiceServer(): Can not open socket: " ++ env.strerror ++ str "\n")
  else if env.bind < 0 then
    srv.print (str "openServiceServer(): Can not bind: " ++ env.strerror ++ str "\n")
  else if env.getsockname < 0 then
    srv.print (str "openServiceServer(): getsockname() failed: " ++ env.strerror ++ str "\n")
  else
    let service := { srv.mServices s with port := env.port.toNat, clients := [] }
    (srv.setService s service).print
      (service.name ++ str " service started at port: " ++ dec service.port ++ str " fd: " ++ dec service.fd ++ str "\n")

/-- `startDriveThread`. -/
def startDriveThread : Server :=
  if srv.mDriveReadThread then srv.print (str "Drive data thread already running\n")
  else if (srv.mServices .drive).fd ≤ 0 ∨ (srv.mServices .drive).port ≤ 0 then
    srv.print (str "Drive service seems not to be running. Not starting new thread.\n")
  else { srv with mDriveReadThread := true }

def printStarts (texts : List StartText) : Server := texts.foldl (fun srv t => srv.print t.text) srv

/-- `openServer` with `listenServer`; the threads print while it goes on. -/
def openServer (env : OpenEnv) : Server × Int :=
  let srv := { srv with mListenFd := env.socket }
  if env.socket < 0 then
    (srv.print (str "Can not open socket on port" ++ dec env.port.toNat ++ str ": " ++ env.strerror ++ str "\n"), -1)
  else if env.bind < 0 then
    (srv.print (str "Can not bind: " ++ env.strerror ++ str "\n"), -1)
  else
    let srv := { srv with mPort := (ntohs env.port).toNat }.print
      (str "Server open on port: " ++ dec (ntohs (ntohs env.port)).toNat ++ str "\n")
    let srv := (srv.startServiceServer .logging (env.service .logging)).startServiceServer .drive (env.service .drive)
    let srv := srv.startDriveThread
    (((srv.printStarts env.early).print (str "Started accepting thread\n")).printStarts env.late, 0)

/-! ### Connections -/

/-- `addClient` for the descriptor that `accept` returned; `name` is what `getnameinfo` made of the peer's address. -/
def addClient (fd : Int) (resolved : Bool) (name : Text) : Server :=
  let srv := if resolved then srv else srv.print (str "Can not resolve client hostname\n")
  let srv : Server := { srv with
    mConnClients := srv.mConnClients ++ [⟨fd, rcciClientFlagNone⟩]
    mSelectThreadUpdate := true }
  srv.print (str "Client connected: " ++ name ++ str " (num of clients: " ++ dec srv.mConnClients.length ++ str ")\n")

/-- `removeClient` for the connection `c` at index `i`: the first entry with its descriptor is closed and erased.  The
text is made after that and shows the descriptor that has moved to the place of `c`. -/
def removeClient (i : Nat) (c : ClientInfo) : Server :=
  if srv.mConnClients.any fun it => it.fd = c.fd then
    let conns := srv.mConnClients.eraseP fun it => it.fd = c.fd
    { srv with mConnClients := conns, mSelectThreadUpdate := true }.print
      (str "Removing client " ++ dec (conns.getD i c).fd ++ str " (Num of clients: " ++ dec conns.length ++ str ")\n")
  else srv

/-- `cInfo.flags |= flag` on the connection at index `i`. -/
def orFlags (i : Nat) (flag : U32) : Server :=
  { srv with mConnClients := srv.mConnClients.modify i fun c => { c with flags := c.flags ||| flag } }

/-! ### Services -/

def clients (s : ServiceId) : List SockaddrIn := (srv.mServices s).clients

/-- The service has a socket and a port. -/
def running (s : ServiceId) : Bool := 0 < (srv.mServices s).port && 0 < (srv.mServices s).fd

def pushClient (s : ServiceId) (a : SockaddrIn) : Server :=
  srv.setService s { srv.mServices s with clients := srv.clients s ++ [a] }

/-- The first entry with the address is erased. -/
def eraseClient (s : ServiceId) (a : SockaddrIn) : Server :=
  srv.setService s { srv.mServices s with clients := (srv.clients s).erase a }

end Server

end RcCarControl.Daemon
