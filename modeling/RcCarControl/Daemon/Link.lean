import RcCarControl.Daemon.Segmentation
import RcCarControl.Interface.Client

/-!
# Client and server on one connection

`linkNet` are the system calls of a client whose TCP connection leads to the server: what the client writes arrives whole
and is served at once, and the bytes of the server reach the client's reads in any segmentation.  `Link.step` is one call
of the client, or anything else that happens at the server.  When the server handles a message and when it does something
else makes no difference to the client but for the order, as the bytes of the connection stay in their order.
-/

namespace RcCarControl.Daemon

open Interface LittleEndian

/-! ### The connection -/

structure Link where
  srv : Server
  /-- The index of the client's connection in the server's table. -/
  conn : Option Nat
  /-- The bytes of the server that the client has not read. -/
  pending : List Byte
  /-- How often the client has called `read`. -/
  reads : Nat
  /-- What the server has written for each message of the client. -/
  answers : List (List (List Byte))

/-- What the system calls of one call of the client return, and what is in memory where nothing was written. -/
structure CallEnv where
  socket : Int
  host : Option U32
  connect : Int
  sockName : Option SockaddrIn
  /-- The descriptor that the server accepts a new connection with, and whether and how it names the peer. -/
  accepted : Int
  resolved : Bool
  name : Text
  stack : List Byte
  heap : List Byte
  serverStack : Nat → U32

/-- How many bytes a `read` for `n` of them returns. -/
def Link.taken (seg : Nat → Nat) (n : Nat) (w : Link) : Nat := min (max 1 (seg w.reads)) (min n w.pending.length)

/-- The server takes the message from the connection at index `i`. -/
def Link.served (env : CallEnv) (w : Link) (i : Nat) (msg : List Byte) : Server × List (List (List Byte)) :=
  serve (fun _ => msg.length) env.serverStack msg.length w.srv i ⟨msg, 0, []⟩

/-- The client's descriptors are positive, as the standard streams have 0 to 2. -/
def linkNet (seg : Nat → Nat) (env : CallEnv) : Net Link where
  socket _ w := (if 0 < env.socket then env.socket else -1, w)
  gethostbyname _ w := (env.host, w)
  connect type _ _ w :=
    match type with
    | .dgram => (env.connect, w)
    | .stream =>
      if env.connect < 0 then (env.connect, w)
      else
        (env.connect, { w with
          srv := w.srv.addClient env.accepted env.resolved env.name
          conn := some w.srv.mConnClients.length
          pending := [] })
  getsockname _ w := (env.sockName, w)
  write _ msg w :=
    match w.conn with
    | none => (-1, w)
    | some i =>
      let r := w.served env i msg
      (msg.length, { w with
        srv := r.1
        pending := w.pending ++ r.2.flatten.flatten
        answers := w.answers ++ [r.2.flatten] })
  read _ n w :=
    if w.pending = [] then none
    else
      some (Link.taken seg n w, w.pending.take (Link.taken seg n w),
        { w with pending := w.pending.drop (Link.taken seg n w), reads := w.reads + 1 })
  close _ w := w
  stack _ := env.stack
  heap _ := env.heap

/-- The connection that the server adds for the client. -/
def Link.accepted (env : CallEnv) (w : Link) : Link :=
  { w with
    srv := w.srv.addClient env.accepted env.resolved env.name
    conn := some w.srv.mConnClients.length
    pending := [] }

section Net

variable (seg : Nat → Nat) (env : CallEnv) (w : Link)

theorem linkNet_socket (type : SockType) :
    (linkNet seg env).socket type w = (if 0 < env.socket then env.socket else -1, w) := rfl

theorem linkNet_gethostbyname (hostname : Text) : (linkNet seg env).gethostbyname hostname w = (env.host, w) := rfl

theorem linkNet_getsockname (fd : Int) : (linkNet seg env).getsockname fd w = (env.sockName, w) := rfl

theorem linkNet_connect_stream (fd : Int) (a : SockaddrIn) :
    (linkNet seg env).connect .stream fd a w = (env.connect, if env.connect < 0 then w else w.accepted env) := by
  simp only [linkNet]
  split <;> rfl

end Net

/-! ### Calls -/

inductive Call where
  | connect (hostname : Text) (port : Int)
  | logConnect (aStr : List Byte) (fullLog : Bool)
  | logDisconnect
  | drvConnect
  | drvDisconnect

inductive LinkEvent where
  | call (call : Call) (env : CallEnv)
  /-- Anything else at the server, after which the connection is at index `i`. -/
  | other (srv : Server) (i : Nat)

abbrev LinkState := Client × Link

def Call.run (seg : Nat → Nat) (env : CallEnv) (cl : Client) (w : Link) : Call → Option (Out Link)
  | .connect hostname port => cl.connect (linkNet seg env) hostname port w
  | .logConnect aStr fullLog => (cl.logConnect (linkNet seg env) aStr fullLog w).map Prod.fst
  | .logDisconnect => cl.logDisconnect (linkNet seg env) w
  | .drvConnect => cl.drvConnect (linkNet seg env) w
  | .drvDisconnect => cl.drvDisconnect (linkNet seg env) w

namespace LinkState

def step (seg : Nat → Nat) (r : LinkState) : LinkEvent → Option LinkState
  | .call call env => (call.run seg env r.1 r.2).map fun out => (out.cl, out.w)
  | .other srv i =>
    match r.2.conn with
    | none => some (r.1, { r.2 with srv := srv })
    | some j =>
      if srv.mConnClients[i]? = r.2.srv.mConnClients[j]? then some (r.1, { r.2 with srv := srv, conn := some i })
      else none

/-- A client that has not connected yet. -/
def start (srv : Server) (mServAddr : SockaddrIn) : LinkState := (.new mServAddr, ⟨srv, none, [], 0, []⟩)

end LinkState

/-- All calls succeed, and what was not written is 0. -/
def openCall : CallEnv where
  socket := 5
  host := some 0x0100007F
  connect := 0
  sockName := some someClient
  accepted := 6
  resolved := true
  name := str "127.0.0.1:40000"
  stack := []
  heap := []
  serverStack _ := 0

/-! ### The answer to a message -/

section Answers

variable {env : CallEnv} {w : Link} {i : Nat} {c : ClientInfo}

/-- A message is answered by one call. -/
theorem served_message (hc : w.srv.mConnClients[i]? = some c) {k : MsgKind} {m : List Byte} (hm : IsMessage k m)
    (hk : k = .init ∨ Initialized w.srv i) :
    w.served env i m =
      let out := answer (streamSock (fun _ => m.length) env.serverStack) w.srv i c k (m.drop msgHeaderSize) ⟨[], 2, []⟩
      (out.1, [out.2.1.sent]) := by
  have hsize := k.headerSize_lt
  have hlen := hm.1
  have hne : m ≠ [] := by
    rw [← List.length_pos_iff]
    omega
  have hle : msgHeaderSize ≤ m.length := by omega
  have hans : processData (streamSock (fun _ => m.length) env.serverStack) w.srv i ⟨m ++ [], 0, []⟩ = _ :=
    processData_answer env.serverStack hc hm hk [] hle (Nat.sub_le _ _)
  rw [List.append_nil] at hans
  obtain ⟨fuel, hfuel⟩ : ∃ fuel, m.length = fuel + 1 := ⟨m.length - 1, by omega⟩
  obtain ⟨srv', sent, ret, ha, -, -⟩ := answer_stream (fun _ => m.length) env.serverStack hc k (m.drop msgHeaderSize)
    ⟨[], 2, []⟩
  unfold Link.served
  rw [ha] at hans ⊢
  rw [hfuel] at hans ⊢
  rw [serve_succ fuel (w := ⟨m, 0, []⟩) hne hans, serve_nil]

theorem isMessage_init {m : MsgInit}
    (hm : m.header.type = rcciMsgInit ∧ m.header.magic = rcciMsgInitMagic ∧ m.header.ver = rcciMsgInitVer) :
    IsMessage .init m.toBytes := by
  refine ⟨m.length_toBytes, ?_⟩
  unfold MsgInit.toBytes
  rw [List.append_assoc, List.append_assoc, MsgHeader.ofBytes_take_append]
  simp [Expected.accepts, MsgKind.expected, hm]

theorem isMessage_service {k : MsgKind} (hk : k ≠ .init) {m : MsgRegService}
    (hm : m.header.type = k.expected.type ∧ m.header.magic = cServMagic ∧ m.header.ver = cServVer) :
    IsMessage k m.toBytes := by
  unfold MsgRegService.toBytes
  simp only [List.append_assoc]
  cases k with
  | init => exact absurd rfl hk
  | regService => exact ⟨m.length_toBytes, by rw [MsgHeader.ofBytes_take_append]; simp [Expected.accepts, hm]; decide⟩
  | unregService => exact ⟨m.length_toBytes, by rw [MsgHeader.ofBytes_take_append]; simp [Expected.accepts, hm]; decide⟩

/-- What the server makes of the message of a client before it looks at the service. -/
theorem receivedReg_toBytes (m : MsgRegService) (crc : U32) :
    receivedReg (m.toBytes.drop msgHeaderSize) crc =
      ⟨⟨cServMagic, cServVer, rcciMsgRegService, BitVec.ofNat 32 msgRegServiceSize, crc⟩, m.service, rcciStatusAck,
        m.sockaddr, m.params⟩ := by
  have hm : MsgRegService.ofBytes m.toBytes = m := m.ofBytes_toBytes
  have hservice := congrArg MsgRegService.service hm
  have hsockaddr := congrArg MsgRegService.sockaddr hm
  have hparams := congrArg MsgRegService.params hm
  simp only [MsgRegService.ofBytes] at hservice hsockaddr hparams
  unfold receivedReg
  rw [u32_drop, u32_drop]
  have hdrop : SockaddrIn.ofBytes (m.toBytes.drop msgHeaderSize) 8 = SockaddrIn.ofBytes m.toBytes 24 := by
    simp only [SockaddrIn.ofBytes, u16_drop, u32_drop]
    rfl
  rw [hdrop, hsockaddr]
  exact congr (congrArg (fun service => MsgRegService.mk _ service _ _) hservice) hparams

/-- The reply to an init message. -/
def Link.welcome (w : Link) : MsgInit :=
  ⟨⟨cServMagic, cServVer, rcciMsgInit, BitVec.ofNat 32 msgInitSize, 0⟩, rcciStatusAck,
    BitVec.ofInt 32 (w.srv.mServices .logging).port, BitVec.ofInt 32 (w.srv.mServices .drive).port⟩

theorem served_init (hc : w.srv.mConnClients[i]? = some c) {m : List Byte} (hm : IsMessage .init m) :
    w.served env i m = (w.srv.orFlags i rcciClientFlagInit, [[w.welcome.toBytes]]) := by
  rw [served_message hc hm (Or.inl rfl)]
  rfl

theorem served_unregister (hc : w.srv.mConnClients[i]? = some c) (hinit : Initialized w.srv i) {m : List Byte}
    (hm : IsMessage .unregService m) : ∃ srv' reply, w.served env i m = (srv', [[MsgRegService.toBytes reply]]) := by
  rw [served_message hc hm (Or.inr hinit)]
  exact ⟨_, (unregService w.srv (receivedReg (m.drop msgHeaderSize) (env.serverStack 2))).2, rfl⟩

/-- The registration of a client at the server, with the reply. -/
def Link.registered (env : CallEnv) (w : Link) (i : Nat) (msg : MsgRegService) : Server × MsgRegService :=
  regService w.srv i
    ⟨⟨cServMagic, cServVer, rcciMsgRegService, BitVec.ofNat 32 msgRegServiceSize, env.serverStack 2⟩, msg.service,
      rcciStatusAck, msg.sockaddr, msg.params⟩

/-- What the server writes behind the reply. -/
def Link.logBehind (w : Link) (reg : Server × MsgRegService) : List (List Byte) :=
  if reg.2.service = rcciClientFlagLog ∧ reg.1.running .logging ∧ reg.2.params ≠ 0 ∧ 0 < w.srv.mLog.length ∧
      reg.2.status = rcciStatusAck then
    [textBytes w.srv.mLog]
  else []

theorem served_register (hc : w.srv.mConnClients[i]? = some c) (hinit : Initialized w.srv i) {m : MsgRegService}
    (hm : IsMessage .regService m.toBytes) :
    w.served env i m.toBytes =
      ((w.registered env i m).1, [(w.registered env i m).2.toBytes :: w.logBehind (w.registered env i m)]) := by
  rw [served_message hc hm (Or.inr hinit)]
  have hwrite (n : Nat) (bytes : List Byte) (v : Stream) :
      (streamSock (fun _ => n) env.serverStack).write c.fd bytes v =
        ((bytes.length : Int), { v with sent := v.sent ++ [bytes] }) := rfl
  have hcrc (n : Nat) (v : Stream) : (streamSock (fun _ => n) env.serverStack).crc v = env.serverStack v.reads := rfl
  have hlog : ((textBytes w.srv.mLog).length : Int) = w.srv.mLog.length := by rw [textBytes, List.length_map]
  simp only [answer, answerReg, receivedReg_toBytes, hwrite, hcrc, MsgRegService.length_toBytes, if_true]
  unfold Link.logBehind Link.registered
  generalize regService w.srv i _ = reg
  by_cases hbehind : reg.2.service = rcciClientFlagLog ∧ reg.1.running .logging ∧ reg.2.params ≠ 0 ∧
      0 < w.srv.mLog.length ∧ reg.2.status = rcciStatusAck
  · simp only [if_pos hbehind, if_pos hlog]
    rfl
  · simp only [if_neg hbehind]
    rfl

variable (env w i) in
/-- A registration at the logging service: the log is counted in the size if it is asked for and the service runs, and it
is sent if besides the client is admitted. -/
theorem registered_logging {m : MsgRegService} (hm : m.service = rcciClientFlagLog) :
    (w.registered env i m).2.header =
        ⟨cServMagic, cServVer, rcciMsgRegService, BitVec.ofNat 32 msgRegServiceSize +
          (if w.srv.running .logging ∧ m.params ≠ 0 then BitVec.ofNat 32 w.srv.mLog.length else 0),
          env.serverStack 2⟩ ∧
      ((w.registered env i m).2.status = rcciStatusAck ↔ (w.srv.running .logging → w.srv.admits .logging)) ∧
      w.logBehind (w.registered env i m) =
        if w.srv.admits .logging ∧ m.params ≠ 0 ∧ 0 < w.srv.mLog.length then [textBytes w.srv.mLog] else [] := by
  have hservice : serviceOf m.service = some .logging := by rw [hm]; rfl
  have hnack : rcciStatusNack ≠ rcciStatusAck := by decide
  unfold Link.logBehind Link.registered regService
  simp only [hservice]
  by_cases hr : w.srv.running .logging = true
  · by_cases hc : (w.srv.mServices .logging).canAddClient = true
    · have hadm : w.srv.admits .logging = true := by simp [Server.admits, hr, hc]
      have hrun : ((w.srv.pushClient .logging m.sockaddr).orFlags i ServiceId.logging.flag).running .logging = true := by
        rw [← hr]
        exact w.srv.running_pushClient .logging .logging m.sockaddr
      simp only [register, if_pos hc, hadm, hr, hm]
      by_cases hp : m.params = 0#32
      · simp [hp]
      · simp [hp, hrun]
    · have hadm : w.srv.admits .logging = false := by simp [Server.admits, hc]
      simp only [register, if_neg hc, hadm, hr]
      by_cases hp : m.params = 0#32
      · simp [hp, hnack]
      · simp [hp, hnack]
  · have hadm : w.srv.admits .logging = false := by simp [Server.admits, hr]
    simp [hr, hadm]

/-- Nothing is written behind the reply to another service, or if no log is asked for. -/
theorem logBehind_eq_nil {m : MsgRegService} (hm : m.service ≠ rcciClientFlagLog ∨ m.params = 0) :
    w.logBehind (w.registered env i m) = [] := by
  have hsame : (w.registered env i m).2.service = m.service ∧ (w.registered env i m).2.params = m.params := by
    unfold Link.registered regService register
    split
    · simp only
      split_ifs <;> exact ⟨rfl, rfl⟩
    · exact ⟨rfl, rfl⟩
  unfold Link.logBehind
  rw [hsame.1, hsame.2, if_neg]
  rintro ⟨hservice, -, hparams, -⟩
  exact hm.elim (fun h => h hservice) hparams

/-- No header of `msgHeaderSize` bytes in the stream, read one after the other, is that of an init message. -/
def NoInit (p : List Byte) : Prop :=
  ∀ j, msgHeaderSize ≤ (p.drop (msgHeaderSize * j)).length →
    MsgKind.init.expected.accepts (MsgHeader.ofBytes ((p.drop (msgHeaderSize * j)).take msgHeaderSize)) = false

/-- The messages for the two services are too short to hide one. -/
theorem noInit_service {m : MsgRegService} (htype : m.header.type ≠ rcciMsgInit)
    (hservice : m.service = rcciClientFlagLog ∨ m.service = rcciClientFlagDrive) : NoInit m.toBytes := by
  intro j hj
  match j with
  | 0 =>
    unfold MsgRegService.toBytes
    simp only [Nat.mul_zero, List.drop_zero, List.append_assoc, MsgHeader.ofBytes_take_append]
    simp [Expected.accepts, MsgKind.expected, htype]
  | 1 =>
    -- the second 16 bytes begin with the service, where the magic would be
    have hmagic : (MsgHeader.ofBytes ((m.toBytes.drop (msgHeaderSize * 1)).take msgHeaderSize)).magic =
        u16 (bytes32 m.service) 0 := rfl
    have hne : u16 (bytes32 m.service) 0 ≠ rcciMsgInitMagic := by
      rcases hservice with h | h
      · rw [h]
        decide
      · rw [h]
        decide
    rw [← hmagic] at hne
    simp only [Expected.accepts, MsgKind.expected, Bool.and_eq_false_iff, beq_eq_false_iff_ne]
    exact Or.inl (Or.inr hne)
  | j + 2 =>
    rw [List.length_drop, m.length_toBytes, show msgRegServiceSize = 44 from rfl, show msgHeaderSize = 16 from rfl] at hj
    omega

/-- A connection without its init flag gets no answer to anything else. -/
theorem serve_noInit {n : Nat} (hn : msgHeaderSize ≤ n) (crc : Nat → U32) (hinit : c.flags &&& rcciClientFlagInit = 0)
    (fuel : Nat) {srv : Server} (hc : srv.mConnClients[i]? = some c) {p : List Byte} (hp : NoInit p) (r : Nat) :
    (serve (fun _ => n) crc fuel srv i ⟨p, r, []⟩).2.flatten = [] := by
  induction fuel generalizing srv p r with
  | zero => rfl
  | succ fuel ih =>
    by_cases hne : p = []
    · subst hne
      rw [serve_nil]
      rfl
    · have hpos : 0 < p.length := List.length_pos_iff.2 hne
      have htaken : taken (fun _ => n) msgHeaderSize ⟨p, r, []⟩ = min msgHeaderSize p.length := by
        have h16 : msgHeaderSize = 16 := rfl
        unfold taken
        simp only
        omega
      have hrest : NoInit (p.drop msgHeaderSize) := fun j hj => by
        have hdrop : (p.drop msgHeaderSize).drop (msgHeaderSize * j) = p.drop (msgHeaderSize * (j + 1)) := by
          rw [List.drop_drop, Nat.mul_succ, Nat.add_comm]
        rw [hdrop] at hj ⊢
        exact hp (j + 1) hj
      -- the header is read, and the handler or the read of a short header prints an error
      have hread : (streamSock (fun _ => n) crc).read c.fd msgHeaderSize ⟨p, r, []⟩ =
          some (.got (p.take msgHeaderSize), ⟨p.drop msgHeaderSize, r + 1, []⟩) := by
        simp only [streamSock, if_neg hne, htaken]
        by_cases hle : msgHeaderSize ≤ p.length
        · rw [Nat.min_eq_left hle]
        · rw [Nat.min_eq_right (by omega), List.take_length, List.drop_length, List.take_of_length_le (by omega),
            List.drop_of_length_le (by omega)]
      have htake : p.take msgHeaderSize ≠ [] := by
        rw [← List.length_pos_iff, List.length_take]
        exact Nat.lt_min.2 ⟨by decide, hpos⟩
      have hcall : ∃ text, processData (streamSock (fun _ => n) crc) srv i ⟨p, r, []⟩ =
          some (srv.print text, ⟨p.drop msgHeaderSize, r + 1, []⟩, -1) := by
        unfold processData
        simp only [hc, Option.bind_some, hread, if_neg htake]
        by_cases hle : msgHeaderSize ≤ p.length
        · have hlen : (p.take msgHeaderSize).length = msgHeaderSize := by
            rw [List.length_take]
            exact Nat.min_eq_left hle
          have haccepts := hp 0 (by simpa using hle)
          simp only [Nat.mul_zero, List.drop_zero] at haccepts
          rw [if_pos hlen, processHeader_eq, headerKind, if_pos (Or.inl hinit)]
          simp only [processMsg, readMessage, haccepts]
          exact ⟨_, rfl⟩
        · have hlen : (p.take msgHeaderSize).length ≠ msgHeaderSize := by
            rw [List.length_take]
            omega
          rw [if_neg hlen]
          exact ⟨_, rfl⟩
      obtain ⟨text, hcall⟩ := hcall
      rw [serve_succ fuel (w := ⟨p, r, []⟩) hne hcall]
      simp only [List.flatten_cons, List.nil_append]
      have hc' : (srv.print text).mConnClients[i]? = some c := hc
      exact ih hc' hrest (r + 1)

end Answers

/-! ### Requests -/

section Requests

variable {seg : Nat → Nat} {env : CallEnv} {cl : Client} {w : Link} {i : Nat} {msg reply : List Byte}
  {rest : List (List Byte)}

theorem request_unconnected (hconn : w.conn = none) (check : Int → List Byte → Int) :
    cl.request (linkNet seg env) msg check w = some (⟨cl, w, -1⟩, msg) := by
  simp [Client.request, linkNet, hconn]

theorem request_unanswered (hconn : w.conn = some i) (hempty : w.pending = [])
    (hserved : (w.served env i msg).2.flatten = []) (check : Int → List Byte → Int) :
    cl.request (linkNet seg env) msg check w = none := by
  have hwrite : ¬ ((msg.length : Int) < 0) := by omega
  simp [Client.request, linkNet, hconn, hempty, hserved, hwrite]

/-- A request finds the stream empty and reads the whole reply: it evaluates the reply to itself, and leaves what the
server wrote behind it. -/
theorem request_answered (hconn : w.conn = some i) (hempty : w.pending = [])
    (hserved : (w.served env i msg).2.flatten = reply :: rest) (hlen : reply.length = msg.length) (hpos : 0 < msg.length)
    (hseg : msg.length ≤ seg w.reads) (check : Int → List Byte → Int) :
    cl.request (linkNet seg env) msg check w =
      some (⟨{ cl with returned := cl.returned ++ [(check msg.length reply, reply)] },
        { w with
          srv := (w.served env i msg).1
          pending := rest.flatten
          reads := w.reads + 1
          answers := w.answers ++ [reply :: rest] },
        check msg.length reply⟩, reply) := by
  have hwrite : ¬ ((msg.length : Int) < 0) := by omega
  have hne : reply ++ rest.flatten ≠ [] := by
    rw [← List.length_pos_iff, List.length_append]
    omega
  have htaken (srv : Server) (answers : List (List (List Byte))) :
      Link.taken seg msg.length ⟨srv, some i, reply ++ rest.flatten, w.reads, answers⟩ = msg.length := by
    unfold Link.taken
    simp only [List.length_append]
    omega
  unfold Client.request
  simp only [linkNet, hconn, hempty, hserved, if_neg hwrite, List.nil_append, List.flatten_cons, if_neg hne,
    Option.map_some]
  have htake : (reply ++ rest.flatten).take msg.length = reply := by rw [← hlen, List.take_left]
  have hdrop : (reply ++ rest.flatten).drop msg.length = rest.flatten := by rw [← hlen, List.drop_left]
  have hover : msg.drop reply.length = [] := by rw [hlen, List.drop_length]
  simp only [htaken, htake, hdrop, hover, List.append_nil, if_neg hwrite]

/-! ### The log behind a reply -/

/-- `INT_MAX`. -/
def intMax : Nat := 0x7FFFFFFF

theorem toInt_ofNat_of_le {n : Nat} (h : n ≤ intMax) : (BitVec.ofNat 32 n).toInt = n := by
  have hmax : intMax = 2147483647 := rfl
  rw [BitVec.toInt_eq_toNat_of_lt, BitVec.toNat_ofNat, Nat.mod_eq_of_lt (by omega)]
  rw [BitVec.toNat_ofNat, Nat.mod_eq_of_lt (by omega)]
  omega

/-- What `registerLog` computes from the size of a reply is the number that was added to it. -/
theorem rem_eq (n : Nat) :
    BitVec.ofInt 32 (BitVec.ofNat 32 msgRegServiceSize + BitVec.ofNat 32 n).toInt - BitVec.ofNat 32 msgRegServiceSize =
      BitVec.ofNat 32 n := by
  rw [BitVec.ofInt_toInt, BitVec.add_comm, BitVec.add_sub_cancel]

/-- All that is pending is read whole. -/
theorem read_pending {bytes : List Byte} {n : Nat} (hw : w.pending = bytes) (hlen : bytes.length = n) (hpos : 0 < n)
    (hseg : n ≤ seg w.reads) (fd : Int) :
    (linkNet seg env).read fd n w = some ((n : Int), bytes, { w with pending := [], reads := w.reads + 1 }) := by
  have hne : bytes ≠ [] := by
    rw [← List.length_pos_iff, hlen]
    exact hpos
  have htaken : Link.taken seg n w = n := by
    unfold Link.taken
    rw [hw]
    omega
  have htake : bytes.take n = bytes := by rw [← hlen, List.take_length]
  have hdrop : bytes.drop n = [] := by rw [← hlen, List.drop_length]
  simp only [linkNet, htaken, hw, if_neg hne, htake, hdrop]

/-- The client is initialized by the server. -/
def Greeted (cl : Client) : Prop := cl.mMagic = cServMagic ∧ cl.mVersion = cServVer

/-- A registration on an initialized connection is answered. -/
theorem registerService_registered (hgreeted : Greeted cl) (hconn : w.conn = some i) (hinit : Initialized w.srv i)
    (hempty : w.pending = []) {a : SockaddrIn} (hname : env.sockName = some a) (hseg : msgRegServiceSize ≤ seg w.reads)
    (service params : U32) (srvFd : Int) :
    ∃ m : MsgRegService, m.service = service ∧ m.params = params ∧ IsMessage .regService m.toBytes ∧
      cl.registerService (linkNet seg env) service srvFd params w =
        some ⟨{ cl with returned := cl.returned ++ [(cl.checkRegister msgRegServiceSize (w.registered env i m).2.toBytes,
            (w.registered env i m).2.toBytes)] },
          { w with
            srv := (w.registered env i m).1
            pending := (w.logBehind (w.registered env i m)).flatten
            reads := w.reads + 1
            answers := w.answers ++ [(w.registered env i m).2.toBytes :: w.logBehind (w.registered env i m)] },
          cl.checkRegister msgRegServiceSize (w.registered env i m).2.toBytes⟩ := by
  obtain ⟨c, hc, -⟩ := id hinit
  have hmsg : IsMessage .regService
      (cl.serviceMsg (linkNet seg env) rcciMsgRegService service params a w).toBytes :=
    isMessage_service (by decide) ⟨rfl, hgreeted.1, hgreeted.2⟩
  refine ⟨cl.serviceMsg (linkNet seg env) rcciMsgRegService service params a w, rfl, rfl, hmsg, ?_⟩
  unfold Client.registerService
  rw [linkNet_getsockname, hname]
  simp only
  generalize cl.serviceMsg (linkNet seg env) rcciMsgRegService service params a w = m at hmsg ⊢
  have hreg : w.served env i m.toBytes =
      ((w.registered env i m).1, [(w.registered env i m).2.toBytes :: w.logBehind (w.registered env i m)]) :=
    served_register hc hinit hmsg
  have hserved : (w.served env i m.toBytes).2.flatten =
      (w.registered env i m).2.toBytes :: w.logBehind (w.registered env i m) := by
    rw [hreg]
    exact List.flatten_singleton
  have hlen : (w.registered env i m).2.toBytes.length = m.toBytes.length := rfl
  have hpos : 0 < m.toBytes.length := Nat.succ_pos _
  rw [request_answered hconn hempty hserved hlen hpos hseg, hreg]
  rfl

/-- What `registerService` makes of a reply of the logging service. -/
theorem checkRegister_logging (hgreeted : Greeted cl) {i : Nat} {m : MsgRegService} (hm : m.service = rcciClientFlagLog) :
    cl.checkRegister msgRegServiceSize (w.registered env i m).2.toBytes =
      if w.srv.running .logging → w.srv.admits .logging then
        (BitVec.ofNat 32 msgRegServiceSize +
          if w.srv.running .logging ∧ m.params ≠ 0 then BitVec.ofNat 32 w.srv.mLog.length else 0).toInt
      else -1 := by
  obtain ⟨hheader, hstatus, -⟩ := registered_logging env w i hm
  unfold Client.checkRegister
  simp only [MsgRegService.ofBytes_toBytes, hheader, hgreeted.1, hgreeted.2]
  by_cases hack : w.srv.running .logging = true → w.srv.admits .logging = true
  · rw [if_neg (not_not.2 (hstatus.2 hack)), if_pos hack, if_neg]
    simp
  · rw [if_pos fun h => hack (hstatus.1 h), if_neg hack]

/-- Where a log follows, the reply is accepted, and its size counts the log. -/
theorem checkRegister_sent (hgreeted : Greeted cl) {i : Nat} {m : MsgRegService} (hm : m.service = rcciClientFlagLog)
    (hp : m.params ≠ 0) (hadmits : w.srv.admits .logging = true) :
    cl.checkRegister msgRegServiceSize (w.registered env i m).2.toBytes =
      (BitVec.ofNat 32 msgRegServiceSize + BitVec.ofNat 32 w.srv.mLog.length).toInt := by
  have hrun : w.srv.running .logging = true := by
    simp only [Server.admits, Bool.and_eq_true] at hadmits
    exact hadmits.1
  rw [checkRegister_logging hgreeted hm, if_pos fun _ => hadmits, if_pos ⟨hrun, hp⟩]

/-- Where none follows, an accepted reply has the size of the reply alone. -/
theorem checkRegister_unsent (hgreeted : Greeted cl) {i : Nat} {m : MsgRegService} (hm : m.service = rcciClientFlagLog)
    (hp : m.params ≠ 0) (hsent : ¬ (w.srv.admits .logging = true ∧ 0 < w.srv.mLog.length))
    (hret : 0 ≤ cl.checkRegister msgRegServiceSize (w.registered env i m).2.toBytes) :
    BitVec.ofInt 32 (cl.checkRegister msgRegServiceSize (w.registered env i m).2.toBytes) -
      BitVec.ofNat 32 msgRegServiceSize = 0 := by
  rw [checkRegister_logging hgreeted hm] at hret ⊢
  have hack : w.srv.running .logging = true → w.srv.admits .logging = true := by
    by_contra hack
    rw [if_neg hack] at hret
    omega
  have hadded : (if w.srv.running .logging ∧ m.params ≠ 0 then BitVec.ofNat 32 w.srv.mLog.length else 0) =
      BitVec.ofNat 32 0 := by
    by_cases hrun : w.srv.running .logging = true
    · have hzero : w.srv.mLog.length = 0 := Nat.eq_zero_of_not_pos fun hpos => hsent ⟨hack hrun, hpos⟩
      rw [if_pos ⟨hrun, hp⟩, hzero]
    · rw [if_neg fun hc => hrun hc.1]
      rfl
  rw [if_pos hack, hadded]
  exact rem_eq 0

variable {cl' : Client} {w' : Link} {aStr : List Byte}

/-- A log behind the reply is read and turned into a string, with the memory behind it. -/
theorem registerLog_read {bytes : List Byte} {n : Nat}
    (hreg : cl.registerService (linkNet seg env) rcciClientFlagLog cl.mLogFd 1 w =
      some ⟨cl', w', (BitVec.ofNat 32 msgRegServiceSize + BitVec.ofNat 32 n).toInt⟩)
    (hmax : msgRegServiceSize + n ≤ intMax) (hpos : 0 < n) (hw : w'.pending = bytes) (hlen : bytes.length = n)
    (hseg : n ≤ seg w'.reads) :
    cl.registerLog (linkNet seg env) true aStr w =
      some (⟨cl', { w' with pending := [], reads := w'.reads + 1 }, 0⟩,
        ⟨cString (bytes ++ env.heap), (cString (bytes ++ env.heap)).length + 1 - n⟩) := by
  have hret : (BitVec.ofNat 32 msgRegServiceSize + BitVec.ofNat 32 n).toInt = msgRegServiceSize + n := by
    rw [← BitVec.ofNat_add, toInt_ofNat_of_le hmax]
    rfl
  have hret₀ : ¬ (BitVec.ofNat 32 msgRegServiceSize + BitVec.ofNat 32 n).toInt < 0 := by
    rw [hret]
    omega
  have hnat : (BitVec.ofNat 32 n).toInt = n := toInt_ofNat_of_le (by omega)
  have hlt : (0 : U32) < BitVec.ofNat 32 n := by
    have hmax' : intMax = 2147483647 := rfl
    rw [BitVec.lt_def, BitVec.toNat_ofNat, Nat.mod_eq_of_lt (by omega)]
    exact hpos
  have hneg : ¬ ((n : Int) < 0) := by omega
  have hread : (linkNet seg env).read cl'.mSockFd n w' =
      some ((n : Int), bytes, { w' with pending := [], reads := w'.reads + 1 }) := read_pending hw hlen hpos hseg _
  unfold Client.registerLog
  simp only [if_true, hreg, Option.bind_some, if_neg hret₀, rem_eq, true_and, if_pos hlt, hnat, if_neg hneg,
    Int.toNat_natCast, hread, Option.map_some, ne_eq, not_true_eq_false, if_false]
  rfl

/-- Nothing more is read if the registration failed, if no log was asked for, and if the size is that of the reply. -/
theorem registerLog_skip (fullLog : Bool) {ret : Int}
    (hreg : cl.registerService (linkNet seg env) rcciClientFlagLog cl.mLogFd (if fullLog then 1 else 0) w =
      some ⟨cl', w', ret⟩)
    (hskip : fullLog = true → 0 ≤ ret → BitVec.ofInt 32 ret - BitVec.ofNat 32 msgRegServiceSize = 0) :
    cl.registerLog (linkNet seg env) fullLog aStr w = some (⟨cl', w', if ret < 0 then -1 else 0⟩, ⟨aStr, 0⟩) := by
  unfold Client.registerLog
  rw [hreg, Option.bind_some]
  by_cases hret : ret < 0
  · simp only [if_pos hret]
  · have hnone : ¬ (fullLog = true ∧ (0 : U32) < BitVec.ofInt 32 ret - BitVec.ofNat 32 msgRegServiceSize) := by
      rintro ⟨hfull, hlt⟩
      rw [hskip hfull (Int.not_lt.1 hret)] at hlt
      exact absurd hlt (by decide)
    simp only [if_neg hret, if_neg hnone]

end Requests

end RcCarControl.Daemon
