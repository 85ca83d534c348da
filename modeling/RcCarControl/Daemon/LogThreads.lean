import RcCarControl.Daemon.Requests

/-!
# The logger between the threads

`rccLogger::print` is two effects one after the other, the callback and the append to the log, and
`processMsgRegService` copies the log before it appends the client to the service's list.  `LogThreads.step` is one such
effect or statement of one thread; nothing keeps the threads apart ("protect by mutex" is only a comment).  A handler
that runs alone does what `answerReg` does (`exec_alone`).
-/

namespace RcCarControl.Daemon

open Interface LittleEndian Lts

/-! ### The two halves of `print` -/

namespace Server

variable (srv : Server)

/-- `mCbFunc(str)`: one datagram to each client of the logging service. -/
def callback (text : Text) : Server :=
  { srv with logSent := srv.logSent ++ (srv.clients .logging).map fun a => (a, text) }

/-- `mLog.append(str)`. -/
def append (text : Text) : Server := { srv with mLog := srv.mLog ++ text }

theorem print_eq (text : Text) : srv.print text = (srv.callback text).append text := rfl

/-- What `processMsgRegService` does between copying the log to `serverLog` and replying. -/
def addReg (i : Nat) (serverLog : Text) (msg : MsgRegService) : Server × MsgRegService :=
  let reg := regService { srv with mLog := serverLog } i msg
  ({ reg.1 with mLog := srv.mLog }, reg.2)

end Server

/-! ### Threads -/

inductive Thread where
  | main
  | accept
  | drive
  | select
deriving DecidableEq

/-- Where the select thread stands in `processMsgRegService`, for the connection at index `i` with descriptor `fd`. -/
inductive RegStage where
  | idle
  | copyLog (i : Nat) (fd : Int) (msg : MsgRegService)
  | addClient (i : Nat) (fd : Int) (msg : MsgRegService) (serverLog : Text)
  | reply (fd : Int) (msg : MsgRegService) (serverLog : Text)
  | sendLog (fd : Int) (msg : MsgRegService) (serverLog : Text)
  /-- A write was incomplete; what remains to do is to print the error. -/
  | failed (text : Text)

structure LogThreads where
  srv : Server
  /-- The prints whose callback was called and whose text is not in the log yet, in the order of the callbacks. -/
  printing : List (Thread × Text)
  stage : RegStage

inductive LogEvent where
  | callback (thread : Thread) (text : Text)
  | append (thread : Thread)
  /-- The accept thread adds a connection. -/
  | connected (fd : Int)
  /-- The select thread removes the connection at index `i`, which the peer has closed. -/
  | closed (i : Nat)
  /-- The select thread has read a register message from the connection at index `i`. -/
  | received (i : Nat) (body : List Byte) (crc : U32)
  | copyLog
  | addClient
  /-- The reply is written; `bytes` is what `write` returns. -/
  | reply (bytes : Int)
  | sendLog (bytes : Int)
  /-- `processMsgUnregService` erases a client. -/
  | unregister (s : ServiceId) (a : SockaddrIn)

namespace LogThreads

variable (s : LogThreads)

def start (srv : Server) : LogThreads := ⟨srv, [], .idle⟩

def busy (thread : Thread) : Bool := s.printing.any fun p => p.1 = thread

/-- The thread may call `print` with the text: the select thread only outside of the statements of the handler. -/
def mayPrint (thread : Thread) (text : Text) : Prop :=
  s.busy thread = false ∧
    (thread = .select →
      match s.stage with
      | .idle => True
      | .failed t => t = text
      | _ => False)

/-- The condition for sending the full log, for a reply of a logging service that runs. -/
def wantsLog (msg : MsgRegService) (serverLog : Text) : Prop :=
  msg.service = rcciClientFlagLog ∧ s.srv.running .logging ∧ msg.params ≠ 0 ∧ 0 < serverLog.length ∧
    msg.status = rcciStatusAck

instance (thread : Thread) (text : Text) : Decidable (s.mayPrint thread text) := by
  unfold mayPrint
  cases s.stage <;> infer_instance

instance (msg : MsgRegService) (serverLog : Text) : Decidable (s.wantsLog msg serverLog) :=
  inferInstanceAs (Decidable (_ ∧ _ ∧ _ ∧ _ ∧ _))

def step : LogEvent → Option LogThreads
  | .callback thread text =>
    if s.mayPrint thread text then
      some ⟨s.srv.callback text, s.printing ++ [(thread, text)], if thread = .select then .idle else s.stage⟩
    else none
  | .append thread =>
    match s.printing.find? fun p => p.1 = thread with
    | some (_, text) => some { s with srv := s.srv.append text, printing := s.printing.eraseP fun p => p.1 = thread }
    | none => none
  | .connected fd =>
    if s.busy .accept then none
    else some { s with srv := { s.srv with mConnClients := s.srv.mConnClients ++ [⟨fd, rcciClientFlagNone⟩] } }
  | .closed i =>
    match s.stage, s.srv.mConnClients[i]? with
    | .idle, some c =>
      if s.busy .select then none
      else some { s with srv := { s.srv with mConnClients := s.srv.mConnClients.eraseP fun it => it.fd = c.fd } }
    | _, _ => none
  | .received i body crc =>
    match s.stage, s.srv.mConnClients[i]? with
    | .idle, some c => if s.busy .select then none else some { s with stage := .copyLog i c.fd (receivedReg body crc) }
    | _, _ => none
  | .copyLog =>
    match s.stage with
    | .copyLog i fd msg => some { s with stage := .addClient i fd msg s.srv.mLog }
    | _ => none
  | .addClient =>
    match s.stage with
    | .addClient i fd msg serverLog =>
      let reg := s.srv.addReg i serverLog msg
      some { s with srv := reg.1, stage := .reply fd reg.2 serverLog }
    | _ => none
  | .reply bytes =>
    match s.stage with
    | .reply fd msg serverLog =>
      if bytes = msgRegServiceSize then
        some { s with stage := if s.wantsLog msg serverLog then .sendLog fd msg serverLog else .idle }
      else
        let text := str "processMsgRegClient() write 1 size incorrect: " ++ incorrect bytes msgRegServiceSize " to: " fd
        some { s with stage := .failed text }
    | _ => none
  | .sendLog bytes =>
    match s.stage with
    | .sendLog fd _ serverLog =>
      if bytes = serverLog.length then some { s with stage := .idle }
      else
        let text := str "processMsgRegClient() log write incorrect: " ++ incorrect bytes serverLog.length " to: " fd
        some { s with stage := .failed text }
    | _ => none
  | .unregister service a =>
    match s.stage with
    | .idle => if s.busy .select then none else some { s with srv := s.srv.eraseClient service a }
    | _ => none

end LogThreads

/-! ### A handler that runs alone -/

variable {σ : Type}

/-- The steps of the handler and of its error print, for the returns of the two writes. -/
def aloneEvents (sk : Sock σ) (srv : Server) (i : Nat) (c : ClientInfo) (body : List Byte) (w : σ) : List LogEvent :=
  let reg := srv.addReg i srv.mLog (receivedReg body (sk.crc w))
  let wr := sk.write c.fd reg.2.toBytes w
  let failed (text : Text) : List LogEvent := [.callback .select text, .append .select]
  [.received i body (sk.crc w), .copyLog, .addClient, .reply wr.1] ++
    if wr.1 = msgRegServiceSize then
      if LogThreads.wantsLog ⟨reg.1, [], .idle⟩ reg.2 srv.mLog then
        let wr := sk.write c.fd (textBytes srv.mLog) wr.2
        .sendLog wr.1 ::
          if wr.1 = srv.mLog.length then []
          else failed (str "processMsgRegClient() log write incorrect: " ++ incorrect wr.1 srv.mLog.length " to: " c.fd)
      else []
    else
      failed (str "processMsgRegClient() write 1 size incorrect: " ++ incorrect wr.1 msgRegServiceSize " to: " c.fd)

theorem mLog_regService (srv : Server) (i : Nat) (msg : MsgRegService) : (regService srv i msg).1.mLog = srv.mLog := by
  rcases regService_cases srv i msg with h | ⟨s, h⟩
  · rw [h]
  · rw [h]
    rfl

/-- With the log it copied still in place the handler registers as in one step. -/
theorem addReg_mLog (srv : Server) (i : Nat) (msg : MsgRegService) :
    srv.addReg i srv.mLog msg = regService srv i msg := by
  unfold Server.addReg
  show ({ (regService srv i msg).1 with mLog := srv.mLog }, (regService srv i msg).2) = _
  rw [← mLog_regService srv i msg]

/-- The error print of the handler. -/
theorem exec_failed (srv : Server) (text : Text) :
    exec LogThreads.step ⟨srv, [], .failed text⟩ [.callback .select text, .append .select] =
      some (.start (srv.print text)) := by
  have hprint : LogThreads.step ⟨srv, [], .failed text⟩ (.callback .select text) =
      some ⟨srv.callback text, [(.select, text)], .idle⟩ := by
    simp [LogThreads.step, LogThreads.mayPrint, LogThreads.busy]
  rw [Server.print_eq]
  exact exec_cons hprint rfl

/-- Alone, the statements of the handler add up to `answerReg`. -/
theorem exec_alone (sk : Sock σ) {srv : Server} {i : Nat} {c : ClientInfo} (hc : srv.mConnClients[i]? = some c)
    (body : List Byte) (w : σ) :
    exec LogThreads.step (.start srv) (aloneEvents sk srv i c body w) =
      some (.start (answerReg sk srv i c body w).1) := by
  unfold aloneEvents answerReg
  simp only [addReg_mLog, List.cons_append, List.nil_append]
  refine exec_cons (t := ⟨srv, [], .copyLog i c.fd (receivedReg body (sk.crc w))⟩) ?_ ?_
  · simp [LogThreads.step, LogThreads.start, LogThreads.busy, hc]
  refine exec_cons (t := ⟨srv, [], .addClient i c.fd (receivedReg body (sk.crc w)) srv.mLog⟩) rfl ?_
  generalize hreg : regService srv i (receivedReg body (sk.crc w)) = reg
  refine exec_cons (t := ⟨reg.1, [], .reply c.fd reg.2 srv.mLog⟩) ?_ ?_
  · simp [LogThreads.step, addReg_mLog, hreg]
  generalize sk.write c.fd reg.2.toBytes w = wr
  by_cases hwr : wr.1 = msgRegServiceSize
  · simp only [if_pos hwr]
    by_cases hlog : LogThreads.wantsLog ⟨reg.1, [], .idle⟩ reg.2 srv.mLog
    · have hcond := hlog
      unfold LogThreads.wantsLog at hcond
      rw [if_pos hlog, if_pos hcond]
      refine exec_cons (t := ⟨reg.1, [], .sendLog c.fd reg.2 srv.mLog⟩) ?_ ?_
      · simp only [LogThreads.step, if_pos hwr]
        exact congrArg (fun stage => some (LogThreads.mk reg.1 [] stage)) (if_pos hlog)
      generalize sk.write c.fd (textBytes srv.mLog) wr.2 = wr'
      by_cases hwr' : wr'.1 = srv.mLog.length
      · simp only [if_pos hwr']
        exact exec_cons (by simp only [LogThreads.step, if_pos hwr']; rfl) rfl
      · simp only [if_neg hwr']
        exact exec_cons (by simp only [LogThreads.step, if_neg hwr']) (exec_failed _ _)
    · have hcond := hlog
      unfold LogThreads.wantsLog at hcond
      rw [if_neg hlog, if_neg hcond]
      refine exec_cons (t := .start reg.1) ?_ rfl
      simp only [LogThreads.step, if_pos hwr]
      exact congrArg (fun stage => some (LogThreads.mk reg.1 [] stage)) (if_neg hlog)
  · simp only [if_neg hwr]
    exact exec_cons (by simp only [LogThreads.step, if_neg hwr]) (exec_failed _ _)

end RcCarControl.Daemon
