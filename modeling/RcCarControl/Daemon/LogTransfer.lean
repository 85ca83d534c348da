import RcCarControl.Daemon.Link

/-!
# The log of a new client

The reply to a client that asks for the log has its length in the size, and the log follows.  The client reads it into a
buffer without a terminating zero and makes a string of it up to the first one: the string that `logConnect` returns is
shorter than the log, or the bytes behind the buffer were read.
-/

namespace RcCarControl.Daemon

open Interface LittleEndian

/-- An initialized client with an empty stream, whose registration is sent; its reads return all they ask for. -/
structure CanRegister (seg : Nat → Nat) (env : CallEnv) (cl : Client) (w : Link) : Prop where
  greeted : Greeted cl
  port : 0 < cl.mLogPort
  conn : ∃ i, w.conn = some i ∧ Initialized w.srv i
  empty : w.pending = []
  socket : 0 < env.socket
  connect : 0 ≤ env.connect
  sockName : env.sockName.isSome
  reply : msgRegServiceSize ≤ seg w.reads
  log : w.srv.mLog.length ≤ seg (w.reads + 1)

/-- A call that asks for the full log goes right: the size of the reply counts what is written behind it, nothing is left
in the stream, and the string is the log, made of the received bytes. -/
def FullLogRight (w : Link) (call : Option (Out Link × LogStr)) : Prop :=
  ∃ r reply behind, call = some r ∧ r.1.w.answers = w.answers ++ [reply :: behind] ∧
    (MsgRegService.ofBytes reply).header.size.toNat = msgRegServiceSize + behind.flatten.length ∧
    r.1.w.pending = [] ∧ r.2.aStr = textBytes w.srv.mLog ∧ r.2.outside = 0

section Calls

variable {seg : Nat → Nat} {env : CallEnv} {cl : Client} {w : Link} {aStr : List Byte}

theorem length_textBytes (text : Text) : (textBytes text).length = text.length := List.length_map _

/-- `logConnect` is `registerLog` of the client with its new descriptor. -/
theorem CanRegister.logConnect_iff (h : CanRegister seg env cl w) :
    FullLogRight w (cl.logConnect (linkNet seg env) aStr true w) ↔
      FullLogRight w ({ cl with mLogFd := env.socket }.registerLog (linkNet seg env) true aStr w) := by
  have hsocket : (linkNet seg env).socket .dgram w = (env.socket, w) := by
    rw [linkNet_socket, if_pos h.socket]
  have hserv : cl.serviceConnect (linkNet seg env) cl.mLogPort w = (some env.socket, w) := by
    unfold Client.serviceConnect
    rw [if_neg (Int.not_le.2 h.port), hsocket]
    simp only [if_neg (Int.not_lt.2 (Int.le_of_lt h.socket))]
    exact if_neg (Int.not_lt.2 h.connect)
  have hout (out : Out Link) : (if out.ret < 0 then (⟨out.cl, out.w, -1⟩ : Out Link) else ⟨out.cl, out.w, out.cl.mLogFd⟩).w =
      out.w := by
    split <;> rfl
  unfold FullLogRight Client.logConnect
  rw [hserv]
  simp only [Option.map_eq_some_iff]
  constructor
  · rintro ⟨r, reply, behind, ⟨r', hr', rfl⟩, hright⟩
    simp only [hout] at hright
    exact ⟨r', reply, behind, hr', hright⟩
  · rintro ⟨r', reply, behind, hr', hright⟩
    refine ⟨_, reply, behind, ⟨r', hr', rfl⟩, ?_⟩
    simp only [hout]
    exact hright

/-- What was answered does not depend on how the log is read. -/
theorem registerLog_answers {cl' : Client} {w' : Link} {ret : Int}
    (hreg : cl.registerService (linkNet seg env) rcciClientFlagLog cl.mLogFd 1 w = some ⟨cl', w', ret⟩)
    {r : Out Link × LogStr} (hr : cl.registerLog (linkNet seg env) true aStr w = some r) :
    r.1.w.answers = w'.answers := by
  unfold Client.registerLog at hr
  simp only [if_true, hreg, Option.bind_some] at hr
  split at hr
  · cases hr
    rfl
  · split at hr
    · split at hr
      · cases hr
      · obtain ⟨rd, hrd, rfl⟩ := Option.map_eq_some_iff.1 hr
        have hanswers : rd.2.2.answers = w'.answers := by
          obtain ⟨-, hrd⟩ := Option.ite_none_left_eq_some.1 hrd
          cases hrd
          rfl
        split <;> exact hanswers
    · cases hr
      rfl

/-- The registration of such a client for the full log. -/
theorem CanRegister.registration (h : CanRegister seg env cl w) :
    ∃ i, ∃ m : MsgRegService, m.service = rcciClientFlagLog ∧ m.params ≠ 0 ∧
      cl.registerService (linkNet seg env) rcciClientFlagLog cl.mLogFd 1 w =
        some ⟨{ cl with returned := cl.returned ++ [(cl.checkRegister msgRegServiceSize (w.registered env i m).2.toBytes,
            (w.registered env i m).2.toBytes)] },
          { w with
            srv := (w.registered env i m).1
            pending := (w.logBehind (w.registered env i m)).flatten
            reads := w.reads + 1
            answers := w.answers ++ [(w.registered env i m).2.toBytes :: w.logBehind (w.registered env i m)] },
          cl.checkRegister msgRegServiceSize (w.registered env i m).2.toBytes⟩ := by
  obtain ⟨i, hconn, hinit⟩ := h.conn
  obtain ⟨a, hname⟩ := Option.isSome_iff_exists.1 h.sockName
  obtain ⟨m, hservice, hparams, -, hreg⟩ := registerService_registered h.greeted hconn hinit h.empty hname h.reply
    rcciClientFlagLog 1 cl.mLogFd
  refine ⟨i, m, hservice, ?_, hreg⟩
  rw [hparams]
  decide

/-- The answer that was added last. -/
theorem answer_eq {answers : List (List (List Byte))} {reply reply' : List Byte} {behind behind' : List (List Byte)}
    (h : answers ++ [reply :: behind] = answers ++ [reply' :: behind']) : reply = reply' ∧ behind = behind' := by
  have hlast := List.append_cancel_left h
  simp only [List.cons.injEq, and_true] at hlast
  exact hlast

/-- A log that is sent does not arrive: the string ends inside of it or is read from outside. -/
theorem CanRegister.not_right_of_sent (h : CanRegister seg env cl w) (hadmits : w.srv.admits .logging = true)
    (hpos : 0 < w.srv.mLog.length) : ¬ FullLogRight w (cl.registerLog (linkNet seg env) true aStr w) := by
  rintro ⟨r, reply, behind, hr, hanswers, hsize, hpending, hstr, houtside⟩
  obtain ⟨i, m, hservice, hp, hreg⟩ := h.registration
  obtain ⟨hheader, -, hbehind⟩ := registered_logging env w i hservice
  rw [if_pos ⟨hadmits, hp, hpos⟩] at hbehind
  rw [checkRegister_sent h.greeted hservice hp hadmits, hbehind] at hreg
  have hrun : w.srv.running .logging = true := by
    simp only [Server.admits, Bool.and_eq_true] at hadmits
    exact hadmits.1
  rw [if_pos ⟨hrun, hp⟩] at hheader
  by_cases hmax : msgRegServiceSize + w.srv.mLog.length ≤ intMax
  · -- the string would have the length of the log, so that its end was found behind the buffer
    rw [registerLog_read hreg hmax hpos List.flatten_singleton (length_textBytes _) h.log] at hr
    cases hr
    simp only at hstr houtside
    rw [hstr, length_textBytes] at houtside
    omega
  · have hwhole : (BitVec.ofNat 32 (msgRegServiceSize + w.srv.mLog.length)).toNat =
        msgRegServiceSize + w.srv.mLog.length := by
      have hans := registerLog_answers hreg hr
      rw [hans] at hanswers
      obtain ⟨rfl, rfl⟩ := answer_eq hanswers
      rw [MsgRegService.ofBytes_toBytes, hheader, List.flatten_singleton, length_textBytes] at hsize
      rw [BitVec.ofNat_add]
      exact hsize
    -- the size is negative as an `int`, and the log is left in the stream
    have hneg : (BitVec.ofNat 32 msgRegServiceSize + BitVec.ofNat 32 w.srv.mLog.length).toInt < 0 := by
      have hmax' : intMax = 2147483647 := rfl
      rw [← BitVec.ofNat_add, BitVec.toInt_eq_toNat_cond, if_neg (by omega)]
      have hlt := (BitVec.ofNat 32 (msgRegServiceSize + w.srv.mLog.length)).isLt
      omega
    rw [registerLog_skip true hreg fun _ hret => absurd hret (Int.not_le.2 hneg)] at hr
    cases hr
    simp only [List.flatten_singleton] at hpending
    have hzero := congrArg List.length hpending
    rw [length_textBytes] at hzero
    exact absurd hzero (Nat.ne_of_gt hpos)

theorem size_eq_iff (x : U32) :
    (BitVec.ofNat 32 msgRegServiceSize + x).toNat = msgRegServiceSize ↔ x = 0 := by
  constructor
  · intro h
    have hsum : x + BitVec.ofNat 32 msgRegServiceSize = BitVec.ofNat 32 msgRegServiceSize := by
      rw [BitVec.add_comm]
      exact BitVec.eq_of_toNat_eq h
    calc x = x + BitVec.ofNat 32 msgRegServiceSize - BitVec.ofNat 32 msgRegServiceSize := (BitVec.add_sub_cancel ..).symm
      _ = 0 := by rw [hsum, BitVec.sub_self]; rfl
  · rintro rfl
    rfl

/-- Without a log behind the reply the caller's string stays as it is. -/
theorem CanRegister.right_iff_of_unsent (h : CanRegister seg env cl w)
    (hsent : ¬ (w.srv.admits .logging = true ∧ 0 < w.srv.mLog.length)) :
    FullLogRight w (cl.registerLog (linkNet seg env) true aStr w) ↔
      aStr = textBytes w.srv.mLog ∧ (w.srv.running .logging → BitVec.ofNat 32 w.srv.mLog.length = 0) := by
  obtain ⟨i, m, hservice, hp, hreg⟩ := h.registration
  obtain ⟨hheader, -, hbehind⟩ := registered_logging env w i hservice
  rw [if_neg fun hc => hsent ⟨hc.1, hc.2.2⟩] at hbehind
  rw [hbehind] at hreg
  have hsize : (MsgRegService.ofBytes (w.registered env i m).2.toBytes).header.size.toNat = msgRegServiceSize ↔
      (w.srv.running .logging → BitVec.ofNat 32 w.srv.mLog.length = 0) := by
    rw [MsgRegService.ofBytes_toBytes, hheader]
    by_cases hrun : w.srv.running .logging = true
    · simp only [if_pos (And.intro hrun hp)]
      rw [size_eq_iff]
      exact ⟨fun hzero _ => hzero, fun hzero => hzero hrun⟩
    · simp only [if_neg fun hc : w.srv.running .logging = true ∧ m.params ≠ 0 => hrun hc.1]
      exact ⟨fun _ hc => absurd hc hrun, fun _ => rfl⟩
  rw [registerLog_skip true hreg fun _ hret => checkRegister_unsent h.greeted hservice hp hsent hret, ← hsize]
  constructor
  · rintro ⟨r, reply, behind, hr, hanswers, hsize, -, hstr, -⟩
    cases hr
    obtain ⟨rfl, rfl⟩ := answer_eq hanswers
    exact ⟨hstr, hsize⟩
  · rintro ⟨hstr, hsize⟩
    exact ⟨_, _, [], rfl, rfl, hsize, rfl, hstr, rfl⟩

/-- The full log arrives at a client exactly if it is empty, and the caller's string is too.  (A service without room
refuses the client and does not send the log, and its reply is right if it has the size of the reply alone; a service that
does not run has nothing to send.) -/
theorem fullLogRight_iff (h : CanRegister seg env cl w) (aStr : List Byte) :
    FullLogRight w (cl.logConnect (linkNet seg env) aStr true w) ↔
      aStr = textBytes w.srv.mLog ∧ (w.srv.running .logging →
        if (w.srv.mServices .logging).canAddClient then w.srv.mLog = [] else BitVec.ofNat 32 w.srv.mLog.length = 0) := by
  rw [h.logConnect_iff]
  have h' : CanRegister seg env { cl with mLogFd := env.socket } w :=
    ⟨h.greeted, h.port, h.conn, h.empty, h.socket, h.connect, h.sockName, h.reply, h.log⟩
  by_cases hsent : w.srv.admits .logging = true ∧ 0 < w.srv.mLog.length
  · obtain ⟨hadmits, hpos⟩ := hsent
    have hroom := hadmits
    simp only [Server.admits, Bool.and_eq_true] at hroom
    refine iff_of_false (h'.not_right_of_sent hadmits hpos) fun hc => ?_
    have hnil := hc.2 hroom.1
    rw [if_pos hroom.2] at hnil
    rw [hnil] at hpos
    exact absurd hpos (by decide)
  · rw [h'.right_iff_of_unsent hsent]
    refine and_congr_right fun _ => imp_congr_right fun hrun => ?_
    by_cases hroom : (w.srv.mServices .logging).canAddClient = true
    · have hnil : w.srv.mLog = [] := by
        have hadmits : w.srv.admits .logging = true := by simp [Server.admits, hrun, hroom]
        exact List.length_eq_zero_iff.1 (Nat.eq_zero_of_not_pos fun hpos => hsent ⟨hadmits, hpos⟩)
      rw [if_pos hroom, hnil]
      simp
    · rw [if_neg hroom]

end Calls

/-- The client and its connection after `connect`, with the given log. -/
def connectedClient : Client :=
  { Client.new someClient with
    mPort := 1025
    mSockFd := 5
    mServer := true
    mMagic := cServMagic
    mVersion := cServVer
    mLogPort := 5000
    mDrvPort := 5001 }

def connectedLink (log : Text) : Link where
  srv := { (((started openEnv).addClient 6 true openCall.name).orFlags 0 rcciClientFlagInit) with mLog := log }
  conn := some 0
  pending := []
  reads := 1
  answers := []

theorem canRegister_connected {log : Text} (h : log.length ≤ 1024) :
    CanRegister (fun _ => 1024) openCall connectedClient (connectedLink log) where
  greeted := ⟨rfl, rfl⟩
  port := by decide
  conn := ⟨0, rfl, ⟨6, rcciClientFlagInit⟩, rfl, by decide⟩
  empty := rfl
  socket := by decide
  connect := by decide
  sockName := rfl
  reply := by decide
  log := h

theorem fullLogRight_connected :
    FullLogRight (connectedLink [])
      (connectedClient.logConnect (linkNet (fun _ => 1024) openCall) [] true (connectedLink [])) :=
  (fullLogRight_iff (canRegister_connected (by decide)) []).2 ⟨rfl, fun _ => rfl⟩

/-- Of the log "x" nothing is lost, but the byte behind the buffer is read. -/
theorem not_fullLogRight_x :
    ¬ ∀ seg env cl w aStr, CanRegister seg env cl w → FullLogRight w (cl.logConnect (linkNet seg env) aStr true w) := by
  intro h
  obtain ⟨r, reply, behind, hr, -, -, -, -, houtside⟩ := h (fun _ => 1024) openCall connectedClient (connectedLink ['x']) []
    (canRegister_connected (by decide))
  have hrun : (connectedClient.logConnect (linkNet (fun _ => 1024) openCall) [] true (connectedLink ['x'])).map
      (fun r => r.2.outside) = some 1 := by decide +kernel
  rw [hr, Option.map_some, houtside] at hrun
  cases hrun

end RcCarControl.Daemon
