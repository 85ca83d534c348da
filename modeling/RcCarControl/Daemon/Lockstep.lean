import Mathlib.Data.List.Forall2
import RcCarControl.Daemon.Link

/-!
# Requests and replies in step

The client keeps no record of what is still to come on its connection: a read that is cut leaves the rest of a reply
behind, and the next request takes it for its own reply.  As long as every read returns all it asks for, each request
finds an empty stream and leaves one (`AtRest`), and what it evaluates is the reply to itself.
-/

namespace RcCarControl.Daemon

open Interface LittleEndian Lts

/-- The client has no port to send a request for. -/
def Idle (cl : Client) : Prop := cl.mLogPort ≤ 0 ∧ cl.mDrvPort ≤ 0 ∧ cl.mLogFd < 0 ∧ cl.mDrvFd < 0

namespace LinkState

/-- Each request function that returned a non-negative value has evaluated the reply to its message. -/
def Lockstep (r : LinkState) : Prop :=
  List.Forall₂ (fun returned answer => 0 ≤ returned.1 → answer.head? = some returned.2) r.1.returned r.2.answers

instance (r : LinkState) : Decidable (Lockstep r) := inferInstanceAs (Decidable (List.Forall₂ _ _ _))

/-- The reads of the call return all they ask for, and the size of a log that is sent fits an `int`. -/
def ReadsWhole (seg : Nat → Nat) (r : LinkState) : LinkEvent → Prop
  | .call (.connect _ _) _ => msgInitSize ≤ seg r.2.reads
  | .call (.logConnect _ fullLog) _ =>
    msgRegServiceSize ≤ seg r.2.reads ∧ (fullLog → r.2.srv.admits .logging →
      r.2.srv.mLog.length ≤ seg (r.2.reads + 1) ∧ msgRegServiceSize + r.2.srv.mLog.length ≤ intMax)
  | .call _ _ => msgRegServiceSize ≤ seg r.2.reads
  | .other _ _ => True

instance (seg : Nat → Nat) (r : LinkState) : ∀ e, Decidable (ReadsWhole seg r e)
  | .call (.connect _ _) _ => inferInstanceAs (Decidable (_ ≤ _))
  | .call (.logConnect _ _) _ => inferInstanceAs (Decidable (_ ∧ _))
  | .call .logDisconnect _ => inferInstanceAs (Decidable (_ ≤ _))
  | .call .drvConnect _ => inferInstanceAs (Decidable (_ ≤ _))
  | .call .drvDisconnect _ => inferInstanceAs (Decidable (_ ≤ _))
  | .other _ _ => inferInstanceAs (Decidable True)

/-- What holds between the calls of a client whose reads are whole. -/
structure AtRest (r : LinkState) : Prop where
  lockstep : Lockstep r
  empty : r.2.pending = []
  listed : ∀ i, r.2.conn = some i → ∃ c, r.2.srv.mConnClients[i]? = some c
  known : Greeted r.1 ∨ Idle r.1

/-! ### The calls of the client, one request at a time -/

section Requests

variable {seg : Nat → Nat} {env : CallEnv} {cl cl' : Client} {w : Link} {out : Out Link}

theorem AtRest.client (h : AtRest (cl, w)) (hreturned : cl'.returned = cl.returned) (hknown : Greeted cl' ∨ Idle cl') :
    AtRest (cl', w) where
  lockstep := by
    show List.Forall₂ _ cl'.returned w.answers
    rw [hreturned]
    exact h.lockstep
  empty := h.empty
  listed := h.listed
  known := hknown

/-- A request has evaluated its own reply, and nothing is left of what the server has written. -/
theorem AtRest.answered (h : AtRest (cl, w)) {i : Nat} {c : ClientInfo} (hconn : w.conn = some i) {srv : Server}
    (hc : srv.mConnClients[i]? = some c) (ret : Int) (reply : List Byte) (behind : List (List Byte)) (reads : Nat)
    (hreturned : cl'.returned = cl.returned ++ [(ret, reply)]) (hgreeted : Greeted cl') :
    AtRest (cl', ⟨srv, w.conn, [], reads, w.answers ++ [reply :: behind]⟩) where
  lockstep := by
    show List.Forall₂ _ cl'.returned (w.answers ++ _)
    rw [hreturned]
    exact List.rel_append h.lockstep (.cons (fun _ => rfl) .nil)
  empty := rfl
  listed j hj := by
    cases hconn.symm.trans hj
    exact ⟨c, hc⟩
  known := Or.inl hgreeted

/-- The connection is still in the table when a message was answered. -/
theorem listed_served {i : Nat} {c : ClientInfo} (hc : w.srv.mConnClients[i]? = some c) {k : MsgKind} {m : List Byte}
    (hm : IsMessage k m) (hk : k = .init ∨ Initialized w.srv i) :
    ∃ c', (w.served env i m).1.mConnClients[i]? = some c' := by
  rw [served_message hc hm hk]
  obtain ⟨srv', sent, ret, ha, -, hinit⟩ := answer_stream (fun _ => m.length) env.serverStack hc k (m.drop msgHeaderSize)
    ⟨[], 2, []⟩
  rw [ha]
  obtain ⟨c', hc', -⟩ := hinit hk
  exact ⟨c', hc'⟩

theorem AtRest.sendInitMsg (h : AtRest (cl, w)) (hseg : msgInitSize ≤ seg w.reads)
    (hout : cl.sendInitMsg (linkNet seg env) w = some out) : AtRest (out.cl, out.w) := by
  unfold Client.sendInitMsg at hout
  by_cases hconnected : cl.isConnected = true
  · rw [if_pos hconnected] at hout
    simp only at hout
    generalize hmsg : MsgInit.toBytes _ = msg at hout
    have hm : IsMessage .init msg := by
      rw [← hmsg]
      exact isMessage_init ⟨rfl, rfl, rfl⟩
    cases hconn : w.conn with
    | none =>
      rw [request_unconnected hconn] at hout
      cases hout
      exact h
    | some i =>
      obtain ⟨c, hc⟩ := h.listed i hconn
      have hserved : (w.served env i msg).2.flatten = [w.welcome.toBytes] := by rw [served_init hc hm]; rfl
      obtain ⟨c', hc'⟩ : ∃ c', (w.served env i msg).1.mConnClients[i]? = some c' := listed_served hc hm (Or.inl rfl)
      have hlen : msgInitSize = msg.length := hm.1.symm
      have hpos : 0 < msg.length := by
        rw [← hlen]
        decide
      rw [request_answered hconn h.empty hserved hlen hpos (hlen ▸ hseg)] at hout
      have hcheck : Client.checkInit msg.length w.welcome.toBytes = 0 := by
        simp [Client.checkInit, Link.welcome, ← hlen]
      rw [hcheck, Option.map_some] at hout
      cases hout
      refine h.answered hconn hc' 0 w.welcome.toBytes [] (w.reads + 1) ?_ ?_
      · rfl
      · constructor
        · exact congrArg (fun m => m.header.magic) w.welcome.ofBytes_toBytes
        · exact congrArg (fun m => m.header.ver) w.welcome.ofBytes_toBytes
  · rw [if_neg hconnected] at hout
    cases hout
    exact h

/-- Only an initialized connection replies to a message for a service. -/
theorem initialized_of_request (h : AtRest (cl, w)) {i : Nat} {c : ClientInfo} (hconn : w.conn = some i)
    (hc : w.srv.mConnClients[i]? = some c) {m : MsgRegService} (htype : m.header.type ≠ rcciMsgInit)
    (hservice : m.service = rcciClientFlagLog ∨ m.service = rcciClientFlagDrive) {check : Int → List Byte → Int}
    {r : Out Link × List Byte} (hr : cl.request (linkNet seg env) m.toBytes check w = some r) : Initialized w.srv i := by
  refine ⟨c, hc, fun hinit => ?_⟩
  have hle : msgHeaderSize ≤ m.toBytes.length := by
    rw [m.length_toBytes]
    decide
  have hnone : (w.served env i m.toBytes).2.flatten = [] :=
    serve_noInit hle env.serverStack hinit _ hc (noInit_service htype hservice) 0
  rw [request_unanswered hconn h.empty hnone] at hr
  cases hr

theorem AtRest.unregisterService (h : AtRest (cl, w)) (hgreeted : Greeted cl) {service : U32}
    (hservice : service = rcciClientFlagLog ∨ service = rcciClientFlagDrive) {srvFd : Int}
    (hseg : msgRegServiceSize ≤ seg w.reads)
    (hout : cl.unregisterService (linkNet seg env) service srvFd w = some out) :
    AtRest (out.cl, out.w) ∧ Greeted out.cl := by
  unfold Client.unregisterService at hout
  rw [linkNet_getsockname] at hout
  cases hname : env.sockName with
  | none =>
    rw [hname] at hout
    cases hout
    exact ⟨h, hgreeted⟩
  | some a =>
    rw [hname] at hout
    obtain ⟨r, hr, rfl⟩ := Option.map_eq_some_iff.1 hout
    generalize hm : cl.serviceMsg (linkNet seg env) rcciMsgUnregService service 0 a w = m at hr
    have hmsg : IsMessage .unregService m.toBytes := by
      rw [← hm]
      exact isMessage_service (by decide) ⟨rfl, hgreeted.1, hgreeted.2⟩
    cases hconn : w.conn with
    | none =>
      rw [request_unconnected hconn] at hr
      cases hr
      exact ⟨h, hgreeted⟩
    | some i =>
      obtain ⟨c, hc⟩ := h.listed i hconn
      have htype : m.header.type ≠ rcciMsgInit := by
        rw [← hm]
        exact (by decide : rcciMsgUnregService ≠ rcciMsgInit)
      have hs : m.service = rcciClientFlagLog ∨ m.service = rcciClientFlagDrive := by
        rw [← hm]
        exact hservice
      have hinit := initialized_of_request h hconn hc htype hs hr
      have hlisted : ∃ c', (w.served env i m.toBytes).1.mConnClients[i]? = some c' := listed_served hc hmsg (Or.inr hinit)
      obtain ⟨c', hc'⟩ := hlisted
      have hreply : ∃ srv' reply, w.served env i m.toBytes = (srv', [[MsgRegService.toBytes reply]]) :=
        served_unregister hc hinit hmsg
      obtain ⟨srv', reply, hreply⟩ := hreply
      have hserved : (w.served env i m.toBytes).2.flatten = [reply.toBytes] := by
        rw [hreply]
        exact List.flatten_singleton
      have hlen : reply.toBytes.length = m.toBytes.length := rfl
      have hpos : 0 < m.toBytes.length := Nat.succ_pos _
      rw [request_answered hconn h.empty hserved hlen hpos hseg] at hr
      cases hr
      exact ⟨h.answered hconn hc' _ reply.toBytes [] _ rfl hgreeted, hgreeted⟩

theorem registerService_cases (h : AtRest (cl, w)) (hgreeted : Greeted cl) {service params : U32}
    (hservice : service = rcciClientFlagLog ∨ service = rcciClientFlagDrive) {srvFd : Int}
    (hseg : msgRegServiceSize ≤ seg w.reads)
    (hout : cl.registerService (linkNet seg env) service srvFd params w = some out) :
    out = ⟨cl, w, -1⟩ ∨
      ∃ i c' m ret, w.conn = some i ∧ m.service = service ∧ m.params = params ∧
        (w.registered env i m).1.mConnClients[i]? = some c' ∧
        ret = cl.checkRegister msgRegServiceSize (w.registered env i m).2.toBytes ∧
        out = ⟨{ cl with returned := cl.returned ++ [(ret, (w.registered env i m).2.toBytes)] },
          { w with
            srv := (w.registered env i m).1
            pending := (w.logBehind (w.registered env i m)).flatten
            reads := w.reads + 1
            answers := w.answers ++ [(w.registered env i m).2.toBytes :: w.logBehind (w.registered env i m)] },
          ret⟩ := by
  have hout' := hout
  unfold Client.registerService at hout'
  rw [linkNet_getsockname] at hout'
  cases hname : env.sockName with
  | none =>
    rw [hname] at hout'
    cases hout'
    exact Or.inl rfl
  | some a =>
    rw [hname] at hout'
    obtain ⟨r, hr, hrout⟩ := Option.map_eq_some_iff.1 hout'
    cases hconn : w.conn with
    | none =>
      rw [request_unconnected hconn] at hr
      cases hr
      exact Or.inl hrout.symm
    | some i =>
      obtain ⟨c, hc⟩ := h.listed i hconn
      have hinit := initialized_of_request h hconn hc (by decide : rcciMsgRegService ≠ rcciMsgInit) hservice hr
      obtain ⟨m, hs, hp, hmsg, hreg⟩ := registerService_registered hgreeted hconn hinit h.empty hname hseg service params
        srvFd
      have hlisted : ∃ c', (w.served env i m.toBytes).1.mConnClients[i]? = some c' := listed_served hc hmsg (Or.inr hinit)
      obtain ⟨c', hc'⟩ := hlisted
      rw [served_register hc hinit hmsg] at hc'
      rw [hreg] at hout
      cases hout
      exact Or.inr ⟨i, c', m, _, rfl, hs, hp, hc', rfl, by rw [hconn]⟩

theorem AtRest.registerLog (h : AtRest (cl, w)) (hgreeted : Greeted cl) {fullLog : Bool} {aStr : List Byte}
    (hseg : msgRegServiceSize ≤ seg w.reads)
    (hlog : fullLog → w.srv.admits .logging →
      w.srv.mLog.length ≤ seg (w.reads + 1) ∧ msgRegServiceSize + w.srv.mLog.length ≤ intMax)
    {r : Out Link × LogStr} (hr : cl.registerLog (linkNet seg env) fullLog aStr w = some r) :
    AtRest (r.1.cl, r.1.w) ∧ Greeted r.1.cl := by
  have hbind := hr
  unfold Client.registerLog at hbind
  obtain ⟨out, hout, -⟩ := Option.bind_eq_some_iff.1 hbind
  obtain rfl | ⟨i, c', m, ret, hconn, hservice, hparams, hc', hret, rfl⟩ :=
    registerService_cases h hgreeted (Or.inl rfl) hseg hout
  · rw [registerLog_skip fullLog hout fun _ hret => absurd hret (by decide)] at hr
    cases hr
    exact ⟨h, hgreeted⟩
  · obtain ⟨-, -, hbehind⟩ := registered_logging env w i hservice
    have hdone (reads : Nat) (behind : List (List Byte)) :
        AtRest ({ cl with returned := cl.returned ++ [(ret, (w.registered env i m).2.toBytes)] },
          ⟨(w.registered env i m).1, w.conn, [], reads, w.answers ++ [(w.registered env i m).2.toBytes :: behind]⟩) :=
      h.answered hconn hc' ret _ behind reads rfl hgreeted
    by_cases hsent : fullLog = true ∧ w.srv.admits .logging = true ∧ 0 < w.srv.mLog.length
    · obtain ⟨rfl, hadmits, hpos⟩ := hsent
      obtain ⟨hread, hmax⟩ := hlog rfl hadmits
      have hp : m.params ≠ 0 := by
        rw [hparams]
        decide
      rw [if_pos ⟨hadmits, hp, hpos⟩] at hbehind
      have hlen : (textBytes w.srv.mLog).length = w.srv.mLog.length := by rw [textBytes, List.length_map]
      rw [checkRegister_sent hgreeted hservice hp hadmits] at hret
      rw [hbehind, hret, if_pos rfl] at hout
      rw [registerLog_read hout hmax hpos List.flatten_singleton hlen hread] at hr
      cases hr
      rw [hret] at hdone
      exact ⟨hdone _ _, hgreeted⟩
    · have hnone : ¬ (w.srv.admits .logging = true ∧ m.params ≠ 0 ∧ 0 < w.srv.mLog.length) := by
        rintro ⟨hadmits, hp, hpos⟩
        cases fullLog with
        | true => exact hsent ⟨rfl, hadmits, hpos⟩
        | false => exact hp hparams
      rw [if_neg hnone] at hbehind
      rw [hbehind] at hout
      have hskip (hfull : fullLog = true) (hret₀ : 0 ≤ ret) :
          BitVec.ofInt 32 ret - BitVec.ofNat 32 msgRegServiceSize = 0 := by
        have hp : m.params ≠ 0 := by
          rw [hparams, if_pos hfull]
          decide
        rw [hret] at hret₀ ⊢
        exact checkRegister_unsent hgreeted hservice hp (fun hc => hsent ⟨hfull, hc⟩) hret₀
      rw [registerLog_skip fullLog hout hskip] at hr
      cases hr
      exact ⟨hdone _ _, hgreeted⟩

/-! ### The calls -/

/-- The new connection is the last one in the table, and nothing is in its stream. -/
theorem AtRest.accepted (h : AtRest (cl, w)) : AtRest (cl, w.accepted env) where
  lockstep := h.lockstep
  empty := rfl
  listed i hi := by
    cases hi
    refine ⟨⟨env.accepted, rcciClientFlagNone⟩, ?_⟩
    unfold Link.accepted Server.addClient
    cases env.resolved <;> simp [Server.print]
  known := h.known

theorem AtRest.connect (h : AtRest (cl, w)) {hostname : Text} {port : Int} (hseg : msgInitSize ≤ seg w.reads)
    (hout : cl.connect (linkNet seg env) hostname port w = some out) : AtRest (out.cl, out.w) := by
  unfold Client.connect at hout
  simp only [linkNet_socket, linkNet_gethostbyname, linkNet_connect_stream] at hout
  by_cases hsock : 0 < env.socket
  · simp only [if_pos hsock, if_neg (Int.not_lt.2 (Int.le_of_lt hsock))] at hout
    cases hhost : env.host with
    | none =>
      simp only [hhost] at hout
      cases hout
      exact h.client rfl h.known
    | some addr =>
      simp only [hhost] at hout
      by_cases hconnect : env.connect < 0
      · simp only [if_pos hconnect] at hout
        cases hout
        exact h.client rfl h.known
      · simp only [if_neg hconnect] at hout
        refine AtRest.sendInitMsg (AtRest.accepted ?_) hseg hout
        exact h.client rfl h.known
  · simp only [if_neg hsock, if_pos (by decide : (-1 : Int) < 0)] at hout
    cases hout
    exact h

theorem serviceConnect_cases (seg : Nat → Nat) (env : CallEnv) (cl : Client) (port : Int) (w : Link) :
    cl.serviceConnect (linkNet seg env) port w = (none, w) ∨
      ∃ fd, 0 < port ∧ cl.serviceConnect (linkNet seg env) port w = (some fd, w) := by
  unfold Client.serviceConnect
  by_cases hport : port ≤ 0
  · exact Or.inl (if_pos hport)
  · rw [if_neg hport]
    by_cases hfd : ((linkNet seg env).socket .dgram w).1 < 0
    · exact Or.inl (if_pos hfd)
    · simp only [if_neg hfd]
      by_cases hconnect : env.connect < 0
      · exact Or.inl (if_pos hconnect)
      · exact Or.inr ⟨_, Int.not_le.1 hport, if_neg hconnect⟩

theorem AtRest.logConnect (h : AtRest (cl, w)) {fullLog : Bool} {aStr : List Byte} (hseg : msgRegServiceSize ≤ seg w.reads)
    (hlog : fullLog → w.srv.admits .logging →
      w.srv.mLog.length ≤ seg (w.reads + 1) ∧ msgRegServiceSize + w.srv.mLog.length ≤ intMax)
    {r : Out Link × LogStr} (hr : cl.logConnect (linkNet seg env) aStr fullLog w = some r) :
    AtRest (r.1.cl, r.1.w) := by
  unfold Client.logConnect at hr
  rcases serviceConnect_cases seg env cl cl.mLogPort w with hs | ⟨fd, hport, hs⟩
  · rw [hs] at hr
    cases hr
    exact h
  · rw [hs] at hr
    have hgreeted : Greeted cl := h.known.resolve_right fun hidle => Int.not_le.2 hport hidle.1
    obtain ⟨r', hr', rfl⟩ := Option.map_eq_some_iff.1 hr
    have hfd : AtRest ({ cl with mLogFd := fd }, w) := h.client rfl (Or.inl hgreeted)
    obtain ⟨hin, -⟩ := hfd.registerLog hgreeted hseg hlog hr'
    split <;> exact hin

theorem AtRest.logDisconnect (h : AtRest (cl, w)) (hseg : msgRegServiceSize ≤ seg w.reads)
    (hout : cl.logDisconnect (linkNet seg env) w = some out) : AtRest (out.cl, out.w) := by
  unfold Client.logDisconnect at hout
  by_cases hfd : cl.mLogFd < 0
  · rw [if_pos hfd] at hout
    cases hout
    exact h
  · rw [if_neg hfd] at hout
    have hgreeted : Greeted cl := h.known.resolve_right fun hidle => hfd hidle.2.2.1
    obtain ⟨r, hr, rfl⟩ := Option.map_eq_some_iff.1 hout
    obtain ⟨hin, hgreeted'⟩ := h.unregisterService hgreeted (Or.inl rfl) hseg hr
    exact hin.client rfl (Or.inl hgreeted')

theorem AtRest.drvConnect (h : AtRest (cl, w)) (hseg : msgRegServiceSize ≤ seg w.reads)
    (hout : cl.drvConnect (linkNet seg env) w = some out) : AtRest (out.cl, out.w) := by
  unfold Client.drvConnect at hout
  rcases serviceConnect_cases seg env cl cl.mDrvPort w with hs | ⟨fd, hport, hs⟩
  · rw [hs] at hout
    cases hout
    exact h
  · rw [hs] at hout
    have hgreeted : Greeted cl := h.known.resolve_right fun hidle => Int.not_le.2 hport hidle.2.1
    obtain ⟨r, hr, rfl⟩ := Option.map_eq_some_iff.1 hout
    have hfd : AtRest ({ cl with mDrvFd := fd }, w) := h.client rfl (Or.inl hgreeted)
    have hin : AtRest (r.cl, r.w) := by
      obtain rfl | ⟨i, c', m, ret, hconn, hservice, hparams, hc', hret, rfl⟩ :=
        registerService_cases hfd hgreeted (Or.inr rfl) hseg hr
      · exact hfd
      · have hbehind : w.logBehind (w.registered env i m) = [] := logBehind_eq_nil (Or.inr hparams)
        rw [hbehind]
        exact hfd.answered hconn hc' ret _ [] _ rfl hgreeted
    split <;> exact hin

theorem AtRest.drvDisconnect (h : AtRest (cl, w)) (hseg : msgRegServiceSize ≤ seg w.reads)
    (hout : cl.drvDisconnect (linkNet seg env) w = some out) : AtRest (out.cl, out.w) := by
  unfold Client.drvDisconnect at hout
  by_cases hfd : cl.mDrvFd < 0
  · rw [if_pos hfd] at hout
    cases hout
    exact h
  · rw [if_neg hfd] at hout
    have hgreeted : Greeted cl := h.known.resolve_right fun hidle => hfd hidle.2.2.2
    obtain ⟨r, hr, rfl⟩ := Option.map_eq_some_iff.1 hout
    obtain ⟨hin, hgreeted'⟩ := h.unregisterService hgreeted (Or.inr rfl) hseg hr
    exact hin.client rfl (Or.inl hgreeted')

end Requests

variable {seg : Nat → Nat} {r r' : LinkState} {e : LinkEvent}

theorem AtRest.step (h : AtRest r) (hwhole : ReadsWhole seg r e) (hs : LinkState.step seg r e = some r') : AtRest r' := by
  cases e with
  | call call env =>
    obtain ⟨out, hout, rfl⟩ := Option.map_eq_some_iff.1 hs
    cases call with
    | connect hostname port => exact h.connect hwhole hout
    | logConnect aStr fullLog =>
      obtain ⟨rl, hrl, rfl⟩ := Option.map_eq_some_iff.1 hout
      exact h.logConnect hwhole.1 hwhole.2 hrl
    | logDisconnect => exact h.logDisconnect hwhole hout
    | drvConnect => exact h.drvConnect hwhole hout
    | drvDisconnect => exact h.drvDisconnect hwhole hout
  | other srv i =>
    simp only [LinkState.step] at hs
    cases hconn : r.2.conn with
    | none =>
      simp only [hconn] at hs
      cases hs
      exact ⟨h.lockstep, h.empty, nofun, h.known⟩
    | some j =>
      simp only [hconn] at hs
      obtain ⟨hsame, hs⟩ := Option.ite_none_right_eq_some.1 hs
      cases hs
      refine ⟨h.lockstep, h.empty, fun j' hj' => ?_, h.known⟩
      cases hj'
      obtain ⟨c, hc⟩ := h.listed j hconn
      exact ⟨c, hsame.trans hc⟩

theorem atRest_start (srv : Server) (mServAddr : SockaddrIn) : AtRest (start srv mServAddr) where
  lockstep := .nil
  empty := rfl
  listed := nofun
  known := by
    have hneg : (-1 : Int) < 0 := by decide
    exact Or.inr ⟨Int.le_of_lt hneg, Int.le_of_lt hneg, hneg, hneg⟩

/-- In a run with whole reads the client evaluates the reply to each request. -/
theorem lockstep_of_readsWhole (seg : Nat → Nat) (srv : Server) (mServAddr : SockaddrIn) (es : List LinkEvent)
    (h : StepsMeet (step seg) (ReadsWhole seg) (start srv mServAddr) es) :
    StatesMeet (step seg) Lockstep (start srv mServAddr) es :=
  h.statesMeet_of_invariant (fun _ _ _ hin hwhole hs => hin.step hwhole hs) (fun _ hin => hin.lockstep)
    (atRest_start srv mServAddr)

/-- A client that connects, registers for the log and goes. -/
def logSession (fullLog : Bool) : List LinkEvent :=
  [.call (.connect (str "car") 1025) openCall, .call (.logConnect [] fullLog) openCall, .call .logDisconnect openCall]

theorem lockstep_logSession :
    StatesMeet (step fun _ => 1024) Lockstep (start (started openEnv) someClient) (logSession true) :=
  lockstep_of_readsWhole (fun _ => 1024) (started openEnv) someClient (logSession true) (by decide +kernel)

/-- The reply to the registration comes in two pieces: `logDisconnect` takes the rest of it for its own reply. -/
theorem not_lockstep_cut :
    ¬ ∀ seg srv mServAddr es, StatesMeet (step seg) Lockstep (start srv mServAddr) es := fun h =>
  absurd (h (fun r => if r = 1 then 20 else 1024) (started openEnv) someClient (logSession false)) (by decide +kernel)

end LinkState

end RcCarControl.Daemon
