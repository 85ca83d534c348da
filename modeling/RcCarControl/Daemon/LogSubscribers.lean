import RcCarControl.Daemon.LogThreads

/-!
# What a log client sees

A client that registers with `params` not 0 gets a copy of the log with the acknowledgement and then the datagrams of
the callback.  Together they are the log (`NoGap`) as long as no print is between its two halves when the log is copied,
no callback comes between the copy and the append of the client, and the texts are appended in the order of their
callbacks (`Serial`).  Nothing in the code makes sure of that.
-/

namespace RcCarControl.Daemon

open Interface LittleEndian Lts

/-- The texts of the datagrams sent to an address, one after the other. -/
def datagrams (srv : Server) (a : SockaddrIn) : Text :=
  ((srv.logSent.filter fun d => d.1 = a).map Prod.snd).flatten

/-- The texts that are still to be appended to the log. -/
def LogThreads.pending (s : LogThreads) : Text := (s.printing.map Prod.snd).flatten

/-- The registrations at the logging service. -/
structure LogSubs where
  /-- How often each address was appended to the list of clients. -/
  added : SockaddrIn → Nat
  /-- The addresses acknowledged with `params` not 0, with the log that was sent behind the reply. -/
  acked : List (SockaddrIn × Text)

/-- The message registers `a` for the log and asks for its contents. -/
def AsksLog (a : SockaddrIn) (msg : MsgRegService) : Prop :=
  msg.service = rcciClientFlagLog ∧ msg.params ≠ 0 ∧ msg.sockaddr = a

instance (a : SockaddrIn) (msg : MsgRegService) : Decidable (AsksLog a msg) := inferInstanceAs (Decidable (_ ∧ _ ∧ _))

/-- A reply that acknowledges a registration at the logging service, which runs. -/
def LogThreads.Acknowledges (s : LogThreads) (msg : MsgRegService) : Prop :=
  AsksLog msg.sockaddr msg ∧ msg.status = rcciStatusAck ∧ s.srv.running .logging = true

instance (s : LogThreads) (msg : MsgRegService) : Decidable (s.Acknowledges msg) :=
  inferInstanceAs (Decidable (_ ∧ _ ∧ _))

def LogSubs.note (s : LogThreads) (e : LogEvent) (g : LogSubs) : LogSubs :=
  match e, s.stage with
  | .addClient, .addClient _ _ msg _ =>
    if msg.service = rcciClientFlagLog ∧ s.srv.admits .logging then
      { g with added := Function.update g.added msg.sockaddr (g.added msg.sockaddr + 1) }
    else g
  | .reply bytes, .reply _ msg serverLog =>
    if bytes = msgRegServiceSize ∧ s.Acknowledges msg ∧ ¬ s.wantsLog msg serverLog then
      { g with acked := g.acked ++ [(msg.sockaddr, [])] }
    else g
  | .sendLog bytes, .sendLog _ msg serverLog =>
    { g with acked := g.acked ++ [(msg.sockaddr, serverLog.take bytes.toNat)] }
  | _, _ => g

abbrev LogState := LogThreads × LogSubs

namespace LogState

def step : LogState → LogEvent → Option LogState := withGhost LogThreads.step LogSubs.note

/-- The daemon after its start. -/
def start (env : OpenEnv) : LogState := (.start (started env), ⟨fun _ => 0, []⟩)

/-- The message is the first with which `a` joins the clients of the log. -/
def Joins (a : SockaddrIn) (r : LogState) (msg : MsgRegService) : Prop :=
  AsksLog a msg ∧ r.1.srv.admits .logging = true ∧ r.2.added a = 0

/-- The client is listed, and registered once. -/
def Listed (a : SockaddrIn) (r : LogState) : Prop := r.2.added a = 1 ∧ a ∈ r.1.srv.clients .logging

instance (a : SockaddrIn) (r : LogState) (msg : MsgRegService) : Decidable (Joins a r msg) :=
  inferInstanceAs (Decidable (_ ∧ _ ∧ _))

instance (a : SockaddrIn) (r : LogState) : Decidable (Listed a r) := inferInstanceAs (Decidable (_ ∧ _))

/-- A client that registered once and is still registered has been sent the log, neither more nor less, whenever no
print is in progress. -/
def NoGap (a : SockaddrIn) (r : LogState) : Prop :=
  ∀ sent, (a, sent) ∈ r.2.acked → Listed a r → r.1.printing = [] → sent ++ datagrams r.1.srv a = r.1.srv.mLog

/-- The order of the threads in which the client `a` misses nothing, and a log that is sent whole. -/
def Serial (a : SockaddrIn) (r : LogState) (e : LogEvent) : Prop :=
  match e, r.1.stage with
  | .copyLog, .copyLog _ _ msg => Joins a r msg → r.1.printing = []
  | .callback _ _, .addClient _ _ msg _ => ¬ Joins a r msg
  | .append thread, _ => Listed a r → ∀ p ∈ r.1.printing.head?, p.1 = thread
  | .sendLog bytes, .sendLog _ msg serverLog => msg.sockaddr = a → Listed a r → bytes = serverLog.length
  | _, _ => True

instance (a : SockaddrIn) (r : LogState) : Decidable (NoGap a r) :=
  decidable_of_iff (∀ p ∈ r.2.acked, p.1 = a → Listed a r → r.1.printing = [] →
      p.2 ++ datagrams r.1.srv a = r.1.srv.mLog)
    ⟨fun h sent hs => h (a, sent) hs rfl, fun h p hp hpa => h p.2 (by rw [← hpa]; exact hp)⟩

instance (a : SockaddrIn) (r : LogState) (e : LogEvent) : Decidable (Serial a r e) := by
  unfold Serial
  split <;> infer_instance

/-- What the client was given when it joined, and the datagrams since, are the log and what is still to be appended. -/
def Joined (a : SockaddrIn) (r : LogState) (sent : Text) : Prop :=
  1 ≤ r.2.added a ∧ (Listed a r → sent ++ datagrams r.1.srv a = r.1.srv.mLog ++ r.1.pending)

/-- The log that the handler holds in a stage, for a registration of `a`. -/
def StageSound (a : SockaddrIn) (r : LogState) : Prop :=
  match r.1.stage with
  | .addClient _ _ msg serverLog => Joins a r msg → r.1.printing = [] ∧ serverLog = r.1.srv.mLog
  | .reply _ msg serverLog => r.1.Acknowledges msg → msg.sockaddr = a → Joined a r serverLog
  | .sendLog _ msg serverLog => msg.sockaddr = a → Joined a r serverLog
  | _ => True

/-- What holds for the client `a` in every state of a serial run. -/
structure SubSound (a : SockaddrIn) (r : LogState) : Prop where
  count_le : (r.1.srv.clients .logging).count a ≤ r.2.added a
  unsent : r.2.added a = 0 → datagrams r.1.srv a = []
  stage : StageSound a r
  acked : ∀ sent, (a, sent) ∈ r.2.acked → Joined a r sent

end LogState

/-! ### What the effects do -/

section Effects

variable (srv : Server) (a : SockaddrIn) (text : Text)

theorem datagrams_callback :
    datagrams (srv.callback text) a =
      datagrams srv a ++ (List.replicate ((srv.clients .logging).count a) text).flatten := by
  have hsent (l : List SockaddrIn) :
      ((l.map fun b => (b, text)).filter fun d => d.1 = a).map Prod.snd = List.replicate (l.count a) text := by
    induction l with
    | nil => rfl
    | cons b l ih =>
      by_cases hb : b = a
      · simp [hb, ih, List.replicate_succ]
      · simp [hb, ih]
  simp [datagrams, Server.callback, List.filter_append, hsent]

theorem serviceOf_eq_logging {service : U32} : serviceOf service = some .logging ↔ service = rcciClientFlagLog := by
  unfold serviceOf
  split_ifs with hlog hdrive
  · simp [hlog]
  · simp [hlog]
  · simp [hlog]

/-- A registration adds a client, is refused for lack of room, or finds no service. -/
theorem addReg_cases (i : Nat) (serverLog : Text) (msg : MsgRegService) :
    (∃ s size, serviceOf msg.service = some s ∧ srv.admits s = true ∧ srv.addReg i serverLog msg =
        ((srv.pushClient s msg.sockaddr).orFlags i s.flag, { msg with header.size := size })) ∨
      (∃ s size, serviceOf msg.service = some s ∧ srv.admits s = false ∧ srv.addReg i serverLog msg =
        (srv, { msg with header.size := size, status := rcciStatusNack })) ∨
      ((∀ s, serviceOf msg.service = some s → srv.running s = false) ∧ srv.addReg i serverLog msg = (srv, msg)) := by
  unfold Server.addReg regService
  cases hs : serviceOf msg.service with
  | none => exact Or.inr (Or.inr ⟨nofun, rfl⟩)
  | some s =>
    by_cases hr : srv.running s = true
    · have hr' : ({ srv with mLog := serverLog } : Server).running s = true := hr
      let size := if s = .logging ∧ msg.params ≠ 0 then msg.header.size + BitVec.ofNat 32 serverLog.length
        else msg.header.size
      by_cases hc : (srv.mServices s).canAddClient = true
      · refine Or.inl ⟨s, size, rfl, by simp [Server.admits, hr, hc], ?_⟩
        simp only [register, if_pos hr', if_pos hc]
        rfl
      · refine Or.inr (Or.inl ⟨s, size, rfl, by simp [Server.admits, hc], ?_⟩)
        simp only [register, if_pos hr', if_neg hc]
        rfl
    · have hr' : ¬ ({ srv with mLog := serverLog } : Server).running s = true := hr
      refine Or.inr (Or.inr ⟨fun t ht => ?_, ?_⟩)
      · cases ht
        exact Bool.eq_false_iff.2 hr
      · simp only [if_neg hr']

/-- The registration of a client, as far as the log is concerned. -/
theorem addReg_server (i : Nat) (serverLog : Text) (msg : MsgRegService) :
    (srv.addReg i serverLog msg).1.mLog = srv.mLog ∧ (srv.addReg i serverLog msg).1.logSent = srv.logSent ∧
      (srv.addReg i serverLog msg).1.running .logging = srv.running .logging ∧
      (srv.addReg i serverLog msg).1.clients .logging =
        (if msg.service = rcciClientFlagLog ∧ srv.admits .logging then srv.clients .logging ++ [msg.sockaddr]
        else srv.clients .logging) := by
  simp only [← serviceOf_eq_logging]
  obtain ⟨s, size, hs, ha, h⟩ | ⟨s, size, hs, ha, h⟩ | ⟨hs, h⟩ := addReg_cases srv i serverLog msg
  · rw [h, hs]
    refine ⟨rfl, rfl, srv.running_pushClient s .logging _, ?_⟩
    simp only [Server.clients_orFlags, Server.clients_pushClient, Option.some.injEq]
    by_cases hsl : s = .logging
    · subst hsl
      simp [ha]
    · simp [hsl, Ne.symm hsl]
  · rw [h, hs]
    refine ⟨rfl, rfl, rfl, ?_⟩
    rw [if_neg]
    rintro ⟨hsl, hadm⟩
    cases hsl
    rw [ha] at hadm
    cases hadm
  · rw [h]
    refine ⟨rfl, rfl, rfl, ?_⟩
    rw [if_neg]
    rintro ⟨hsl, hadm⟩
    simp [Server.admits, hs _ hsl] at hadm

theorem count_addReg (i : Nat) (serverLog : Text) (msg : MsgRegService) :
    ((srv.addReg i serverLog msg).1.clients .logging).count a = (srv.clients .logging).count a +
      if (msg.service = rcciClientFlagLog ∧ srv.admits .logging) ∧ msg.sockaddr = a then 1 else 0 := by
  rw [(addReg_server srv i serverLog msg).2.2.2]
  by_cases hadd : msg.service = rcciClientFlagLog ∧ srv.admits .logging = true
  · by_cases hmsg : msg.sockaddr = a
    · simp [hadd, hmsg]
    · simp [hadd, hmsg]
  · simp [hadd]

/-- The reply to it: an acknowledgement from a service that runs is one to an admitted client. -/
theorem addReg_reply (i : Nat) (serverLog : Text) (msg : MsgRegService) :
    (srv.addReg i serverLog msg).2.service = msg.service ∧ (srv.addReg i serverLog msg).2.params = msg.params ∧
      (srv.addReg i serverLog msg).2.sockaddr = msg.sockaddr ∧
      (msg.service = rcciClientFlagLog → srv.running .logging = true →
        (srv.addReg i serverLog msg).2.status = rcciStatusAck → srv.admits .logging = true) := by
  simp only [← serviceOf_eq_logging]
  obtain ⟨s, size, hs, ha, h⟩ | ⟨s, size, hs, ha, h⟩ | ⟨hs, h⟩ := addReg_cases srv i serverLog msg
  · rw [h, hs]
    refine ⟨rfl, rfl, rfl, fun hsl _ _ => ?_⟩
    cases hsl
    exact ha
  · rw [h]
    exact ⟨rfl, rfl, rfl, fun _ _ hack => absurd hack (show rcciStatusNack ≠ rcciStatusAck by decide)⟩
  · rw [h]
    refine ⟨rfl, rfl, rfl, fun hsl hrun _ => ?_⟩
    rw [hs _ hsl] at hrun
    cases hrun

theorem note_addClient {s : LogThreads} {i : Nat} {fd : Int} {msg : MsgRegService} {serverLog : Text}
    (hstage : s.stage = .addClient i fd msg serverLog) (g : LogSubs) :
    (LogSubs.note s .addClient g).acked = g.acked ∧ (LogSubs.note s .addClient g).added a =
      g.added a + if (msg.service = rcciClientFlagLog ∧ s.srv.admits .logging) ∧ msg.sockaddr = a then 1 else 0 := by
  simp only [LogSubs.note, hstage]
  by_cases hadd : msg.service = rcciClientFlagLog ∧ s.srv.admits .logging = true
  · rw [if_pos hadd]
    refine ⟨rfl, ?_⟩
    by_cases hmsg : msg.sockaddr = a
    · subst hmsg
      rw [if_pos ⟨hadd, rfl⟩]
      exact Function.update_self _ _ _
    · rw [if_neg fun hc => hmsg hc.2]
      exact Function.update_of_ne (Ne.symm hmsg) _ _
  · rw [if_neg hadd, if_neg fun hc => hadd hc.1]
    exact ⟨rfl, rfl⟩

theorem find_printing {printing : List (Thread × Text)} {thread : Thread} {p : Thread × Text}
    (h : printing.find? (fun p => p.1 = thread) = some p) (hhead : ∀ q ∈ printing.head?, q.1 = thread) :
    ∃ rest, printing = p :: rest ∧ printing.eraseP (fun p => p.1 = thread) = rest := by
  cases printing with
  | nil => cases h
  | cons q rest =>
    have hq : q.1 = thread := hhead q rfl
    rw [List.find?_cons_of_pos (by simpa using hq)] at h
    cases h
    exact ⟨rest, rfl, List.eraseP_cons_of_pos (by simpa using hq)⟩

end Effects

namespace LogState

variable {a : SockaddrIn} {r r' : LogState} {s : LogThreads} {g : LogSubs} {sent : Text}

/-! ### One step -/

/-- What a client has and what the log has grow by the same. -/
theorem Joined.mono (h : Joined a r sent) (hadded : r'.2.added a = r.2.added a)
    (hmem : a ∈ r'.1.srv.clients .logging → a ∈ r.1.srv.clients .logging)
    (hsame : Listed a r → sent ++ datagrams r.1.srv a = r.1.srv.mLog ++ r.1.pending →
      sent ++ datagrams r'.1.srv a = r'.1.srv.mLog ++ r'.1.pending) : Joined a r' sent := by
  refine ⟨hadded ▸ h.1, fun hlisted => ?_⟩
  have hlisted : Listed a r := ⟨hadded.symm.trans hlisted.1, hmem hlisted.2⟩
  exact hsame hlisted (h.2 hlisted)

/-- A client that is added: if it was there before, it has now registered twice and nothing is promised. -/
theorem Joined.of_first (hadded : r'.2.added a = r.2.added a + 1)
    (hfirst : r.2.added a = 0 → sent ++ datagrams r'.1.srv a = r'.1.srv.mLog ++ r'.1.pending) : Joined a r' sent := by
  refine ⟨by rw [hadded]; exact Nat.succ_pos _, fun hlisted => ?_⟩
  have hone := hlisted.1
  rw [hadded] at hone
  exact hfirst (Nat.succ.inj hone)

/-- Two sound states: the list of clients and the numbers are the same, and what is known in a stage and of the clients
is carried over by `keep`. -/
theorem SubSound.carry (h : SubSound a r) (hadded : r'.2.added a = r.2.added a) (hacked : r'.2.acked = r.2.acked)
    (hcount : (r'.1.srv.clients .logging).count a ≤ (r.1.srv.clients .logging).count a)
    (hunsent : r.2.added a = 0 → datagrams r'.1.srv a = datagrams r.1.srv a)
    (keep : ∀ sent, Joined a r sent → Joined a r' sent) (hstage : StageSound a r → StageSound a r') :
    SubSound a r' where
  count_le := by
    rw [hadded]
    exact Nat.le_trans hcount h.count_le
  unsent h₀ := by
    rw [hadded] at h₀
    rw [hunsent h₀, h.unsent h₀]
  stage := hstage h.stage
  acked sent hs := by
    rw [hacked] at hs
    exact keep sent (h.acked sent hs)

/-- The client is added once more. -/
theorem SubSound.added (h : SubSound a r) (hadded : r'.2.added a = r.2.added a + 1) (hacked : r'.2.acked = r.2.acked)
    (hcount : (r'.1.srv.clients .logging).count a = (r.1.srv.clients .logging).count a + 1)
    (hstage : StageSound a r') : SubSound a r' where
  count_le := by
    rw [hcount, hadded]
    exact Nat.succ_le_succ h.count_le
  unsent h₀ := by
    rw [hadded] at h₀
    cases h₀
  stage := hstage
  acked sent hs := by
    rw [hacked] at hs
    refine Joined.of_first hadded fun h₀ => ?_
    have hj := (h.acked sent hs).1
    rw [h₀] at hj
    cases hj

/-- A client that was added once is listed at most once. -/
theorem SubSound.count_eq_one (h : SubSound a r) (hlisted : Listed a r) :
    (r.1.srv.clients .logging).count a = 1 := by
  have hle := h.count_le
  have hpos := List.count_pos_iff.2 hlisted.2
  have hone := hlisted.1
  omega

theorem SubSound.callback (h : SubSound a (s, g)) {thread : Thread} {text : Text}
    (hser : Serial a (s, g) (.callback thread text)) {s' : LogThreads} (hs : s.step (.callback thread text) = some s') :
    SubSound a (s', g) := by
  obtain ⟨hmay, hs⟩ := Option.ite_none_right_eq_some.1 hs
  cases hs
  have hpend : (LogThreads.mk (s.srv.callback text) (s.printing ++ [(thread, text)])
      (if thread = .select then .idle else s.stage)).pending = s.pending ++ text := by
    simp [LogThreads.pending]
  have keep : ∀ sent, Joined a (s, g) sent → Joined a (⟨s.srv.callback text, s.printing ++ [(thread, text)],
      if thread = .select then .idle else s.stage⟩, g) sent := fun sent hj =>
    hj.mono rfl id fun hlisted heq => by
      show sent ++ datagrams (s.srv.callback text) a = s.srv.mLog ++ _
      rw [hpend, datagrams_callback, h.count_eq_one hlisted, ← List.append_assoc, heq]
      simp
  refine h.carry rfl rfl (Nat.le_refl _) (fun h₀ => ?_) keep fun hst => ?_
  · have hzero : (s.srv.clients .logging).count a = 0 := by
      have hle : (s.srv.clients .logging).count a ≤ g.added a := h.count_le
      have h₀ : g.added a = 0 := h₀
      omega
    show datagrams (s.srv.callback text) a = datagrams s.srv a
    rw [datagrams_callback, hzero]
    simp
  · by_cases ht : thread = .select
    · simp only [StageSound, if_pos ht]
    · simp only [StageSound, if_neg ht] at hst ⊢
      cases hstage : s.stage with
      | addClient i fd msg serverLog =>
        simp only [Serial, hstage] at hser
        exact fun hjoins => absurd hjoins hser
      | reply fd msg serverLog =>
        simp only [hstage] at hst ⊢
        exact fun hack hmsg => keep _ (hst hack hmsg)
      | sendLog fd msg serverLog =>
        simp only [hstage] at hst ⊢
        exact fun hmsg => keep _ (hst hmsg)
      | _ => trivial

theorem SubSound.append (h : SubSound a (s, g)) {thread : Thread} (hser : Serial a (s, g) (.append thread))
    {s' : LogThreads} (hs : s.step (.append thread) = some s') : SubSound a (s', g) := by
  simp only [LogThreads.step] at hs
  cases hf : s.printing.find? fun p => p.1 = thread with
  | none =>
    rw [hf] at hs
    cases hs
  | some p =>
    rw [hf] at hs
    cases hs
    have keep : ∀ sent, Joined a (s, g) sent → Joined a ({ s with
        srv := s.srv.append p.2
        printing := s.printing.eraseP fun p => p.1 = thread }, g) sent := fun sent hj =>
      hj.mono rfl id fun hlisted heq => by
        obtain ⟨rest, hp, hrest⟩ := find_printing hf (hser hlisted)
        show sent ++ datagrams s.srv a = (s.srv.mLog ++ p.2) ++ (List.map Prod.snd (List.eraseP _ _)).flatten
        rw [hrest, heq, LogThreads.pending, hp]
        simp
    refine h.carry rfl rfl (Nat.le_refl _) (fun _ => rfl) keep fun hst => ?_
    simp only [StageSound] at hst ⊢
    cases hstage : s.stage with
    | addClient i fd msg serverLog =>
      simp only [hstage] at hst ⊢
      -- nothing is printing, so nothing can be appended
      intro hjoins
      rw [(hst hjoins).1] at hf
      cases hf
    | reply fd msg serverLog =>
      simp only [hstage] at hst ⊢
      exact fun hack hmsg => keep _ (hst hack hmsg)
    | sendLog fd msg serverLog =>
      simp only [hstage] at hst ⊢
      exact fun hmsg => keep _ (hst hmsg)
    | _ => trivial

/-- A step of the handler that changes its stage only. -/
theorem SubSound.setStage (h : SubSound a (s, g)) {stage : RegStage}
    (hstage : StageSound a (s, g) → StageSound a ({ s with stage := stage }, g)) :
    SubSound a ({ s with stage := stage }, g) :=
  h.carry rfl rfl (Nat.le_refl _) (fun _ => rfl) (fun _ hj => hj) hstage

/-- The client is added with the log that was copied. -/
theorem SubSound.addClient (h : SubSound a (s, g)) {i : Nat} {fd : Int} {msg : MsgRegService} {serverLog : Text}
    (hstage : s.stage = .addClient i fd msg serverLog) {s' : LogThreads} (hs : s.step .addClient = some s') :
    SubSound a (s', LogSubs.note s .addClient g) := by
  simp only [LogThreads.step, hstage] at hs
  cases hs
  generalize hreg : s.srv.addReg i serverLog msg = reg
  obtain ⟨hmLog, hsent, hrun, hclients⟩ := addReg_server s.srv i serverLog msg
  obtain ⟨hservice, hparams, haddr, hadmits⟩ := addReg_reply s.srv i serverLog msg
  rw [hreg] at hmLog hsent hrun hclients hservice hparams haddr hadmits
  have hgrams : datagrams reg.1 a = datagrams s.srv a := by rw [datagrams, hsent]; rfl
  have hcopied : Joins a (s, g) msg → s.printing = [] ∧ serverLog = s.srv.mLog := by
    have hst := h.stage
    simp only [StageSound, hstage] at hst
    exact hst
  obtain ⟨hacked, hadded⟩ := note_addClient a hstage g
  have hcount := count_addReg s.srv a i serverLog msg
  rw [hreg] at hcount
  by_cases hadd : (msg.service = rcciClientFlagLog ∧ s.srv.admits .logging = true) ∧ msg.sockaddr = a
  · -- the first time, the client has been sent nothing and the handler holds the whole log
    rw [if_pos hadd] at hcount hadded
    refine h.added hadded hacked hcount fun hack _ => Joined.of_first (r := (s, g)) hadded fun h₀ => ?_
    obtain ⟨hprint, hlog⟩ := hcopied ⟨⟨hadd.1.1, hparams ▸ hack.1.2.1, hadd.2⟩, hadd.1.2, h₀⟩
    show serverLog ++ datagrams reg.1 a = reg.1.mLog ++ (s.printing.map Prod.snd).flatten
    rw [hgrams, hmLog, h.unsent h₀, hlog, hprint]
    rfl
  · rw [if_neg hadd] at hcount hadded
    have hmem : a ∈ reg.1.clients .logging → a ∈ s.srv.clients .logging := fun hin => by
      rw [← List.count_pos_iff] at hin ⊢
      rwa [hcount] at hin
    refine h.carry hadded hacked (Nat.le_of_eq hcount) (fun _ => hgrams) (fun sent hj => ?_) fun _ hack hmsg => ?_
    · refine hj.mono hadded hmem fun _ heq => ?_
      show sent ++ datagrams reg.1 a = reg.1.mLog ++ _
      rw [hgrams, hmLog]
      exact heq
    · -- an acknowledgement of `a` is one to an added client
      refine absurd ⟨⟨?_, ?_⟩, haddr.symm.trans hmsg⟩ hadd
      · exact hservice.symm.trans hack.1.1
      · exact hadmits (hservice.symm.trans hack.1.1) (hrun.symm.trans hack.2.2) hack.2.1

/-- The reply is written: the log follows, or there is nothing to send and the client has what there is. -/
theorem SubSound.reply (h : SubSound a (s, g)) {bytes : Int} {s' : LogThreads} (hs : s.step (.reply bytes) = some s') :
    SubSound a (s', LogSubs.note s (.reply bytes) g) := by
  simp only [LogThreads.step] at hs
  cases hstage : s.stage with
  | reply fd msg serverLog =>
    have hst := h.stage
    simp only [StageSound, hstage] at hst
    simp only [hstage] at hs
    by_cases hb : bytes = msgRegServiceSize
    · rw [if_pos hb] at hs
      cases hs
      by_cases hw : s.wantsLog msg serverLog
      · have hnote : LogSubs.note s (.reply bytes) g = g := by simp [LogSubs.note, hstage, hw]
        rw [hnote, if_pos hw]
        exact h.setStage fun _ hmsg => hst ⟨⟨hw.1, hw.2.2.1, rfl⟩, hw.2.2.2.2, hw.2.1⟩ hmsg
      · rw [if_neg hw]
        by_cases hack : s.Acknowledges msg
        · have hnote : LogSubs.note s (.reply bytes) g = { g with acked := g.acked ++ [(msg.sockaddr, [])] } := by
            simp [LogSubs.note, hstage, hw, hb, hack]
          have hempty : serverLog = [] := by
            refine List.eq_nil_of_length_eq_zero (Nat.eq_zero_of_not_pos fun hpos => hw ?_)
            exact ⟨hack.1.1, hack.2.2, hack.1.2.1, hpos, hack.2.1⟩
          rw [hnote]
          refine ⟨h.count_le, h.unsent, trivial, fun sent hs => ?_⟩
          rcases List.mem_append.1 hs with hs | hs
          · exact h.acked sent hs
          · obtain ⟨hmsg, rfl⟩ := Prod.mk.inj (List.mem_singleton.1 hs)
            have hj := hst hack hmsg.symm
            rw [hempty] at hj
            exact hj
        · have hnote : LogSubs.note s (.reply bytes) g = g := by simp [LogSubs.note, hstage, hack]
          rw [hnote]
          exact h.setStage fun _ => trivial
    · rw [if_neg hb] at hs
      cases hs
      have hnote : LogSubs.note s (.reply bytes) g = g := by simp [LogSubs.note, hstage, hb]
      rw [hnote]
      exact h.setStage fun _ => trivial
  | _ => simp only [hstage] at hs; cases hs

/-- The log is written, whole for the client `a`. -/
theorem SubSound.sendLog (h : SubSound a (s, g)) {bytes : Int} (hser : Serial a (s, g) (.sendLog bytes))
    {s' : LogThreads} (hs : s.step (.sendLog bytes) = some s') : SubSound a (s', LogSubs.note s (.sendLog bytes) g) := by
  simp only [LogThreads.step] at hs
  cases hstage : s.stage with
  | sendLog fd msg serverLog =>
    have hst := h.stage
    simp only [StageSound, hstage] at hst
    simp only [Serial, hstage] at hser
    simp only [hstage] at hs
    have hnote : LogSubs.note s (.sendLog bytes) g =
        { g with acked := g.acked ++ [(msg.sockaddr, serverLog.take bytes.toNat)] } := by
      simp only [LogSubs.note, hstage]
    have hdone : ∃ stage, s' = { s with stage := stage } ∧ ∀ g', StageSound a ({ s with stage := stage }, g') := by
      by_cases hb : bytes = serverLog.length
      · rw [if_pos hb] at hs
        cases hs
        exact ⟨.idle, rfl, fun _ => trivial⟩
      · rw [if_neg hb] at hs
        cases hs
        exact ⟨.failed _, rfl, fun _ => trivial⟩
    obtain ⟨stage, rfl, hstage'⟩ := hdone
    rw [hnote]
    refine ⟨h.count_le, h.unsent, hstage' _, fun sent hs => ?_⟩
    rcases List.mem_append.1 hs with hs | hs
    · exact h.acked sent hs
    · obtain ⟨hmsg, rfl⟩ := Prod.mk.inj (List.mem_singleton.1 hs)
      refine ⟨(hst hmsg.symm).1, fun hlisted => ?_⟩
      have hwhole : serverLog.take bytes.toNat = serverLog := by
        rw [hser hmsg.symm hlisted, Int.toNat_natCast, List.take_length]
      rw [hwhole]
      exact (hst hmsg.symm).2 hlisted
  | _ => simp only [hstage] at hs; cases hs

theorem SubSound.unregister (h : SubSound a (s, g)) {service : ServiceId} {b : SockaddrIn} {s' : LogThreads}
    (hs : s.step (.unregister service b) = some s') : SubSound a (s', g) := by
  simp only [LogThreads.step] at hs
  cases hstage : s.stage with
  | idle =>
    simp only [hstage] at hs
    cases hbusy : s.busy .select with
    | true =>
      rw [hbusy] at hs
      cases hs
    | false =>
      rw [hbusy] at hs
      cases hs
      have hcount : ((s.srv.eraseClient service b).clients .logging).count a ≤ (s.srv.clients .logging).count a := by
        rw [Server.clients_eraseClient]
        split
        · next hl =>
          subst hl
          exact List.erase_sublist.count_le a
        · exact Nat.le_refl _
      refine h.carry rfl rfl hcount (fun _ => rfl) (fun sent hj => ?_) fun _ => ?_
      · refine hj.mono rfl (fun hin => ?_) fun _ heq => heq
        exact List.count_pos_iff.1 (Nat.lt_of_lt_of_le (List.count_pos_iff.2 hin) hcount)
      · simp only [StageSound]
  | _ => simp only [hstage] at hs; cases hs

theorem SubSound.step (h : SubSound a r) {e : LogEvent} (hser : Serial a r e) (hs : LogState.step r e = some r') :
    SubSound a r' := by
  obtain ⟨s, g⟩ := r
  obtain ⟨s', g'⟩ := r'
  obtain ⟨hs, rfl⟩ := withGhost_eq_some.1 hs
  cases e with
  | callback thread text => exact h.callback hser hs
  | append thread => exact h.append hser hs
  | connected fd =>
    obtain ⟨-, hs⟩ := Option.ite_none_left_eq_some.1 hs
    cases hs
    exact h.carry rfl rfl (Nat.le_refl _) (fun _ => rfl) (fun _ hj => hj) fun hst => hst
  | closed i =>
    simp only [LogThreads.step] at hs
    split at hs
    · next hstage _ =>
      obtain ⟨-, hs⟩ := Option.ite_none_left_eq_some.1 hs
      cases hs
      exact h.carry rfl rfl (Nat.le_refl _) (fun _ => rfl) (fun _ hj => hj) fun hst => hst
    · cases hs
  | received i body crc =>
    simp only [LogThreads.step] at hs
    split at hs
    · obtain ⟨-, hs⟩ := Option.ite_none_left_eq_some.1 hs
      cases hs
      exact h.setStage fun _ => trivial
    · cases hs
  | copyLog =>
    simp only [LogThreads.step] at hs
    cases hstage : s.stage with
    | copyLog i fd msg =>
      simp only [hstage] at hs
      cases hs
      simp only [Serial, hstage] at hser
      exact h.setStage fun _ hjoins => ⟨hser hjoins, rfl⟩
    | _ => simp only [hstage] at hs; cases hs
  | addClient =>
    cases hstage : s.stage with
    | addClient i fd msg serverLog => exact h.addClient hstage hs
    | _ => simp only [LogThreads.step, hstage] at hs; cases hs
  | reply bytes => exact h.reply hs
  | sendLog bytes => exact h.sendLog hser hs
  | unregister service b => exact h.unregister hs

theorem SubSound.noGap (h : SubSound a r) : NoGap a r := by
  intro sent hs hlisted hprint
  rw [(h.acked sent hs).2 hlisted, LogThreads.pending, hprint]
  exact List.append_nil _

/-- The start has registered nobody. -/
theorem subSound_start (env : OpenEnv) (a : SockaddrIn) : SubSound a (start env) := by
  obtain ⟨hfresh, hsent⟩ := started_fresh env
  refine ⟨?_, fun _ => ?_, trivial, nofun⟩
  · show ((started env).clients .logging).count a ≤ 0
    rw [hfresh.clients]
    exact Nat.le_refl 0
  · show datagrams (started env) a = []
    rw [datagrams, hsent]
    rfl

/-- In a serial run a client of the log has the log. -/
theorem noGap_of_serial (env : OpenEnv) (a : SockaddrIn) (es : List LogEvent)
    (h : StepsMeet step (Serial a) (start env) es) : StatesMeet step (NoGap a) (start env) es :=
  h.statesMeet_of_invariant (fun _ _ _ hi hser hs => SubSound.step hi hser hs) (fun _ hi => hi.noGap)
    (subSound_start env a)

/-! ### Two interleavings -/

/-- The rest of a registration at the logging service that asks for the log. -/
def logRequest (a : SockaddrIn) : List Byte :=
  (MsgRegService.toBytes ⟨⟨cServMagic, cServVer, rcciMsgRegService, BitVec.ofNat 32 msgRegServiceSize, 0⟩,
    rcciClientFlagLog, 0, a, 1⟩).drop msgHeaderSize

/-- What `addClient` prints for the second connection. -/
def connectedText : Text := str "Client connected: 127.0.0.1:40001 (num of clients: 2)\n"

/-- The client is added before the print of the accept thread. -/
def joinThenPrint : List LogEvent :=
  [.connected 7, .connected 8, .received 0 (logRequest someClient) 0, .copyLog, .addClient, .reply msgRegServiceSize,
    .sendLog (started openEnv).mLog.length, .callback .accept connectedText, .append .accept]

theorem noGap_joinThenPrint : StatesMeet step (NoGap someClient) (start openEnv) joinThenPrint :=
  noGap_of_serial openEnv someClient joinThenPrint (by decide +kernel)

/-- The client is added between the two halves of the print: the text is neither in the log it is sent nor in a
datagram. -/
def joinMidPrint : List LogEvent :=
  [.connected 7, .connected 8, .callback .accept connectedText, .received 0 (logRequest someClient) 0, .copyLog,
    .addClient, .reply msgRegServiceSize, .sendLog (started openEnv).mLog.length, .append .accept]

theorem not_noGap_joinMidPrint :
    ¬ ∀ env a es, StatesMeet step (NoGap a) (start env) es := fun h =>
  absurd (h openEnv someClient joinMidPrint) (by decide +kernel)

end LogState

end RcCarControl.Daemon
